import Graft.Code.OpcodeTable
import Graft.Workbench.Signature

/-!
# Reading method bodies

Instructions and bodies from the documents that show them. Offsets are never read: a body that is
read is laid out anew.
-/

namespace Graft.Document

/-- A number in the code. -/
def asImmediate (document : Document) : Work Immediate := do
  if document.has "i8" then return .int8 (.ofInt (← document.int "i8"))
  if document.has "u8" then return .uint8 (← document.uint8 "u8")
  if document.has "i16" then return .int16 (.ofInt (← document.int "i16"))
  if document.has "u16" then return .uint16 (← document.uint16 "u16")
  if document.has "i32" then return .int32 (.ofInt (← document.int "i32"))
  if document.has "u32" then return .uint32 (← document.uint32 "u32")
  if document.has "i64" then return .int64 (.ofInt (← document.int "i64"))
  if document.has "u64" then return .uint64 (.ofNat (← document.nat "u64"))
  if document.has "f32" then return .float32 (← document.uint32 "f32")
  if document.has "f64" then return .float64 (.ofNat (← document.nat "f64"))
  throw .malformed

/-- The operand of an instruction; an instruction without any of the fields has none. -/
def asOperand (document : Document) : Work Operand := do
  if document.has "imm" then return .immediate (← document.require "imm" asImmediate)
  if document.has "str" then return .text (← document.str "str")
  if document.has "target" then return .target (← document.nat "target")
  if document.has "switch" then return .switch (← document.every "switch" asNat)
  if document.has "local" then return .localVar (← document.uint16 "local")
  if document.has "arg" then return .argument (← document.uint16 "arg")
  if document.has "type" then return .type (← document.require "type" asTypeRef)
  if document.has "field" then return .field (← document.require "field" asFieldRef)
  if document.has "method" then return .method (← document.require "method" asMethodRef)
  if document.has "token" then return .token (← document.require "token" asToken)
  if document.has "sig" then return .signature (← document.require "sig" asMethodSig)
  return .none

/-- An instruction: a mnemonic alone, or a record of mnemonic and operand. -/
def asInstruction (document : Document) : Work Instruction := do
  let mnemonic ← match document.text? with
    | some mnemonic => pure mnemonic
    | none => document.str "m"
  let opcode ← Work.demand (Opcode.ofMnemonic? mnemonic)
  return { opcode, operand := ← document.asOperand }

/-- A start and an end. -/
def asRange (document : Document) : Work (Nat × Nat) := do
  match document.items with
  | [first, last] => return (← asNat first.1, ← asNat last.1)
  | _ => throw .malformed

/-- An exception handler. The kinds stand for their flags: a handler that catches a type, and one
that runs however its block is left. -/
def asHandler (document : Document) : Work Handler := do
  let (tryStart, tryEnd) ← document.require "try" asRange
  let (handlerStart, handlerEnd) ← document.require "handler" asRange
  let catchType ← document.optional "catch" asTypeRef
  let filterStart ← document.optional "filter" asNat
  let flags ← document.uint16 "flags"
  let handler : Handler :=
    { flags, tryStart, tryEnd, handlerStart, handlerEnd, filterStart, catchType }
  match ← document.strD "kind" "" with
  | "catch" => return { handler with flags := Handler.catchFlags, filterStart := none }
  | "finally" =>
    return { handler with
      flags := Handler.finallyFlags, filterStart := none, catchType := none }
  | _ => return handler

/-- A method body. -/
def asBody (document : Document) : Work Body := do
  let body : Body := {
    maxStack := ← document.uint16 "max_stack"
    initLocals := document.isSet "init_locals"
    locals := ← document.every "locals" asTypeSig
    code := ← document.every "code" asInstruction
    handlers := ← document.every "handlers" asHandler }
  return body.withOffsets

end Graft.Document
