import Graft.Code.Body
import Graft.Document.Signature

/-!
# Documents of method bodies

How opcodes, instructions and bodies look to other programs. Numbers of 64 bits are written as
decimal texts, since not every program reads them as numbers.
-/

namespace Graft.Document

/-- An opcode. -/
def ofOpcode (opcode : Opcode) : Document :=
  record [("prefix", opcode.page), ("value", opcode.value), ("mnemonic", opcode.mnemonic),
    ("operand", opcode.operand.name), ("flow", opcode.flow.name), ("size", opcode.size)]

/-- A number in the code. -/
def ofImmediate : Immediate → Document
  | .int8 value => record [("i8", number value.toInt)]
  | .uint8 value => record [("u8", value)]
  | .int16 value => record [("i16", number value.toInt)]
  | .uint16 value => record [("u16", value)]
  | .int32 value => record [("i32", number value.toInt)]
  | .uint32 value => record [("u32", value)]
  | .int64 value => record [("i64", toString value.toInt)]
  | .uint64 value => record [("u64", toString value.toNat)]
  | .float32 bits => record [("f32", bits)]
  | .float64 bits => record [("f64", toString bits.toNat)]

variable (world : World)

/-- An operand, as a field of its instruction. -/
def operandFields : Operand → List (String × Document)
  | .none => []
  | .immediate value => [("imm", ofImmediate value)]
  | .text value => [("str", value)]
  | .target index => [("target", index)]
  | .switch targets => [("switch", ofList ofNat targets)]
  | .localVar index => [("local", index)]
  | .argument index => [("arg", index)]
  | .type ref => [("type", ofTypeRef world ref)]
  | .field ref => [("field", ofFieldRef world ref)]
  | .method ref => [("method", ofMethodRef world ref)]
  | .token value => [("token", ofToken value)]
  | .signature value => [("sig", ofMethodSig world value)]

/-- An instruction. -/
def ofInstruction (instruction : Instruction) : Document :=
  record ([("m", text instruction.opcode.mnemonic), ("off", instruction.offset)]
    ++ operandFields world instruction.operand)

/-- An exception handler. -/
def ofHandler (handler : Handler) : Document :=
  record [("flags", handler.flags), ("try", list [handler.tryStart, handler.tryEnd]),
    ("handler", list [handler.handlerStart, handler.handlerEnd]),
    ("filter", ofOption ofNat handler.filterStart),
    ("catch", ofOption (ofTypeRef world) handler.catchType)]

/-- A method body. -/
def ofBody (body : Body) : Document :=
  record [("max_stack", body.maxStack), ("init_locals", body.initLocals),
    ("locals", ofList (ofTypeSig world) body.locals),
    ("code", ofList (ofInstruction world) body.code),
    ("handlers", ofList (ofHandler world) body.handlers)]

end Graft.Document
