import Graft.Code.Instruction

/-!
# Method bodies

A body is a list of instructions with its local variables and exception handlers. Offsets are
byte positions from the start of the body; `withOffsets` gives every instruction the sum of the
sizes of those before it.
-/

namespace Graft

/-- An exception handler. Places are indices of instructions, and an end is the index after the
last instruction. -/
structure Handler where
  flags : UInt16
  tryStart : Nat
  tryEnd : Nat
  handlerStart : Nat
  handlerEnd : Nat
  filterStart : Option Nat
  catchType : Option TypeRef
  deriving Inhabited

namespace Handler

/-- The flags of a handler that catches exceptions of a type. -/
def catchFlags : UInt16 := 0

/-- The flags of a handler that runs however its block is left. -/
def finallyFlags : UInt16 := 2

/-- Whether all places of the handler lie in a body of `count` instructions. -/
def isWithin (handler : Handler) (count : Nat) : Bool :=
  handler.tryStart ≤ handler.tryEnd && handler.tryEnd ≤ count
    && handler.handlerStart ≤ handler.handlerEnd && handler.handlerEnd ≤ count
    && handler.filterStart.all (· < count)

end Handler

/-- The body of a method. -/
structure Body where
  maxStack : UInt16 := 0
  initLocals : Bool := false
  locals : List TypeSig := []
  code : List Instruction := []
  handlers : List Handler := []
  deriving Inhabited

/-- The instructions laid out from a byte offset on. -/
def Instruction.layOut (start : UInt32) : List Instruction → List Instruction
  | [] => []
  | instruction :: rest =>
    { instruction with offset := start }
      :: layOut (start + UInt32.ofNat instruction.size) rest

namespace Body

/-- The body with the offsets of its instructions computed. -/
def withOffsets (body : Body) : Body :=
  { body with code := Instruction.layOut 0 body.code }

/-- The body with an instruction put in before the one at `index`; offsets stay as they are. -/
def insert (body : Body) (index : Nat) (instruction : Instruction) : Body :=
  { body with code := body.code.take index ++ instruction :: body.code.drop index }

/-- The number of bytes of all instructions. -/
def codeSize (body : Body) : Nat :=
  body.code.foldr (fun instruction rest => instruction.size + rest) 0

/-- The byte offset of the instruction at `index`. The index after the last instruction has the
offset of the end; later ones have none. -/
def offsetOf? (body : Body) (index : Nat) : Option UInt32 :=
  match body.code[index]? with
  | some instruction => some instruction.offset
  | none => if index = body.code.length then some (UInt32.ofNat body.codeSize) else none

end Body

end Graft
