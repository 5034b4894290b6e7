/-!
# Opcodes

The instructions of the intermediate language: how each is encoded, what kind of operand follows
it and where control goes after it. Opcodes with two bytes start with the byte `0xFE`.
-/

namespace Graft

/-- What follows an opcode in the encoding. -/
inductive OperandKind where
  | none | int8 | uint8 | int16 | uint16 | int32 | uint32 | int64 | uint64 | float32 | float64
  | token | switch
  deriving DecidableEq, Repr, Inhabited

namespace OperandKind

/-- The name of an operand kind. -/
def name : OperandKind → String
  | none => "None"
  | int8 => "Int8"
  | uint8 => "UInt8"
  | int16 => "Int16"
  | uint16 => "UInt16"
  | int32 => "Int32"
  | uint32 => "UInt32"
  | int64 => "Int64"
  | uint64 => "UInt64"
  | float32 => "Float32"
  | float64 => "Float64"
  | token => "Token"
  | switch => "Switch"

/-- Every operand kind. -/
def all : List OperandKind :=
  [none, int8, uint8, int16, uint16, int32, uint32, int64, uint64, float32, float64, token,
   switch]

/-- The number of bytes of an operand; a jump table has no fixed number. -/
def size? : OperandKind → Option Nat
  | none => some 0
  | int8 | uint8 => some 1
  | int16 | uint16 => some 2
  | int32 | uint32 | float32 | token => some 4
  | int64 | uint64 | float64 => some 8
  | switch => Option.none

end OperandKind

/-- Where control goes after an instruction. -/
inductive FlowKind where
  | sequential | conditionalBranch | unconditionalBranch | call | returning | switch | throwing
  | endFinally | leave
  deriving DecidableEq, Repr, Inhabited

namespace FlowKind

/-- The name of a flow kind. -/
def name : FlowKind → String
  | sequential => "Sequential"
  | conditionalBranch => "ConditionalBranch"
  | unconditionalBranch => "UnconditionalBranch"
  | call => "Call"
  | returning => "Return"
  | switch => "Switch"
  | throwing => "Throw"
  | endFinally => "EndFinally"
  | leave => "Leave"

/-- Whether control may go to a place that the operand names. -/
def isBranch : FlowKind → Bool
  | conditionalBranch | unconditionalBranch | switch | leave => true
  | _ => false

/-- Whether a straight run of instructions ends here. -/
def isTerminal : FlowKind → Bool
  | conditionalBranch | unconditionalBranch | returning | switch | throwing | leave => true
  | _ => false

end FlowKind

/-- An opcode: the byte that selects the table, the byte in that table, the mnemonic, the kind of
the operand and the flow of control. -/
structure Opcode where
  page : UInt8
  value : UInt8
  mnemonic : String
  operand : OperandKind
  flow : FlowKind
  deriving DecidableEq, Repr, Inhabited

namespace Opcode

/-- The number of bytes of the opcode itself. -/
def size (opcode : Opcode) : Nat :=
  if opcode.page = 0 then 1 else 2

end Opcode

end Graft
