import Graft.Code.Immediate
import Graft.Code.Opcode
import Graft.Signature.Text
import Graft.Text.Quoted
import Graft.Token

/-!
# Instructions

An instruction is an opcode with its operand and its byte offset in the body. Operands are
symbolic: a branch names the index of an instruction, a call names a method.
-/

namespace Graft

/-- The operand of an instruction. -/
inductive Operand where
  | none
  | immediate (value : Immediate)
  | text (value : String)
  /-- The index of the instruction that a branch goes to. -/
  | target (index : Nat)
  /-- The indices of the instructions that a jump table goes to. -/
  | switch (targets : List Nat)
  | localVar (index : UInt16)
  | argument (index : UInt16)
  | type (ref : TypeRef)
  | field (ref : FieldRef)
  | method (ref : MethodRef)
  | token (value : Token)
  | signature (value : MethodSig)
  deriving Inhabited

/-- An instruction at its byte offset. -/
structure Instruction where
  offset : UInt32 := 0
  opcode : Opcode
  operand : Operand := .none
  deriving Inhabited

namespace Instruction

/-- The number of bytes of the operand. A jump table has a count and four bytes for every target;
all other operands have the size that the opcode says, whatever they hold. -/
def operandSize (instruction : Instruction) : Nat :=
  match instruction.opcode.operand, instruction.operand with
  | .switch, .switch targets => 4 + 4 * targets.length
  | .switch, _ => 4
  | kind, _ => kind.size?.getD 0

/-- The number of bytes of the instruction. -/
def size (instruction : Instruction) : Nat :=
  instruction.opcode.size + instruction.operandSize

/-- Every instruction has at least one byte. -/
theorem size_pos (instruction : Instruction) : 0 < instruction.size := by
  have : 0 < instruction.opcode.size := by
    unfold Opcode.size
    split <;> omega
  unfold size
  omega

end Instruction

/-- The names that the text of an instruction depends on. -/
structure OperandNames where
  types : TypeNames
  field : FieldRef → String
  method : MethodRef → String

/-- The text of an operand after a space, or nothing if there is none. -/
def Operand.listing (names : OperandNames) : Operand → String
  | .none => ""
  | .immediate value => " 0x" ++ value.hex
  | .text value => " " ++ Text.quoted value
  | .target index => " #" ++ toString index
  | .switch targets => " [" ++ commaSeparated (targets.map toString) ++ "]"
  | .localVar index => " V_" ++ toString index.toNat
  | .argument index => " A_" ++ toString index.toNat
  | .type ref => " " ++ ref.fullName names.types
  | .field ref => " " ++ names.field ref
  | .method ref => " " ++ names.method ref
  | .token value => " " ++ value.text
  | .signature value => " " ++ value.text names.types

/-- The listing line of an instruction: offset, mnemonic and operand. -/
def Instruction.line (names : OperandNames) (instruction : Instruction) : String :=
  "IL_" ++ Text.upperHex 4 instruction.offset.toNat ++ ": " ++ instruction.opcode.mnemonic
    ++ instruction.operand.listing names

end Graft
