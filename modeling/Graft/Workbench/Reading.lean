import Graft.Document.Basic
import Graft.Workbench.Basic

/-!
# Reading documents

The values of a document's fields, read in whatever way the field asks for. A whole number may be
written as a decimal text, and a missing number is zero.
-/

namespace Graft.Document

/-- A text. -/
def asText : Document → Work String
  | text value => return value
  | _ => throw .malformed

/-- A whole number. -/
def asInt : Document → Work Int
  | number value => return value
  | text digits => Work.demand digits.toInt?
  | _ => throw .malformed

/-- A natural number. -/
def asNat (document : Document) : Work Nat := do
  return (← asInt document).toNat

/-- A word of 32 bits. -/
def asUInt32 (document : Document) : Work UInt32 := do
  return .ofNat (← asNat document)

/-- A truth value; whatever is not one counts as false. -/
def asFlag : Document → Bool
  | flag value => value
  | _ => false

/-! ## Fields -/

/-- The document in a field that has to be there. -/
def part (document : Document) (name : String) : Work (Part document) :=
  Work.demand (document.field? name)

/-- The value of a field that has to be there. -/
def require {α : Type} (document : Document) (name : String) (read : Document → Work α) :
    Work α := do
  read (← document.part name).1

/-- The value of a field that may be missing. -/
def optional {α : Type} (document : Document) (name : String) (read : Document → Work α) :
    Work (Option α) :=
  (document.field? name).mapM fun part => read part.1

/-- The values in the list of a field; a missing field is an empty list. -/
def every {α : Type} (document : Document) (name : String) (read : Document → Work α) :
    Work (List α) :=
  (document.itemsOf name).mapM fun part => read part.1

/-- The text of a field. -/
def str (document : Document) (name : String) : Work String :=
  document.require name asText

/-- The text of a field, or what stands for a missing one. -/
def strD (document : Document) (name fallback : String) : Work String := do
  return (← document.optional name asText).getD fallback

/-- What the name in a field stands for. -/
def named {α : Type} (document : Document) (name : String) (find : String → Work α) :
    Work α := do
  find (← document.str name)

/-- What the name in a field stands for, if there is one. -/
def named? {α : Type} (document : Document) (name : String) (find : String → Work α) :
    Work (Option α) := do
  (← document.optional name asText).mapM find

/-- The one of several values whose own word is in a field. -/
def oneOf {α : Type} (document : Document) (name : String) (word : α → String)
    (values : List α) : Work α := do
  let wanted ← document.str name
  Work.demand (values.find? (word · == wanted))

/-- Whether a field says so; a missing field says no. -/
def isSet (document : Document) (name : String) : Bool :=
  (document.field? name).any fun part => asFlag part.1

/-- The whole number of a field. -/
def int (document : Document) (name : String) : Work Int := do
  return (← document.optional name asInt).getD 0

/-- The natural number of a field. -/
def nat (document : Document) (name : String) : Work Nat := do
  return (← document.int name).toNat

/-- The byte of a field. -/
def uint8 (document : Document) (name : String) : Work UInt8 := do
  return .ofNat (← document.nat name)

/-- The word of 16 bits of a field. -/
def uint16 (document : Document) (name : String) : Work UInt16 := do
  return .ofNat (← document.nat name)

/-- The word of 32 bits of a field. -/
def uint32 (document : Document) (name : String) : Work UInt32 := do
  return .ofNat (← document.nat name)

/-- The policy of a declaration. -/
def policy (document : Document) : Work Policy :=
  document.oneOf "kind" Policy.word Policy.all

/-- The part that an accessor plays. -/
def role (document : Document) : Work AccessorRole :=
  document.oneOf "role" AccessorRole.word AccessorRole.all

end Graft.Document
