/-!
# Documents

The form in which values are exchanged with other programs: truth values, whole numbers, texts,
lists, and records of named fields. A part of a document is smaller than the whole
(`Document.Part`), so whatever follows the parts of a document comes to an end.
-/

namespace Graft

/-- A value as other programs see it. -/
inductive Document where
  | nothing
  | flag (value : Bool)
  | number (value : Int)
  | text (value : String)
  | list (items : List Document)
  | record (fields : List (String × Document))
  deriving Inhabited

namespace Document

/-! ## Writing -/

/-- A natural number. -/
def ofNat (n : Nat) : Document :=
  number n

/-- A word of 32 bits, as the number it stands for without a sign. -/
def ofUInt32 (word : UInt32) : Document :=
  number word.toNat

instance : Coe Bool Document := ⟨flag⟩

instance : Coe String Document := ⟨text⟩

instance : Coe Nat Document := ⟨ofNat⟩

instance : Coe UInt8 Document := ⟨fun word => number word.toNat⟩

instance : Coe UInt16 Document := ⟨fun word => number word.toNat⟩

instance : Coe UInt32 Document := ⟨ofUInt32⟩

/-- What is written for a value that may be missing. -/
def ofOption {α : Type} (write : α → Document) (value : Option α) : Document :=
  value.elim nothing write

/-- What is written for each of several values. -/
def ofList {α : Type} (write : α → Document) (values : List α) : Document :=
  list (values.map write)

/-- The words of a list. -/
def ofWords (words : List String) : Document :=
  ofList text words

/-! ## Parts -/

/-- A part of a document, with the reason why it is smaller. -/
abbrev Part (whole : Document) := { part : Document // sizeOf part < sizeOf whole }

/-- The value of a field is smaller than the record. -/
theorem sizeOf_lt_record {name : String} {part : Document} {fields : List (String × Document)}
    (h : (name, part) ∈ fields) : sizeOf part < sizeOf (record fields) := by
  have := List.sizeOf_lt_of_mem h
  simp only [Prod.mk.sizeOf_spec, record.sizeOf_spec] at *
  omega

/-- An item is smaller than the list. -/
theorem sizeOf_lt_list {item : Document} {items : List Document} (h : item ∈ items) :
    sizeOf item < sizeOf (list items) := by
  have := List.sizeOf_lt_of_mem h
  simp only [list.sizeOf_spec]
  omega

/-- The text, if the document is one. -/
def text? : Document → Option String
  | text value => some value
  | _ => none

/-- Whether there is something. -/
def isSomething : Document → Bool
  | nothing => false
  | _ => true

/-- The value of a field of a record. A field that holds nothing is as good as missing. -/
def field? (document : Document) (name : String) : Option (Part document) :=
  match document with
  | record fields =>
    (fields.attach.find? fun entry => entry.1.1 == name && entry.1.2.isSomething).map fun entry =>
      ⟨entry.1.2, sizeOf_lt_record entry.2⟩
  | _ => none

/-- The items of a list. -/
def items (document : Document) : List (Part document) :=
  match document with
  | list items => items.attach.map fun item => ⟨item.1, sizeOf_lt_list item.2⟩
  | _ => []

/-- The items of the list in a field; a missing field is an empty list. -/
def itemsOf (document : Document) (name : String) : List (Part document) :=
  (document.field? name).elim [] fun whole =>
    whole.1.items.map fun item => ⟨item.1, Nat.lt_trans item.2 whole.2⟩

/-- Whether a field is there. -/
def has (document : Document) (name : String) : Bool :=
  (document.field? name).isSome

end Document

end Graft
