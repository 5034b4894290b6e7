/-!
# Tables of objects

Objects live in tables and are known by their row number. A number is never used again: when an
object is released its row stays empty, so an identity that outlives its object is recognised and
never leads to another one. The view of a table is `get?`; there is one law for every operation.
-/

namespace Graft

/-- Numbered objects, some of which may have been released. -/
structure Table (α : Type) where
  rows : Array (Option α) := #[]
  deriving Inhabited

namespace Table

variable {α : Type}

/-- The object with a number, unless it was released or never made. -/
def get? (table : Table α) (index : Nat) : Option α :=
  (table.rows[index]?).join

/-- Whether the object with a number exists. -/
def has (table : Table α) (index : Nat) : Bool :=
  (table.get? index).isSome

/-- The number that the next object gets. -/
def next (table : Table α) : Nat :=
  table.rows.size

/-- The table with one more object, under the number `next`. -/
def push (table : Table α) (object : α) : Table α :=
  ⟨table.rows.push (some object)⟩

/-- The table with one more number that leads to no object. -/
def skip (table : Table α) : Table α :=
  ⟨table.rows.push none⟩

/-- The table with the object under a number changed; a released object stays released. -/
def update (table : Table α) (index : Nat) (change : α → α) : Table α :=
  ⟨table.rows.modify index (Option.map change)⟩

/-- The table with the objects released whose number is not kept. -/
def retain (table : Table α) (keeps : Nat → Bool) : Table α :=
  ⟨table.rows.mapIdx fun index row => if keeps index then row else none⟩

@[simp] theorem get?_push (table : Table α) (object : α) (index : Nat) :
    (table.push object).get? index =
      if index = table.next then some object else table.get? index := by
  simp only [get?, push, next, Array.getElem?_push]
  by_cases h : index = table.rows.size <;> simp [h]

@[simp] theorem get?_skip (table : Table α) (index : Nat) :
    table.skip.get? index = table.get? index := by
  simp only [get?, skip, Array.getElem?_push]
  split
  · subst index; simp
  · rfl

@[simp] theorem get?_update (table : Table α) (index other : Nat) (change : α → α) :
    (table.update index change).get? other =
      if index = other then (table.get? other).map change else table.get? other := by
  simp only [get?, update, Array.getElem?_modify]
  split
  · cases h : table.rows[other]? with
    | none => rfl
    | some row => cases row <;> rfl
  · rfl

@[simp] theorem get?_retain (table : Table α) (keeps : Nat → Bool) (index : Nat) :
    (table.retain keeps).get? index = if keeps index then table.get? index else none := by
  simp only [get?, retain, Array.getElem?_mapIdx]
  cases h : table.rows[index]? with
  | none => simp
  | some row => by_cases hk : keeps index <;> simp [hk]

@[simp] theorem next_push (table : Table α) (object : α) :
    (table.push object).next = table.next + 1 := by
  simp [next, push]

@[simp] theorem next_update (table : Table α) (index : Nat) (change : α → α) :
    (table.update index change).next = table.next := by
  simp [next, update]

/-- Two changes one after the other are one. -/
theorem update_update (table : Table α) (index : Nat) (change change' : α → α) :
    (table.update index change).update index change' = table.update index (change' ∘ change) := by
  refine congrArg Table.mk (Array.ext_getElem? fun other => ?_)
  simp only [update, Array.getElem?_modify]
  split <;> simp

/-- A number that was not handed out yet leads nowhere. -/
theorem get?_eq_none_of_next_le (table : Table α) {index : Nat} (h : table.next ≤ index) :
    table.get? index = none := by
  simp [get?, Array.getElem?_eq_none (show table.rows.size ≤ index from h)]

/-- The number of an object that exists was handed out. -/
theorem lt_next_of_has {table : Table α} {index : Nat} (h : table.has index = true) :
    index < table.next := by
  refine Nat.lt_of_not_le fun hnext => ?_
  simp [has, table.get?_eq_none_of_next_le hnext] at h

end Table

end Graft
