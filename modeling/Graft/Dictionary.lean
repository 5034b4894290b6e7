/-!
# Dictionaries

Keys with one value each, in the order in which the keys were first inserted. The view is `get?`;
`get?_insert` and `get?_erase` say what the operations do to it.
-/

namespace Graft

/-- Keys with their values, in order of insertion. -/
structure Dictionary (κ α : Type) where
  entries : List (κ × α) := []
  deriving Inhabited, DecidableEq

namespace Dictionary

variable {κ α : Type} [DecidableEq κ]

/-- The value of a key. -/
def get? (dictionary : Dictionary κ α) (key : κ) : Option α :=
  (dictionary.entries.find? (·.1 = key)).map (·.2)

/-- Whether a key has a value. -/
def has (dictionary : Dictionary κ α) (key : κ) : Bool :=
  (dictionary.get? key).isSome

/-- The number of keys. -/
def size (dictionary : Dictionary κ α) : Nat :=
  dictionary.entries.length

/-- The values, in the order of their keys. -/
def values (dictionary : Dictionary κ α) : List α :=
  dictionary.entries.map (·.2)

/-- The entries with the value of a key set; a new key comes last. -/
def put (key : κ) (value : α) : List (κ × α) → List (κ × α)
  | [] => [(key, value)]
  | entry :: rest => if entry.1 = key then (key, value) :: rest else entry :: put key value rest

/-- The dictionary with the value of a key set. A key that is there keeps its place. -/
def insert (dictionary : Dictionary κ α) (key : κ) (value : α) : Dictionary κ α :=
  ⟨put key value dictionary.entries⟩

/-- The dictionary without a key. -/
def erase (dictionary : Dictionary κ α) (key : κ) : Dictionary κ α :=
  ⟨dictionary.entries.filter (·.1 ≠ key)⟩

/-- Whatever is there after the value of a key was set was there before, or is that value. -/
theorem mem_of_mem_put {key : κ} {value : α} {entries : List (κ × α)} {entry : κ × α}
    (h : entry ∈ put key value entries) : entry ∈ entries ∨ entry = (key, value) := by
  induction entries with
  | nil => exact .inr (List.mem_singleton.mp h)
  | cons first rest ih =>
      rw [put] at h
      split at h
      · exact (List.mem_cons.mp h).symm.imp_left (List.mem_cons_of_mem _)
      · rcases List.mem_cons.mp h with rfl | h
        · exact .inl List.mem_cons_self
        · exact (ih h).imp_left (List.mem_cons_of_mem _)

/-- The value of a key is set behind entries that have other keys. -/
theorem put_append {key : κ} {value : α} {front rest : List (κ × α)}
    (h : ∀ entry ∈ front, entry.1 ≠ key) :
    put key value (front ++ rest) = front ++ put key value rest := by
  induction front with
  | nil => rfl
  | cons entry front ih =>
      obtain ⟨hentry, hfront⟩ := List.forall_mem_cons.mp h
      rw [List.cons_append, put, if_neg hentry, ih hfront, List.cons_append]

/-- A key that has a value is in an entry with it. -/
theorem mem_of_get? {dictionary : Dictionary κ α} {key : κ} {value : α}
    (h : dictionary.get? key = some value) : (key, value) ∈ dictionary.entries := by
  obtain ⟨entry, hfind, rfl⟩ := Option.map_eq_some_iff.mp h
  have hkey : entry.1 = key := by simpa using List.find?_some hfind
  exact hkey ▸ List.mem_of_find?_eq_some hfind

@[simp] theorem get?_insert (dictionary : Dictionary κ α) (key other : κ) (value : α) :
    (dictionary.insert key value).get? other =
      if key = other then some value else dictionary.get? other := by
  obtain ⟨entries⟩ := dictionary
  simp only [get?, insert]
  induction entries with
  | nil => by_cases h : key = other <;> simp [put, h]
  | cons entry rest ih =>
      by_cases h : entry.1 = key <;> by_cases ho : entry.1 = other <;>
        by_cases hk : key = other <;> simp_all [put]

/-- What is found once a value has been set is this value, or it was there before. -/
theorem of_get?_insert {dictionary : Dictionary κ α} {key other : κ} {value found : α}
    (h : (dictionary.insert key value).get? other = some found) :
    other = key ∧ found = value ∨ dictionary.get? other = some found := by
  rw [get?_insert] at h
  split at h
  · exact .inl ⟨Eq.symm ‹_›, (Option.some.inj h).symm⟩
  · exact .inr h

/-- Of two values set for one key the later one counts. -/
theorem insert_insert (dictionary : Dictionary κ α) (key : κ) (value value' : α) :
    (dictionary.insert key value).insert key value' = dictionary.insert key value' := by
  obtain ⟨entries⟩ := dictionary
  simp only [insert, mk.injEq]
  induction entries with
  | nil => simp [put]
  | cons entry rest ih => by_cases h : entry.1 = key <;> simp [put, h, ih]

@[simp] theorem get?_erase (dictionary : Dictionary κ α) (key other : κ) :
    (dictionary.erase key).get? other =
      if key = other then none else dictionary.get? other := by
  obtain ⟨entries⟩ := dictionary
  simp only [get?, erase]
  induction entries with
  | nil => simp
  | cons entry rest ih =>
      by_cases h : entry.1 = key <;> by_cases ho : entry.1 = other <;>
        by_cases hk : key = other <;> simp_all

end Dictionary

end Graft
