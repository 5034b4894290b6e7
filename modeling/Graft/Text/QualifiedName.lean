/-!
# Qualified names

The full name of a top-level type is its namespace, a dot and its name; without a namespace it is
the name alone. Splitting cuts at the last dot: there is none in the part after the cut
(`splitLast_append`, `splitLast_eq_some`). So a full name is cut where it was joined if the name
holds no dot, and only then (`unqualify_qualify_iff`).
-/

namespace Graft.Text

/-- The namespace and the name joined by a dot; an empty namespace adds nothing. -/
def qualify (namespaceName name : String) : String :=
  if namespaceName.isEmpty then name else namespaceName ++ "." ++ name

/-- What stands before and after the last `separator`, if there is one. -/
def splitLast (separator : Char) : List Char → Option (List Char × List Char)
  | [] => none
  | c :: rest =>
    match splitLast separator rest with
    | some (front, back) => some (c :: front, back)
    | none => if c = separator then some ([], rest) else none

/-- Cuts a full name at its last dot into namespace and name; without a dot the namespace is
empty. -/
def unqualify (fullName : String) : String × String :=
  match splitLast '.' fullName.toList with
  | some (front, back) => (String.ofList front, String.ofList back)
  | none => ("", fullName)

/-- There is no cut exactly when the separator does not occur. -/
theorem splitLast_eq_none_iff (separator : Char) (text : List Char) :
    splitLast separator text = none ↔ separator ∉ text := by
  induction text with
  | nil => simp [splitLast]
  | cons c rest ih =>
      simp only [splitLast]
      cases hrest : splitLast separator rest with
      | some cut =>
          have : separator ∈ rest := by
            apply Classical.byContradiction
            intro habsent
            simp [ih.mpr habsent] at hrest
          simp [this]
      | none =>
          have habsent := ih.mp hrest
          by_cases hc : c = separator <;> simp [hc, habsent]
          exact fun h => hc h.symm

/-- Joining at a separator and cutting at the last one gives the parts back when the part after
the join holds no separator. -/
theorem splitLast_append (separator : Char) (front back : List Char) (habsent : separator ∉ back) :
    splitLast separator (front ++ separator :: back) = some (front, back) := by
  induction front with
  | nil => simp [splitLast, (splitLast_eq_none_iff separator back).mpr habsent]
  | cons c front ih => simp [splitLast, ih]

/-- What a cut gives are the two sides of a separator after which there is no other one. -/
theorem splitLast_eq_some {separator : Char} {text front back : List Char}
    (h : splitLast separator text = some (front, back)) :
    text = front ++ separator :: back ∧ separator ∉ back := by
  induction text generalizing front with
  | nil => cases h
  | cons c rest ih =>
      simp only [splitLast] at h
      split at h
      · rename_i hrest
        cases h
        simpa using ih hrest
      · rename_i hrest
        obtain ⟨rfl, heq⟩ := Option.ite_none_right_eq_some.mp h
        cases heq
        exact ⟨rfl, (splitLast_eq_none_iff ..).mp hrest⟩

/-- Cutting a full name gives back the namespace and the name that it was joined from exactly when
there is no dot in the name. -/
theorem unqualify_qualify_iff (namespaceName name : String) :
    unqualify (qualify namespaceName name) = (namespaceName, name) ↔ '.' ∉ name.toList := by
  refine ⟨fun h => ?_, fun habsent => ?_⟩
  · unfold unqualify at h
    split at h
    · rename_i hcut
      obtain ⟨-, rfl⟩ := Prod.mk.inj h
      simpa using (splitLast_eq_some hcut).2
    · rename_i hnone
      obtain ⟨rfl, -⟩ := Prod.mk.inj h
      simpa [qualify] using (splitLast_eq_none_iff ..).mp hnone
  · by_cases hempty : namespaceName = ""
    · simp [unqualify, qualify, hempty, (splitLast_eq_none_iff ..).mpr habsent]
    · have hcut : splitLast '.' (namespaceName.toList ++ '.' :: name.toList) =
          some (namespaceName.toList, name.toList) := splitLast_append _ _ _ habsent
      simp [unqualify, qualify, hempty, hcut]

example : unqualify (qualify "N" "std.vector") = ("N.std", "vector") := by decide +kernel

end Graft.Text
