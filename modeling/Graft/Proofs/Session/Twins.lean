import Graft.Proofs.Session.Sound

/-!
# Twins

What is made in a session gets an identity that depends on what was made before it. Of two moments
at which the same has been resolved, in whatever order, `twin` leads from the definitions of the one
to those of the other. It leaves alone what was there before, and leads back again
(`Parallel.twin_twin`).
-/

namespace Graft.Moment

variable {state : SessionState} {left right : Moment} {declaration : Declaration}
  {definition found other : Definition}

/-- What corresponds at another moment to a definition: for what was made for a declaration it is
what that declaration stands for there. -/
def twin (left right : Moment) (definition : Definition) : Definition :=
  match left.made.find? (·.2 = definition) with
  | some (declaration, _) => (right.answer declaration).getD definition
  | none => definition

/-- Whether a definition was there before, or stands for a declaration that is known at both
moments. -/
def Shared (state : SessionState) (left right : Moment) (definition : Definition) : Prop :=
  state.world.defs.Issued definition ∨
    ∃ declaration found, left.answer declaration = some definition ∧
      right.answer declaration = some found

/-- Whether two moments have come out of the same state: at the first one all that is new was made
for one declaration each, and what was not made is the same at both. -/
structure Parallel (state : SessionState) (left right : Moment) : Prop where
  soundLeft : left.Sound
  soundRight : right.Sound
  growsLeft : state.world.defs.Grows left.defs
  growsRight : state.world.defs.Grows right.defs
  new : ∀ declaration definition, (declaration, definition) ∈ left.made →
    ¬ state.world.defs.Issued definition
  single : ∀ declaration other definition, (declaration, definition) ∈ left.made →
    (other, definition) ∈ left.made → declaration = other
  known : ∀ declaration definition found, left.answer declaration = some definition →
    right.answer declaration = some found → (declaration, definition) ∈ left.made ∨
      definition = found ∧ state.world.defs.Issued definition

section Parallel

variable (h : Parallel state left right) (h' : Parallel state right left)

include h

theorem Parallel.twin_of_issued (hissued : state.world.defs.Issued definition) :
    left.twin right definition = definition := by
  have hnone : left.made.find? (·.2 = definition) = none := by
    refine List.find?_eq_none.mpr fun entry hmem heq => ?_
    obtain rfl := of_decide_eq_true heq
    exact h.new _ _ hmem hissued
  rw [twin, hnone]

theorem Parallel.twin_of_made (hmade : (declaration, definition) ∈ left.made)
    (hanswer : right.answer declaration = some found) : left.twin right definition = found := by
  obtain ⟨⟨other, _⟩, hfind⟩ : ∃ entry, left.made.find? (·.2 = definition) = some entry := by
    rw [← Option.isSome_iff_exists, List.find?_isSome]
    exact ⟨_, hmade, decide_eq_true rfl⟩
  have hsame := List.find?_some hfind
  obtain rfl := of_decide_eq_true hsame
  cases h.single _ _ _ hmade (List.mem_of_find?_eq_some hfind)
  simp [twin, hfind, hanswer]

/-- What a declaration stands for corresponds to what it stands for at the other moment. -/
theorem Parallel.twin_answer (hanswer : left.answer declaration = some definition)
    (hanswer' : right.answer declaration = some found) : left.twin right definition = found := by
  obtain hmade | ⟨rfl, hissued⟩ := h.known _ _ _ hanswer hanswer'
  · exact h.twin_of_made hmade hanswer'
  · exact h.twin_of_issued hissued

theorem Parallel.kind_twin (hshared : Shared state left right definition) :
    (left.twin right definition).kind = definition.kind := by
  obtain hissued | ⟨declaration, found, hanswer, hanswer'⟩ := hshared
  · rw [h.twin_of_issued hissued]
  · rw [h.twin_answer hanswer hanswer', h.soundRight.kinds _ _ hanswer',
      h.soundLeft.kinds _ _ hanswer]

/-- The twin of what exists exists. -/
theorem Parallel.has_twin (hshared : Shared state left right definition)
    (hhas : left.defs.has definition = true) :
    right.defs.has (left.twin right definition) = true := by
  obtain hissued | ⟨declaration, found, hanswer, hanswer'⟩ := hshared
  · rw [h.twin_of_issued hissued]
    exact h.growsRight.has (h.growsLeft.has_of_issued hissued hhas)
  · rw [h.twin_answer hanswer hanswer']
    exact h.soundRight.has_answer hanswer'

include h'

/-- The twin of a twin is what one started from. -/
theorem Parallel.twin_twin (hshared : Shared state left right definition) :
    right.twin left (left.twin right definition) = definition := by
  obtain hissued | ⟨declaration, found, hanswer, hanswer'⟩ := hshared
  · rw [h.twin_of_issued hissued, h'.twin_of_issued hissued]
  · rw [h.twin_answer hanswer hanswer', h'.twin_answer hanswer' hanswer]

/-- Different definitions have different twins. -/
theorem Parallel.twin_injective (hshared : Shared state left right definition)
    (hshared' : Shared state left right other)
    (heq : left.twin right definition = left.twin right other) : definition = other := by
  have hback := congrArg (right.twin left) heq
  rwa [h.twin_twin h' hshared, h.twin_twin h' hshared'] at hback

end Parallel

end Graft.Moment
