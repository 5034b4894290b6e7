import Graft.Proofs.Signature.Normal

/-!
# Signature equality is equality of normal forms

A comparison takes out of a signature what it disregards and looks at what is left. The normal
form that is left is a normal form itself (`normal_normal`), so it stands for the whole class of
signatures that the comparison takes for one, and a signature belongs to a class exactly when its
normal form is of known shape throughout (`Comparison.byNormalForm`).
-/

namespace Graft

/-! ## A normal form is its own normal form -/

/-- Whether one comparison disregards all that another one does. -/
structure Comparison.Coarser (coarse options : Comparison) : Prop where
  scope : options.ignoreScope = true → coarse.ignoreScope = true
  modifiers : options.ignoreModifiers = true → coarse.ignoreModifiers = true
  result : options.ignoreResult = true → coarse.ignoreResult = true

theorem Comparison.Coarser.refl (options : Comparison) : options.Coarser options :=
  ⟨id, id, id⟩

/-- Overloads are told apart by less than what a declaration states. -/
theorem Comparison.overload_coarser : overload.Coarser declared :=
  ⟨fun _ => rfl, fun _ => rfl, fun _ => rfl⟩

section Normal

set_option linter.unusedSectionVars false

variable {names : TypeNames} {options coarse : Comparison} (h : coarse.Coarser options)

include h

theorem TypeRef.normal_of_normal_of_name (ref : TypeRef) (hname : ref.isConstructed = false) :
    (ref.normal names options).normal names coarse = ref.normal names coarse := by
  cases ref with
  | constructed => cases hname
  | definition | external | declared =>
      by_cases hscope : options.ignoreScope = true
      · simp [TypeRef.normal, hscope, h.scope hscope, ExternalType.fullName, Text.qualify]
      · simp [TypeRef.normal, hscope]

mutual

/-- Of what a comparison leaves over a coarser one leaves as much as of the whole. -/
theorem TypeRef.normal_of_normal (ref : TypeRef) :
    (ref.normal names options).normal names coarse = ref.normal names coarse := by
  cases ref with
  | constructed signature =>
      simp only [TypeRef.normal, TypeSig.normal_of_normal signature]
  | definition | external | declared => exact TypeRef.normal_of_normal_of_name h _ rfl
termination_by structural ref

theorem TypeSig.normal_of_normal (signature : TypeSig) :
    (signature.normal names options).normal names coarse = signature.normal names coarse := by
  cases signature with
  | unknown | sentinel | primitive | genericVar => simp only [TypeSig.normal]
  | classType type | valueType type => simp only [TypeSig.normal, TypeRef.normal_of_normal type]
  | function signature => simp only [TypeSig.normal, MethodSig.normal_of_normal signature]
  | applied generic args =>
      simp only [TypeSig.normal, TypeSig.normal_of_normal generic,
        TypeSig.normalList_of_normalList args]
  | pointer inner | byRef inner | vector inner | pinned inner | array inner shape
  | inModule index inner => simp only [TypeSig.normal, TypeSig.normal_of_normal inner]
  | required modifier inner | optional modifier inner =>
      have hmodifier := TypeRef.normal_of_normal modifier
      have hinner := TypeSig.normal_of_normal inner
      by_cases hignored : options.ignoreModifiers = true
      · simp only [TypeSig.normal, hignored, h.modifiers hignored, if_true, hinner]
      · simp only [TypeSig.normal, hignored, if_neg, Bool.false_eq_true, not_false_eq_true, hinner,
          hmodifier]
termination_by structural signature

theorem MethodSig.normal_of_normal (signature : MethodSig) :
    (signature.normal names options).normal names coarse = signature.normal names coarse := by
  obtain ⟨callConv, genericCount, result, params, varargs⟩ := signature
  have hresult := TypeSig.normal_of_normal result
  simp only [MethodSig.normal, TypeSig.normalList_of_normalList params,
    TypeSig.normalList_of_normalList varargs]
  by_cases hignored : options.ignoreResult = true
  · simp [h.result hignored]
  · simp [hignored, hresult]
termination_by structural signature

theorem TypeSig.normalList_of_normalList (signatures : List TypeSig) :
    TypeSig.normalList names coarse (TypeSig.normalList names options signatures) =
      TypeSig.normalList names coarse signatures := by
  cases signatures with
  | nil => simp only [TypeSig.normalList]
  | cons signature rest =>
      simp only [TypeSig.normalList, TypeSig.normal_of_normal signature,
        TypeSig.normalList_of_normalList rest]
termination_by structural signatures

end

/-- Signatures of methods that a comparison takes for one are one for every coarser comparison. -/
theorem MethodSig.same_of_coarser {left right : MethodSig}
    (hsame : left.same names options right = true) : left.same names coarse right = true := by
  obtain ⟨hnormal, hknown⟩ := (left.same_iff right).mp hsame
  refine (left.same_iff right).mpr ⟨?_, fun hmem => hknown ?_⟩
  · rw [← left.normal_of_normal h, hnormal, right.normal_of_normal h]
  · rw [← left.normal_of_normal h] at hmem
    exact MethodSig.unknown_of_normal _ hmem

omit h

theorem TypeSig.normal_normal (signature : TypeSig) :
    (signature.normal names options).normal names options = signature.normal names options :=
  signature.normal_of_normal (.refl options)

theorem MethodSig.normal_normal (signature : MethodSig) :
    (signature.normal names options).normal names options = signature.normal names options :=
  signature.normal_of_normal (.refl options)

theorem PropertySig.normal_normal (signature : PropertySig) :
    (signature.normal names options).normal names options = signature.normal names options := by
  simp [PropertySig.normal, TypeSig.normal_normal,
    TypeSig.normalList_of_normalList (Comparison.Coarser.refl options)]

end Normal

/-! ## Comparisons by normal form -/

section ByNormalForm

variable {α : Type} {same : α → α → Bool} {normal : α → α} {targets : α → List Target}

/-- A comparison of signatures that equality of normal forms decides. What is of unknown shape in
a position that counts is equal to nothing, itself included. -/
structure ByNormalForm (same : α → α → Bool) (normal : α → α) (targets : α → List Target) :
    Prop where
  same_iff : ∀ left right,
    same left right = true ↔ normal left = normal right ∧ .unknown ∉ targets (normal left)
  normal_normal : ∀ signature, normal (normal signature) = normal signature
  symm : ∀ left right, same left right = true → same right left = true
  trans : ∀ left middle right,
    same left middle = true → same middle right = true → same left right = true
  refl_iff : ∀ signature, same signature signature = true ↔ .unknown ∉ targets (normal signature)

/-- Equality, where it holds, carries the known shape of one side over to the other; that is why
the comparison is symmetric although it speaks of its left side only. -/
theorem ByNormalForm.of_same_iff
    (hiff : ∀ left right,
      same left right = true ↔ normal left = normal right ∧ .unknown ∉ targets (normal left))
    (hnormal : ∀ signature, normal (normal signature) = normal signature) :
    ByNormalForm same normal targets where
  same_iff := hiff
  normal_normal := hnormal
  symm left right h := by
    obtain ⟨heq, hknown⟩ := (hiff left right).mp h
    exact (hiff right left).mpr ⟨heq.symm, heq ▸ hknown⟩
  trans left middle right hleft hright := by
    obtain ⟨heq, hknown⟩ := (hiff left middle).mp hleft
    obtain ⟨heq', -⟩ := (hiff middle right).mp hright
    exact (hiff left right).mpr ⟨heq.trans heq', hknown⟩
  refl_iff signature := by
    rw [hiff signature signature]
    exact and_iff_right rfl

end ByNormalForm

/-- Under all options, signatures of types and of fields (which are signatures of types), of
methods and of properties are the same exactly when they have one normal form and nothing in it
is of unknown shape. Each comparison is symmetric and transitive, and reflexive exactly on what is
of known shape wherever it looks. -/
theorem Comparison.byNormalForm (names : TypeNames) (options : Comparison) :
    ByNormalForm (TypeSig.same names options) (TypeSig.normal names options) TypeSig.targets ∧
      ByNormalForm (MethodSig.same names options) (MethodSig.normal names options)
        MethodSig.targets ∧
      ByNormalForm (PropertySig.same names options) (PropertySig.normal names options)
        PropertySig.targets := by
  refine ⟨?types, ?methods, ?properties⟩
  case types => exact .of_same_iff TypeSig.same_iff TypeSig.normal_normal
  case methods => exact .of_same_iff MethodSig.same_iff MethodSig.normal_normal
  case properties => exact .of_same_iff PropertySig.same_iff PropertySig.normal_normal

/-- Two results that differ do not tell overloads apart, parameters under a modifier neither. -/
example (names : TypeNames) :
    MethodSig.same names .overload ⟨0, 0, .primitive .void, [.primitive .int32], []⟩
      ⟨0, 0, .primitive .int32, [.optional (.external (.topLevel "" "N" "M")) (.primitive .int32)],
        []⟩ = true :=
  rfl

end Graft
