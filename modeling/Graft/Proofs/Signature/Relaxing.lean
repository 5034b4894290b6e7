import Graft.Proofs.Signature.Equality

/-!
# Relaxing a comparison only adds equalities

A comparison that disregards more may take a modifier off that another one compares, or compare a
name where the other one compares what is named. It never tells apart what the other one takes for
one: of what a comparison leaves, a coarser one sees as much as of the whole (`same_of_coarser`).
So it is enough that the options of one comparison are among those of the other
(`Comparison.relaxes_within`).
-/

namespace Graft

namespace Comparison

variable {options coarse : Comparison}

/-- Whether all options of one comparison are set in another one. -/
def Within (options coarse : Comparison) : Prop :=
  options.bits &&& coarse.bits = options.bits

instance : Decidable (options.Within coarse) :=
  inferInstanceAs (Decidable (_ = _))

theorem Within.ne_zero (h : options.Within coarse) (mask : UInt32)
    (hset : options.bits &&& mask ≠ 0) : coarse.bits &&& mask ≠ 0 := by
  intro hclear
  apply hset
  rw [← h, UInt32.and_assoc, hclear, UInt32.and_zero]

theorem Within.coarser (h : options.Within coarse) : coarse.Coarser options where
  scope hset := decide_eq_true (h.ne_zero 1 (of_decide_eq_true hset))
  modifiers hset := decide_eq_true (h.ne_zero 2 (of_decide_eq_true hset))
  result hset := decide_eq_true (h.ne_zero 4 (of_decide_eq_true hset))

end Comparison

/-- Two comparisons by normal form, where the second one sees of what the first one leaves as much
as of the whole: it takes for one whatever the first one takes for one. -/
theorem ByNormalForm.relax {α : Type} {same same' : α → α → Bool} {normal normal' : α → α}
    {targets : α → List Target} (h : ByNormalForm same normal targets)
    (h' : ByNormalForm same' normal' targets)
    (hnormal : ∀ signature, normal' (normal signature) = normal' signature)
    (hknown : ∀ signature, .unknown ∈ targets (normal' signature) → .unknown ∈ targets signature)
    {left right : α} (hsame : same left right = true) : same' left right = true := by
  obtain ⟨heq, hleft⟩ := (h.same_iff left right).mp hsame
  refine (h'.same_iff left right).mpr ⟨?_, fun hmem => hleft (hknown _ ?_)⟩
  · rw [← hnormal left, heq, hnormal right]
  · rwa [hnormal left]

section Coarser

variable {names : TypeNames} {options coarse : Comparison} (h : coarse.Coarser options)

include h

theorem TypeRef.same_of_coarser {left right : TypeRef}
    (hsame : left.same names options right = true) : left.same names coarse right = true :=
  ByNormalForm.relax (.of_same_iff TypeRef.same_iff fun ref => ref.normal_of_normal (.refl options))
    (.of_same_iff TypeRef.same_iff fun ref => ref.normal_of_normal (.refl coarse))
    (TypeRef.normal_of_normal h) TypeRef.unknown_of_normal hsame

theorem TypeSig.same_of_coarser {left right : TypeSig}
    (hsame : left.same names options right = true) : left.same names coarse right = true :=
  ByNormalForm.relax (.of_same_iff TypeSig.same_iff TypeSig.normal_normal)
    (.of_same_iff TypeSig.same_iff TypeSig.normal_normal)
    (TypeSig.normal_of_normal h) TypeSig.unknown_of_normal hsame

theorem TypeSig.sameList_of_coarser {lefts rights : List TypeSig}
    (hsame : TypeSig.sameList names options lefts rights = true) :
    TypeSig.sameList names coarse lefts rights = true :=
  ByNormalForm.relax
    (.of_same_iff TypeSig.sameList_iff (TypeSig.normalList_of_normalList (.refl options)))
    (.of_same_iff TypeSig.sameList_iff (TypeSig.normalList_of_normalList (.refl coarse)))
    (TypeSig.normalList_of_normalList h) TypeSig.unknown_of_normalList hsame

theorem PropertySig.same_of_coarser {left right : PropertySig}
    (hsame : left.same names options right = true) : left.same names coarse right = true := by
  simp only [PropertySig.same, Bool.and_eq_true] at hsame ⊢
  obtain ⟨⟨hthis, htype⟩, hparams⟩ := hsame
  exact ⟨⟨hthis, TypeSig.same_of_coarser h htype⟩, TypeSig.sameList_of_coarser h hparams⟩

/-- External fields are compared by name, by the type around them and by signature, of which only
the last two depend on the options. -/
theorem FieldRef.same_of_coarser {left right : FieldRef}
    (hsame : left.same names options right = true) : left.same names coarse right = true := by
  cases left with
  | definition | declared => cases right <;> simp_all [FieldRef.same]
  | external owner name signature =>
      cases right with
      | definition | declared => simp [FieldRef.same] at hsame
      | external owner' name' signature' =>
          simp only [FieldRef.same, Bool.and_eq_true] at hsame ⊢
          obtain ⟨⟨hname, howner⟩, hsignature⟩ := hsame
          exact ⟨⟨hname, TypeRef.same_of_coarser h howner⟩, TypeSig.same_of_coarser h hsignature⟩

theorem MethodRef.same_of_coarser {left right : MethodRef}
    (hsame : left.same names options right = true) : left.same names coarse right = true := by
  cases left with
  | definition | declared => cases right <;> simp_all [MethodRef.same]
  | external owner name signature =>
      cases right with
      | definition | declared | instantiated => simp [MethodRef.same] at hsame
      | external owner' name' signature' =>
          simp only [MethodRef.same, Bool.and_eq_true] at hsame ⊢
          obtain ⟨⟨hname, howner⟩, hsignature⟩ := hsame
          exact ⟨⟨hname, TypeRef.same_of_coarser h howner⟩,
            MethodSig.same_of_coarser h hsignature⟩
  | instantiated method args =>
      cases right with
      | definition | declared | external => simp [MethodRef.same] at hsame
      | instantiated method' args' =>
          simp only [MethodRef.same, Bool.and_eq_true] at hsame ⊢
          exact ⟨MethodRef.same_of_coarser hsame.1, TypeSig.sameList_of_coarser h hsame.2⟩
termination_by structural left

end Coarser

namespace Comparison

/-- Whether one comparison takes for the same whatever another one takes for the same: references
to types, signatures of types (and so of fields), of methods and of properties, and references to
fields and methods. -/
structure Relaxes (names : TypeNames) (options coarse : Comparison) : Prop where
  typeRefs : ∀ left right : TypeRef,
    left.same names options right = true → left.same names coarse right = true
  types : ∀ left right : TypeSig,
    left.same names options right = true → left.same names coarse right = true
  methods : ∀ left right : MethodSig,
    left.same names options right = true → left.same names coarse right = true
  properties : ∀ left right : PropertySig,
    left.same names options right = true → left.same names coarse right = true
  fieldRefs : ∀ left right : FieldRef,
    left.same names options right = true → left.same names coarse right = true
  methodRefs : ∀ left right : MethodRef,
    left.same names options right = true → left.same names coarse right = true

theorem Coarser.relaxes {options coarse : Comparison} (h : coarse.Coarser options)
    (names : TypeNames) : Relaxes names options coarse where
  typeRefs _ _ := TypeRef.same_of_coarser h
  types _ _ := TypeSig.same_of_coarser h
  methods _ _ := MethodSig.same_of_coarser h
  properties _ _ := PropertySig.same_of_coarser h
  fieldRefs _ _ := FieldRef.same_of_coarser h
  methodRefs _ _ := MethodRef.same_of_coarser h

/-- A comparison with more options accepts whatever one with fewer accepts. What is strictly equal
is equal as declarations go, and what is equal as declarations go is one overload. -/
theorem relaxes_within (names : TypeNames) :
    (∀ options coarse : Comparison, options.Within coarse → Relaxes names options coarse) ∧
      Relaxes names strict declared ∧ Relaxes names declared overload := by
  have hwithin (options coarse : Comparison) (h : options.Within coarse) :
      Relaxes names options coarse := h.coarser.relaxes names
  exact ⟨hwithin, hwithin strict declared (by decide), hwithin declared overload (by decide)⟩

/-- A parameter under a modifier, of a type that two modules have: as declarations go the two
signatures are equal, so they are when modifiers are disregarded too. -/
theorem relaxes_within_modified :
    ∃ left right : MethodSig, ∃ names : TypeNames, declared.Within ⟨11⟩ ∧
      left.same names strict right = false ∧ left.same names declared right = true ∧
      left.same names ⟨11⟩ right = true := by
  let type (scope name : String) : TypeRef := .external (.topLevel scope "N" name)
  let signature (scope : String) : MethodSig :=
    ⟨0, 0, .primitive .void, [.required (type scope "M") (.classType (type scope "C"))], []⟩
  let names : TypeNames := ⟨fun _ => none, fun _ => none⟩
  have hdeclared : (signature "A").same names declared (signature "B") = true := by decide +kernel
  refine ⟨signature "A", signature "B", names, by decide, by decide +kernel, hdeclared, ?_⟩
  exact ((relaxes_within names).1 declared ⟨11⟩ (by decide)).methods _ _ hdeclared

end Comparison

end Graft
