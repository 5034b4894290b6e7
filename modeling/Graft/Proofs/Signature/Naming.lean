import Graft.Proofs.Signature.Bare
import Graft.Proofs.Signature.Normal

/-!
# Comparisons and the names of types

A comparison looks at the names of the types that the signatures refer to, and at no other ones: two
namings that agree on these give the same verdict (`same_congr`). A comparison that does not ignore
the scope of types looks at no name at all. Where answers have the names of what they are given for,
filling them in does not change a verdict either (`same_fill`).
-/

namespace Graft

/-- Whether two namings give a target the same name. -/
def TypeNames.AgreesAt (names names' : TypeNames) : Target → Prop
  | .definition (.type id) => names.definition id = names'.definition id
  | .declaration (.type id) => names.declaration id = names'.declaration id
  | _ => True

/-- Whether two namings agree on all targets that a comparison looks at by name. -/
def TypeNames.Agree (names names' : TypeNames) (options : Comparison) (targets : List Target) :
    Prop :=
  options.ignoreScope = true → ∀ target ∈ targets, names.AgreesAt names' target

variable {names names' : TypeNames} {options : Comparison} {targets targets' : List Target}

theorem TypeNames.agree_strict : names.Agree names' .strict targets :=
  fun h => absurd h (by simp)

theorem TypeNames.agree_refl : names.Agree names options targets := by
  intro _ target _
  unfold AgreesAt
  split
  · rfl
  · rfl
  · trivial

theorem TypeNames.Agree.symm (h : names.Agree names' options targets) :
    names'.Agree names options targets := by
  intro hscope target hmem
  have hagrees := h hscope target hmem
  unfold AgreesAt at hagrees ⊢
  split
  · exact hagrees.symm
  · exact hagrees.symm
  · trivial

theorem TypeNames.agree_append :
    names.Agree names' options (targets ++ targets') ↔
      names.Agree names' options targets ∧ names.Agree names' options targets' := by
  simp only [Agree, List.forall_mem_append]
  exact forall_and

/-! ## Normal forms -/

mutual

theorem TypeRef.normal_congr (ref : TypeRef) (h : names.Agree names' options ref.targets) :
    ref.normal names options = ref.normal names' options := by
  cases ref with
  | constructed signature =>
      rw [TypeRef.targets] at h
      simp only [TypeRef.normal, TypeSig.normal_congr signature h]
  | external type => rfl
  | definition id =>
      simp only [TypeRef.normal]
      split
      · rename_i hscope
        have hname : names.definition id = names'.definition id :=
          h hscope (.definition (.type id)) (by simp [TypeRef.targets])
        simp only [TypeRef.fullName, hname]
      · rfl
  | declared id =>
      simp only [TypeRef.normal]
      split
      · rename_i hscope
        have hname : names.declaration id = names'.declaration id :=
          h hscope (.declaration (.type id)) (by simp [TypeRef.targets])
        simp only [TypeRef.fullName, hname]
      · rfl
termination_by structural ref

theorem TypeSig.normal_congr (signature : TypeSig)
    (h : names.Agree names' options signature.targets) :
    signature.normal names options = signature.normal names' options := by
  cases signature with
  | unknown | sentinel | primitive | genericVar => rfl
  | classType type | valueType type =>
      rw [TypeSig.targets] at h
      simp only [TypeSig.normal, TypeRef.normal_congr type h]
  | function signature =>
      rw [TypeSig.targets] at h
      simp only [TypeSig.normal, MethodSig.normal_congr signature h]
  | applied generic args =>
      rw [TypeSig.targets, TypeNames.agree_append] at h
      simp only [TypeSig.normal, TypeSig.normal_congr generic h.1, TypeSig.normalList_congr args h.2]
  | pointer inner | byRef inner | vector inner | pinned inner | array inner shape
  | inModule index inner =>
      rw [TypeSig.targets] at h
      simp only [TypeSig.normal, TypeSig.normal_congr inner h]
  | required modifier inner | optional modifier inner =>
      rw [TypeSig.targets, TypeNames.agree_append] at h
      simp only [TypeSig.normal, TypeRef.normal_congr modifier h.1, TypeSig.normal_congr inner h.2]
termination_by structural signature

theorem MethodSig.normal_congr (signature : MethodSig)
    (h : names.Agree names' options signature.targets) :
    signature.normal names options = signature.normal names' options := by
  obtain ⟨callConv, genericCount, result, params, varargs⟩ := signature
  rw [MethodSig.targets, TypeNames.agree_append, TypeNames.agree_append] at h
  obtain ⟨⟨hresult, hparams⟩, hvarargs⟩ := h
  simp only [MethodSig.normal, TypeSig.normal_congr result hresult,
    TypeSig.normalList_congr params hparams,
    TypeSig.normalList_congr varargs hvarargs]
termination_by structural signature

theorem TypeSig.normalList_congr (signatures : List TypeSig)
    (h : names.Agree names' options (TypeSig.targetsList signatures)) :
    TypeSig.normalList names options signatures = TypeSig.normalList names' options signatures := by
  cases signatures with
  | nil => rfl
  | cons signature rest =>
      rw [TypeSig.targetsList, TypeNames.agree_append] at h
      simp only [TypeSig.normalList, TypeSig.normal_congr signature h.1,
        TypeSig.normalList_congr rest h.2]
termination_by structural signatures

end

/-! ## Verdicts -/

theorem TypeRef.same_congr {left right : TypeRef} (hleft : names.Agree names' options left.targets)
    (hright : names.Agree names' options right.targets) :
    left.same names options right = left.same names' options right := by
  rw [Bool.eq_iff_iff, same_iff, same_iff, left.normal_congr hleft, right.normal_congr hright]

theorem TypeSig.same_congr {left right : TypeSig} (hleft : names.Agree names' options left.targets)
    (hright : names.Agree names' options right.targets) :
    left.same names options right = left.same names' options right := by
  rw [Bool.eq_iff_iff, same_iff, same_iff, left.normal_congr hleft, right.normal_congr hright]

theorem MethodSig.same_congr {left right : MethodSig}
    (hleft : names.Agree names' options left.targets)
    (hright : names.Agree names' options right.targets) :
    left.same names options right = left.same names' options right := by
  rw [Bool.eq_iff_iff, same_iff, same_iff, left.normal_congr hleft, right.normal_congr hright]

theorem TypeSig.sameList_congr {lefts rights : List TypeSig}
    (hleft : names.Agree names' options (TypeSig.targetsList lefts))
    (hright : names.Agree names' options (TypeSig.targetsList rights)) :
    TypeSig.sameList names options lefts rights = TypeSig.sameList names' options lefts rights := by
  rw [Bool.eq_iff_iff, sameList_iff, sameList_iff, TypeSig.normalList_congr lefts hleft,
    TypeSig.normalList_congr rights hright]

theorem PropertySig.same_congr {left right : PropertySig}
    (hleft : names.Agree names' options left.targets)
    (hright : names.Agree names' options right.targets) :
    left.same names options right = left.same names' options right := by
  rw [targets, TypeNames.agree_append] at hleft hright
  rw [same, same, TypeSig.same_congr hleft.1 hright.1, TypeSig.sameList_congr hleft.2 hright.2]

/-- A comparison that does not ignore the scope of types looks at no name. -/
theorem MethodRef.same_strict (names names' : TypeNames) (left right : MethodRef) :
    left.same names .strict right = left.same names' .strict right := by
  have hrefs (left right : TypeRef) : left.same names .strict right = left.same names' .strict right :=
    TypeRef.same_congr TypeNames.agree_strict TypeNames.agree_strict
  have hsigs (left right : MethodSig) :
      left.same names .strict right = left.same names' .strict right :=
    MethodSig.same_congr TypeNames.agree_strict TypeNames.agree_strict
  have hargs (lefts rights : List TypeSig) : TypeSig.sameList names .strict lefts rights =
      TypeSig.sameList names' .strict lefts rights :=
    TypeSig.sameList_congr TypeNames.agree_strict TypeNames.agree_strict
  cases left with
  | definition | declared => cases right <;> rfl
  | external owner name signature => cases right <;> simp only [same, hrefs, hsigs]
  | instantiated left args =>
      have ih := MethodRef.same_strict names names' left
      cases right <;> simp only [same, ih, hargs]
termination_by structural left

/-! ## Relinking -/

/-- Whether a comparison sees the same of a target once it is relinked. -/
def Relink.ShowsAt (link : Relink) (names names' : TypeNames) (options : Comparison) :
    Target → Prop
  | .definition (.type id) => (link.onType (.definition id)).normal names options =
      (TypeRef.definition id).normal names' options
  | .declaration (.type id) => (link.onType (.declared id)).normal names options =
      (TypeRef.declared id).normal names' options
  | _ => True

/-- Whether a comparison sees the same of all targets once they are relinked. -/
def Relink.Shows (link : Relink) (names names' : TypeNames) (options : Comparison)
    (targets : List Target) : Prop :=
  ∀ target ∈ targets, link.ShowsAt names names' options target

section Relink

variable {link : Relink}

theorem Relink.shows_append : link.Shows names names' options (targets ++ targets') ↔
    link.Shows names names' options targets ∧ link.Shows names names' options targets' := by
  simp only [Shows, List.forall_mem_append]

mutual

/-- What is relinked to what a comparison sees in the same way has the same normal form. -/
theorem TypeRef.normal_relink (ref : TypeRef) (h : link.Shows names names' options ref.targets) :
    (ref.relink link).normal names options = ref.normal names' options := by
  cases ref with
  | constructed signature =>
      rw [TypeRef.targets] at h
      simp only [TypeRef.relink, TypeRef.normal, TypeSig.normal_relink signature h]
  | external type => rfl
  | definition id => exact h (.definition (.type id)) (by simp [TypeRef.targets])
  | declared id => exact h (.declaration (.type id)) (by simp [TypeRef.targets])
termination_by structural ref

theorem TypeSig.normal_relink (signature : TypeSig)
    (h : link.Shows names names' options signature.targets) :
    (signature.relink link).normal names options = signature.normal names' options := by
  cases signature with
  | unknown | sentinel | primitive | genericVar => rfl
  | classType type | valueType type =>
      rw [TypeSig.targets] at h
      simp only [TypeSig.relink, TypeSig.normal, TypeRef.normal_relink type h]
  | function signature =>
      rw [TypeSig.targets] at h
      simp only [TypeSig.relink, TypeSig.normal, MethodSig.normal_relink signature h]
  | applied generic args =>
      rw [TypeSig.targets, Relink.shows_append] at h
      simp only [TypeSig.relink, TypeSig.normal, TypeSig.normal_relink generic h.1,
        TypeSig.normalList_relink args h.2]
  | pointer inner | byRef inner | vector inner | pinned inner | array inner shape
  | inModule index inner =>
      rw [TypeSig.targets] at h
      simp only [TypeSig.relink, TypeSig.normal, TypeSig.normal_relink inner h]
  | required modifier inner | optional modifier inner =>
      rw [TypeSig.targets, Relink.shows_append] at h
      simp only [TypeSig.relink, TypeSig.normal, TypeRef.normal_relink modifier h.1,
        TypeSig.normal_relink inner h.2]
termination_by structural signature

theorem MethodSig.normal_relink (signature : MethodSig)
    (h : link.Shows names names' options signature.targets) :
    (signature.relink link).normal names options = signature.normal names' options := by
  obtain ⟨callConv, genericCount, result, params, varargs⟩ := signature
  rw [MethodSig.targets, Relink.shows_append, Relink.shows_append] at h
  obtain ⟨⟨hresult, hparams⟩, hvarargs⟩ := h
  simp only [MethodSig.relink, MethodSig.normal, TypeSig.normal_relink result hresult,
    TypeSig.normalList_relink params hparams, TypeSig.normalList_relink varargs hvarargs]
termination_by structural signature

theorem TypeSig.normalList_relink (signatures : List TypeSig)
    (h : link.Shows names names' options (TypeSig.targetsList signatures)) :
    TypeSig.normalList names options (TypeSig.relinkList link signatures) =
      TypeSig.normalList names' options signatures := by
  cases signatures with
  | nil => rfl
  | cons signature rest =>
      rw [TypeSig.targetsList, Relink.shows_append] at h
      simp only [TypeSig.relinkList, TypeSig.normalList, TypeSig.normal_relink signature h.1,
        TypeSig.normalList_relink rest h.2]
termination_by structural signatures

end

/-- Nobody sees who owns generic variables. -/
theorem Relink.shows_bare : Relink.bare.Shows names names options targets := by
  intro target _
  match target with
  | .definition (.type _) | .declaration (.type _) => rfl
  | .definition (.module _) | .definition (.field _) | .definition (.method _)
  | .definition (.property _) | .definition (.event _) | .declaration (.module _)
  | .declaration (.field _) | .declaration (.method _) | .declaration (.property _)
  | .declaration (.event _) | .unknown => trivial

/-- A method signature is the same as those that are alike but for owners. -/
theorem MethodSig.same_bare {left right right' : MethodSig}
    (hbare : right.relink .bare = right'.relink .bare) :
    left.same names options right = left.same names options right' := by
  rw [Bool.eq_iff_iff, MethodSig.same_iff, MethodSig.same_iff,
    ← right.normal_relink Relink.shows_bare, hbare, right'.normal_relink Relink.shows_bare]

end Relink

/-! ## Filling in -/

/-- Whether what is filled in for a target has the name that the target had. -/
def TypeNames.FillsAt (names names' : TypeNames) (answers : Answers) : Target → Prop
  | .definition (.type id) => names.definition id = names'.definition id
  | .declaration (.type id) => ∃ found, answers (.type id) = some (.type found) ∧
      names.definition found = names'.declaration id
  | _ => True

/-- Whether everything that is filled in has the name that it is filled in for. -/
def TypeNames.Fills (names names' : TypeNames) (answers : Answers) (targets : List Target) : Prop :=
  ∀ target ∈ targets, names.FillsAt names' answers target

section Fill

variable {answers : Answers}

/-- Where declarations have the same names all along, it does not matter when they were given. -/
theorem TypeNames.Fills.now (h : names.Fills names' answers targets)
    (hsame : names'.declaration = names.declaration) : names.Fills names answers targets := by
  intro target hmem
  have hfills := h target hmem
  unfold FillsAt at hfills ⊢
  split
  · rfl
  · rwa [hsame] at hfills
  · trivial

/-- What is filled in with the name of what it is filled in for looks the same by name. -/
theorem TypeNames.Fills.shows (h : names.Fills names' answers targets)
    (hscope : options.ignoreScope = true) :
    (Relink.fill answers).Shows names names' options targets := by
  intro target hmem
  have hfills := h target hmem
  match target with
  | .definition (.type id) =>
      have hname : names.definition id = names'.definition id := hfills
      simp [Relink.ShowsAt, Relink.fill, TypeRef.normal, hscope, TypeRef.fullName, hname]
  | .declaration (.type id) =>
      obtain ⟨found, hfound, hname⟩ : ∃ found, answers (.type id) = some (.type found) ∧
          names.definition found = names'.declaration id := hfills
      simp [Relink.ShowsAt, Relink.fill, hfound, TypeRef.normal, hscope, TypeRef.fullName, hname]
  | .definition (.module _) | .definition (.field _) | .definition (.method _)
  | .definition (.property _) | .definition (.event _) | .declaration (.module _)
  | .declaration (.field _) | .declaration (.method _) | .declaration (.property _)
  | .declaration (.event _) | .unknown => trivial

/-- Filled in, two method signatures are the same if and only if they were before. -/
theorem MethodSig.same_fill {left right : MethodSig} (hscope : options.ignoreScope = true)
    (hleft : names.Fills names' answers left.targets)
    (hright : names.Fills names' answers right.targets) :
    (left.relink (.fill answers)).same names options (right.relink (.fill answers)) =
      left.same names' options right := by
  rw [Bool.eq_iff_iff, MethodSig.same_iff, MethodSig.same_iff,
    left.normal_relink (hleft.shows hscope), right.normal_relink (hright.shows hscope)]

/-- A method signature is the same as one that is filled in if and only if it was before. -/
theorem MethodSig.same_fill_right {left right : MethodSig} (hscope : options.ignoreScope = true)
    (hright : names.Fills names answers right.targets) :
    left.same names options (right.relink (.fill answers)) = left.same names options right := by
  rw [Bool.eq_iff_iff, MethodSig.same_iff, MethodSig.same_iff,
    right.normal_relink (hright.shows hscope)]

end Fill

end Graft
