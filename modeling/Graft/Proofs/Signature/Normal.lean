import Graft.Proofs.Signature.Filling
import Graft.Signature.Compare
import Mathlib.Tactic.Tauto

/-!
# Normal forms of signatures

What a comparison disregards is taken out of a signature: owners of generic variables always;
modifiers, results and the identity behind a name where the options say so. Two signatures are the
same exactly when they have one normal form and nothing in it is of unknown shape (`same_iff`).
That makes `same` symmetric and transitive, and reflexive on signatures of known shape.
-/

namespace Graft

section Normal

variable (names : TypeNames) (options : Comparison)

mutual

/-- A type reference without what the comparison disregards. -/
def TypeRef.normal : TypeRef → TypeRef
  | .constructed signature => .constructed signature.normal
  | .definition id =>
    if options.ignoreScope then
      .external (.topLevel "" "" ((TypeRef.definition id).fullName names))
    else .definition id
  | .external type =>
    if options.ignoreScope then .external (.topLevel "" "" type.fullName) else .external type
  | .declared id =>
    if options.ignoreScope then
      .external (.topLevel "" "" ((TypeRef.declared id).fullName names))
    else .declared id
termination_by structural ref => ref

/-- A type signature without what the comparison disregards. -/
def TypeSig.normal : TypeSig → TypeSig
  | .unknown => .unknown
  | .sentinel => .sentinel
  | .primitive type => .primitive type
  | .classType type => .classType type.normal
  | .valueType type => .valueType type.normal
  | .genericVar kind index _ => .genericVar kind index .unbound
  | .function signature => .function signature.normal
  | .applied generic args => .applied generic.normal (TypeSig.normalList args)
  | .pointer inner => .pointer inner.normal
  | .byRef inner => .byRef inner.normal
  | .vector inner => .vector inner.normal
  | .pinned inner => .pinned inner.normal
  | .array inner shape => .array inner.normal shape
  | .required modifier inner =>
    if options.ignoreModifiers then inner.normal else .required modifier.normal inner.normal
  | .optional modifier inner =>
    if options.ignoreModifiers then inner.normal else .optional modifier.normal inner.normal
  | .inModule index inner => .inModule index inner.normal
termination_by structural signature => signature

/-- A method signature without what the comparison disregards. -/
def MethodSig.normal : MethodSig → MethodSig
  | ⟨callConv, genericCount, result, params, varargs⟩ =>
    ⟨callConv, genericCount,
      if options.ignoreResult then .primitive .void else result.normal,
      TypeSig.normalList params, TypeSig.normalList varargs⟩
termination_by structural signature => signature

/-- Type signatures without what the comparison disregards. -/
def TypeSig.normalList : List TypeSig → List TypeSig
  | [] => []
  | signature :: rest => signature.normal :: TypeSig.normalList rest
termination_by structural signatures => signatures

end

/-- Nothing is left to disregard on the outside of a bare signature. -/
theorem TypeSig.normal_bare (signature : TypeSig) :
    (signature.bare options).normal names options = signature.normal names options := by
  cases signature with
  | required modifier inner | optional modifier inner =>
      by_cases h : options.ignoreModifiers = true
      · simp [bare, normal, h, TypeSig.normal_bare inner]
      · simp [bare, h]
  | _ => simp [bare]
termination_by structural signature

/-- A bare signature has no modifier on its outside that the comparison disregards. -/
theorem TypeSig.bare_ne_modified (h : options.ignoreModifiers = true) (signature : TypeSig)
    (modifier : TypeRef) (inner : TypeSig) :
    signature.bare options ≠ .required modifier inner ∧
      signature.bare options ≠ .optional modifier inner := by
  cases signature with
  | required other signature | optional other signature =>
      simpa [bare, h] using TypeSig.bare_ne_modified h signature modifier inner
  | _ => simp [bare]
termination_by structural signature

end Normal

section Same

variable {names : TypeNames} {options : Comparison}

theorem TypeRef.namesSame_iff (left right : TypeRef) (hleft : left.isConstructed = false) :
    left.namesSame names options right = true ↔
      left.normal names options = right.normal names options := by
  cases left <;> cases right <;>
    by_cases h : options.ignoreScope = true <;>
    simp_all [namesSame, normal, isConstructed, TypeRef.fullName]

theorem TypeRef.unknown_notMem_normal (ref : TypeRef) (h : ref.isConstructed = false) :
    .unknown ∉ (ref.normal names options).targets := by
  cases ref <;> by_cases hscope : options.ignoreScope = true <;>
    simp_all [normal, targets, isConstructed]

mutual

theorem TypeRef.same_iff (left right : TypeRef) :
    left.same names options right = true ↔
      left.normal names options = right.normal names options ∧
        .unknown ∉ (left.normal names options).targets := by
  cases left with
  | constructed left =>
      cases right with
      | constructed right =>
          simpa [TypeRef.same, TypeRef.normal, TypeRef.targets] using TypeSig.same_iff left right
      | _ =>
          by_cases h : options.ignoreScope = true <;> simp [TypeRef.same, TypeRef.normal, h]
  | definition id =>
      simp only [TypeRef.same, TypeRef.namesSame_iff (.definition id) right rfl,
        TypeRef.unknown_notMem_normal (.definition id) rfl, not_false_eq_true, and_true]
  | external type =>
      simp only [TypeRef.same, TypeRef.namesSame_iff (.external type) right rfl,
        TypeRef.unknown_notMem_normal (.external type) rfl, not_false_eq_true, and_true]
  | declared id =>
      simp only [TypeRef.same, TypeRef.namesSame_iff (.declared id) right rfl,
        TypeRef.unknown_notMem_normal (.declared id) rfl, not_false_eq_true, and_true]
termination_by structural left

theorem TypeSig.same_iff (left right : TypeSig) :
    left.same names options right = true ↔
      left.normal names options = right.normal names options ∧
        .unknown ∉ (left.normal names options).targets := by
  have hnormal := TypeSig.normal_bare names options right
  -- A modifier that is left after stripping says that modifiers are compared.
  have hmodified (modifier : TypeRef) (inner : TypeSig)
      (h : right.bare options = .required modifier inner ∨
        right.bare options = .optional modifier inner) : options.ignoreModifiers = false := by
    refine eq_false_of_ne_true fun hignore => ?_
    obtain ⟨hrequired, hoptional⟩ := TypeSig.bare_ne_modified options hignore right modifier inner
    exact h.elim hrequired hoptional
  cases left with
  | unknown => simp [TypeSig.same, TypeSig.normal, TypeSig.targets]
  | sentinel | primitive | genericVar =>
      simp only [TypeSig.same, ← hnormal]
      cases hright : right.bare options with
      | required modifier inner | optional modifier inner =>
          have h := hmodified modifier inner (by simp [hright])
          simp [TypeSig.normal, TypeSig.targets, h]
      | _ => simp [TypeSig.normal, TypeSig.targets]
  | classType left | valueType left =>
      have ih := TypeRef.same_iff left
      simp only [TypeSig.same, ← hnormal]
      cases hright : right.bare options with
      | required modifier inner | optional modifier inner =>
          have h := hmodified modifier inner (by simp [hright])
          simp [TypeSig.normal, h]
      | _ => simp [TypeSig.normal, TypeSig.targets, ih]
  | function left =>
      have ih := MethodSig.same_iff left
      simp only [TypeSig.same, ← hnormal]
      cases hright : right.bare options with
      | required modifier inner | optional modifier inner =>
          have h := hmodified modifier inner (by simp [hright])
          simp [TypeSig.normal, h]
      | _ => simp [TypeSig.normal, TypeSig.targets, ih]
  | applied left args =>
      have ih := TypeSig.same_iff left
      have ihArgs := TypeSig.sameList_iff args
      simp only [TypeSig.same, ← hnormal]
      cases hright : right.bare options with
      | required modifier inner | optional modifier inner =>
          have h := hmodified modifier inner (by simp [hright])
          simp [TypeSig.normal, h]
      | applied => simp [TypeSig.normal, TypeSig.targets, ih, ihArgs]; tauto
      | _ => simp [TypeSig.normal]
  | pointer left | byRef left | vector left | pinned left =>
      have ih := TypeSig.same_iff left
      simp only [TypeSig.same, ← hnormal]
      cases hright : right.bare options with
      | required modifier inner | optional modifier inner =>
          have h := hmodified modifier inner (by simp [hright])
          simp [TypeSig.normal, h]
      | _ => simp [TypeSig.normal, TypeSig.targets, ih]
  | array left shape | inModule shape left =>
      have ih := TypeSig.same_iff left
      simp only [TypeSig.same, ← hnormal]
      cases hright : right.bare options with
      | required modifier inner | optional modifier inner =>
          have h := hmodified modifier inner (by simp [hright])
          simp [TypeSig.normal, h]
      | array | inModule => simp [TypeSig.normal, TypeSig.targets, ih]; try tauto
      | _ => simp [TypeSig.normal]
  | required modifier left | optional modifier left =>
      have ihModifier := TypeRef.same_iff modifier
      have ih := TypeSig.same_iff left
      by_cases h : options.ignoreModifiers = true
      · simp [TypeSig.same, TypeSig.normal, h, ih right]
      · have h : options.ignoreModifiers = false := eq_false_of_ne_true h
        simp only [TypeSig.same, h]
        cases right <;> simp [TypeSig.normal, TypeSig.targets, h, ih, ihModifier]
        tauto
termination_by structural left

theorem MethodSig.same_iff (left right : MethodSig) :
    left.same names options right = true ↔
      left.normal names options = right.normal names options ∧
        .unknown ∉ (left.normal names options).targets := by
  obtain ⟨callConv, genericCount, result, params, varargs⟩ := left
  obtain ⟨callConv', genericCount', result', params', varargs'⟩ := right
  by_cases h : options.ignoreResult = true <;>
    simp [MethodSig.same, MethodSig.normal, MethodSig.targets, TypeSig.targets, h,
      TypeSig.same_iff result result', TypeSig.sameList_iff params params',
      TypeSig.sameList_iff varargs varargs'] <;> tauto
termination_by structural left

theorem TypeSig.sameList_iff (lefts rights : List TypeSig) :
    TypeSig.sameList names options lefts rights = true ↔
      TypeSig.normalList names options lefts = TypeSig.normalList names options rights ∧
        .unknown ∉ TypeSig.targetsList (TypeSig.normalList names options lefts) := by
  cases lefts with
  | nil => cases rights <;> simp [TypeSig.sameList, TypeSig.normalList, TypeSig.targetsList]
  | cons left lefts =>
      cases rights with
      | nil => simp [TypeSig.sameList, TypeSig.normalList]
      | cons right rights =>
          simp [TypeSig.sameList, TypeSig.normalList, TypeSig.targetsList,
            TypeSig.same_iff left right, TypeSig.sameList_iff lefts rights]
          tauto
termination_by structural lefts

end

/-- A property signature without what the comparison disregards. -/
def PropertySig.normal (names : TypeNames) (options : Comparison) (signature : PropertySig) :
    PropertySig where
  hasThis := signature.hasThis
  type := signature.type.normal names options
  params := TypeSig.normalList names options signature.params

theorem PropertySig.same_iff (left right : PropertySig) :
    left.same names options right = true ↔
      left.normal names options = right.normal names options ∧
        .unknown ∉ (left.normal names options).targets := by
  have htype : left.type.same names options right.type = true ↔ _ := TypeSig.same_iff _ _
  have hparams : TypeSig.sameList names options left.params right.params = true ↔ _ :=
    TypeSig.sameList_iff _ _
  simp only [PropertySig.same, PropertySig.normal, PropertySig.targets, PropertySig.mk.injEq,
    Bool.and_eq_true, beq_iff_eq, List.mem_append, not_or, htype, hparams]
  tauto

/-! ## Known shapes

Taking out what is disregarded brings in nothing of unknown shape. -/

mutual

theorem TypeRef.unknown_of_normal (ref : TypeRef)
    (h : .unknown ∈ (ref.normal names options).targets) : .unknown ∈ ref.targets := by
  cases ref with
  | constructed signature =>
      simp only [TypeRef.normal, TypeRef.targets] at h ⊢
      exact TypeSig.unknown_of_normal signature h
  | definition | external | declared =>
      exact absurd h (TypeRef.unknown_notMem_normal _ rfl)
termination_by structural ref

theorem TypeSig.unknown_of_normal (signature : TypeSig)
    (h : .unknown ∈ (signature.normal names options).targets) : .unknown ∈ signature.targets := by
  cases signature with
  | unknown => simp [TypeSig.targets]
  | sentinel | primitive | genericVar => simp [TypeSig.normal, TypeSig.targets] at h
  | classType type | valueType type =>
      simp only [TypeSig.normal, TypeSig.targets] at h ⊢
      exact TypeRef.unknown_of_normal type h
  | function signature =>
      simp only [TypeSig.normal, TypeSig.targets] at h ⊢
      exact MethodSig.unknown_of_normal signature h
  | applied generic args =>
      simp only [TypeSig.normal, TypeSig.targets, List.mem_append] at h ⊢
      exact h.imp (TypeSig.unknown_of_normal generic) (TypeSig.unknown_of_normalList args)
  | pointer inner | byRef inner | vector inner | pinned inner | array inner shape
  | inModule index inner =>
      simp only [TypeSig.normal, TypeSig.targets] at h ⊢
      exact TypeSig.unknown_of_normal inner h
  | required modifier inner | optional modifier inner =>
      have ihModifier := TypeRef.unknown_of_normal modifier
      have ih := TypeSig.unknown_of_normal inner
      simp only [TypeSig.normal] at h
      simp only [TypeSig.targets, List.mem_append]
      split at h
      · exact .inr (ih h)
      · simp only [TypeSig.targets, List.mem_append] at h
        exact h.imp ihModifier ih
termination_by structural signature

theorem MethodSig.unknown_of_normal (signature : MethodSig)
    (h : .unknown ∈ (signature.normal names options).targets) :
    .unknown ∈ signature.targets := by
  obtain ⟨callConv, genericCount, result, params, varargs⟩ := signature
  have ihResult := TypeSig.unknown_of_normal result
  have ihParams := TypeSig.unknown_of_normalList params
  have ihVarargs := TypeSig.unknown_of_normalList varargs
  simp only [MethodSig.normal, MethodSig.targets, List.mem_append] at h ⊢
  refine h.imp (Or.imp (fun h => ?_) ihParams) ihVarargs
  split at h
  · simp [TypeSig.targets] at h
  · exact ihResult h
termination_by structural signature

theorem TypeSig.unknown_of_normalList (signatures : List TypeSig)
    (h : .unknown ∈ TypeSig.targetsList (TypeSig.normalList names options signatures)) :
    .unknown ∈ TypeSig.targetsList signatures := by
  cases signatures with
  | nil => simp [TypeSig.normalList, TypeSig.targetsList] at h
  | cons signature rest =>
      simp only [TypeSig.normalList, TypeSig.targetsList, List.mem_append] at h ⊢
      exact h.imp (TypeSig.unknown_of_normal signature) (TypeSig.unknown_of_normalList rest)
termination_by structural signatures

end

/-! ## Equivalence -/

theorem TypeRef.same_self {ref : TypeRef} (h : .unknown ∉ ref.targets) :
    ref.same names options ref = true :=
  (same_iff ref ref).mpr ⟨rfl, fun hmem => h (ref.unknown_of_normal hmem)⟩

theorem TypeSig.same_self {signature : TypeSig} (h : .unknown ∉ signature.targets) :
    signature.same names options signature = true :=
  (same_iff signature signature).mpr ⟨rfl, fun hmem => h (signature.unknown_of_normal hmem)⟩

theorem TypeSig.sameList_self {signatures : List TypeSig}
    (h : .unknown ∉ TypeSig.targetsList signatures) :
    TypeSig.sameList names options signatures signatures = true :=
  (sameList_iff signatures signatures).mpr
    ⟨rfl, fun hmem => h (TypeSig.unknown_of_normalList signatures hmem)⟩

theorem MethodSig.same_self {signature : MethodSig} (h : .unknown ∉ signature.targets) :
    signature.same names options signature = true :=
  (same_iff signature signature).mpr ⟨rfl, fun hmem => h (signature.unknown_of_normal hmem)⟩

theorem PropertySig.same_self {signature : PropertySig} (h : .unknown ∉ signature.targets) :
    signature.same names options signature = true := by
  simp only [PropertySig.targets, List.mem_append, not_or] at h
  simp [PropertySig.same, TypeSig.same_self h.1, TypeSig.sameList_self h.2]

theorem FieldRef.same_self {ref : FieldRef} (h : .unknown ∉ ref.targets) :
    ref.same names options ref = true := by
  cases ref with
  | definition | declared => simp [FieldRef.same]
  | external owner name signature =>
      simp only [FieldRef.targets, List.mem_append, not_or] at h
      simp [FieldRef.same, TypeRef.same_self h.1, TypeSig.same_self h.2]

theorem MethodRef.same_self {ref : MethodRef} (h : .unknown ∉ ref.targets) :
    ref.same names options ref = true := by
  cases ref with
  | definition | declared => simp [MethodRef.same]
  | external owner name signature =>
      simp only [MethodRef.targets, List.mem_append, not_or] at h
      simp [MethodRef.same, TypeRef.same_self h.1, MethodSig.same_self h.2]
  | instantiated method args =>
      simp only [MethodRef.targets, List.mem_append, not_or] at h
      simp [MethodRef.same, MethodRef.same_self h.1, TypeSig.sameList_self h.2]
termination_by structural ref

theorem MethodSig.same_symm {left right : MethodSig} (h : left.same names options right = true) :
    right.same names options left = true := by
  rw [same_iff] at h ⊢
  exact ⟨h.1.symm, h.1 ▸ h.2⟩

/-- Two signatures that are the same as a third are the same, which is what tells overloads
apart. -/
theorem MethodSig.same_of_same {left right signature : MethodSig}
    (hleft : signature.same names options left = true)
    (hright : signature.same names options right = true) :
    left.same names options right = true := by
  rw [same_iff] at hleft hright ⊢
  exact ⟨hleft.1.symm.trans hright.1, hleft.1 ▸ hleft.2⟩

end Same

end Graft
