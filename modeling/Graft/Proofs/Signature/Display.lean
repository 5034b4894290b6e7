import Graft.Proofs.Signature.Naming

/-!
# The text of a normal form

A comparison as declarations are compared disregards nothing that a reader of the text sees: the
normal form that it leaves reads like the signature itself (`text_normal`). So a signature that is
relinked to what has the right names reads like the signature (`Readable.text_relink`).
-/

namespace Graft

variable {names names' : TypeNames}

mutual

/-- What is left of a reference when its scope is disregarded has the full name of the reference. -/
theorem TypeRef.fullName_normal (ref : TypeRef) :
    (ref.normal names .declared).fullName names' = ref.fullName names := by
  cases ref with
  | constructed signature =>
      simp only [TypeRef.normal, TypeRef.fullName, TypeSig.text_normal signature]
  | definition id | external type | declared id =>
      simp [TypeRef.normal, TypeRef.fullName, ExternalType.fullName, Text.qualify]
termination_by structural ref

/-- The normal form of a signature reads like the signature. -/
theorem TypeSig.text_normal (signature : TypeSig) :
    (signature.normal names .declared).text names' = signature.text names := by
  cases signature with
  | unknown | sentinel | primitive => rfl
  | genericVar kind index owner => cases kind <;> rfl
  | classType type | valueType type =>
      simp only [TypeSig.normal, TypeSig.text, TypeRef.fullName_normal type]
  | function signature => simp only [TypeSig.normal, TypeSig.text, MethodSig.text_normal signature]
  | applied generic args =>
      simp only [TypeSig.normal, TypeSig.text, TypeSig.text_normal generic,
        TypeSig.textList_normalList args]
  | pointer inner | byRef inner | vector inner | pinned inner | array inner shape
  | inModule index inner => simp only [TypeSig.normal, TypeSig.text, TypeSig.text_normal inner]
  | required modifier inner | optional modifier inner =>
      simp [TypeSig.normal, TypeSig.text, TypeRef.fullName_normal modifier,
        TypeSig.text_normal inner]
termination_by structural signature

theorem MethodSig.text_normal (signature : MethodSig) :
    (signature.normal names .declared).text names' = signature.text names := by
  obtain ⟨callConv, genericCount, result, params, varargs⟩ := signature
  simp [MethodSig.normal, MethodSig.text, TypeSig.text_normal result,
    TypeSig.textList_normalList params, TypeSig.textList_normalList varargs]
termination_by structural signature

theorem TypeSig.textList_normalList (signatures : List TypeSig) :
    TypeSig.textList names' (TypeSig.normalList names .declared signatures) =
      TypeSig.textList names signatures := by
  cases signatures with
  | nil => rfl
  | cons signature rest =>
      simp only [TypeSig.normalList, TypeSig.textList, TypeSig.text_normal signature,
        TypeSig.textList_normalList rest]
termination_by structural signatures

end

theorem TypeSig.isEmpty_normalList (signatures : List TypeSig) :
    (TypeSig.normalList names .declared signatures).isEmpty = signatures.isEmpty := by
  cases signatures <;> rfl

theorem PropertySig.text_normal (signature : PropertySig) :
    (signature.normal names .declared).text names' = signature.text names := by
  unfold PropertySig.normal PropertySig.text
  dsimp only
  rw [TypeSig.text_normal, TypeSig.textList_normalList, TypeSig.isEmpty_normalList]

theorem PropertySig.normal_relink {link : Relink} {options : Comparison} (signature : PropertySig)
    (h : link.Shows names names' options signature.targets) :
    (signature.relink link).normal names options = signature.normal names' options := by
  rw [PropertySig.targets, Relink.shows_append] at h
  simp only [PropertySig.normal, PropertySig.relink, TypeSig.normal_relink _ h.1,
    TypeSig.normalList_relink _ h.2]

theorem PropertySig.unknown_of_normal {options : Comparison} (signature : PropertySig)
    (h : .unknown ∈ (signature.normal names options).targets) : .unknown ∈ signature.targets := by
  simp only [PropertySig.normal, PropertySig.targets, List.mem_append] at h ⊢
  exact h.imp (TypeSig.unknown_of_normal _) (TypeSig.unknown_of_normalList _)

/-- What texts and comparisons have to do with normal forms. -/
structure Readable {α : Type} (targets : α → List Target) (relink : Relink → α → α)
    (text : TypeNames → α → String) (same : TypeNames → Comparison → α → α → Bool)
    (normal : TypeNames → Comparison → α → α) : Prop where
  same_iff : ∀ {names options} left right, same names options left right = true ↔
    normal names options left = normal names options right ∧
      .unknown ∉ targets (normal names options left)
  unknown_of_normal : ∀ {names options} value, .unknown ∈ targets (normal names options value) →
    .unknown ∈ targets value
  normal_relink : ∀ {link : Relink} {names names' options} value,
    link.Shows names names' options (targets value) →
      normal names options (relink link value) = normal names' options value
  text_normal : ∀ {names names'} value,
    text names' (normal names .declared value) = text names value

theorem TypeSig.readable : Readable TypeSig.targets TypeSig.relink TypeSig.text TypeSig.same
    TypeSig.normal :=
  ⟨same_iff, unknown_of_normal, normal_relink, text_normal⟩

theorem MethodSig.readable : Readable MethodSig.targets MethodSig.relink MethodSig.text
    MethodSig.same MethodSig.normal :=
  ⟨same_iff, unknown_of_normal, normal_relink, text_normal⟩

theorem PropertySig.readable : Readable PropertySig.targets PropertySig.relink PropertySig.text
    PropertySig.same PropertySig.normal :=
  ⟨same_iff, unknown_of_normal, normal_relink, text_normal⟩

namespace Readable

variable {α : Type} {targets : α → List Target} {relink : Relink → α → α}
  {text : TypeNames → α → String} {same : TypeNames → Comparison → α → α → Bool}
  {normal : TypeNames → Comparison → α → α} {link : Relink} {value : α}
  (h : Readable targets relink text same normal)

include h

theorem same_self {options : Comparison} (hknown : .unknown ∉ targets value) :
    same names options value value = true :=
  (h.same_iff value value).mpr ⟨rfl, fun hmem => hknown (h.unknown_of_normal value hmem)⟩

/-- What looks the same by name reads alike. -/
theorem text_relink (hshows : link.Shows names names .declared (targets value)) :
    text names (relink link value) = text names value := by
  calc text names (relink link value)
      = text names (normal names .declared (relink link value)) := (h.text_normal _).symm
    _ = text names (normal names .declared value) := by rw [h.normal_relink value hshows]
    _ = text names value := h.text_normal _

/-- What looks the same by name is the same where declarations are compared. -/
theorem same_relink (hknown : .unknown ∉ targets value)
    (hshows : link.Shows names names .declared (targets value)) :
    same names .declared value (relink link value) = true :=
  (h.same_iff _ _).mpr ⟨(h.normal_relink value hshows).symm,
    fun hmem => hknown (h.unknown_of_normal value hmem)⟩

end Readable

end Graft
