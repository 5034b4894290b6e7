import Graft.Proofs.Signature.Filling
import Graft.Proofs.Signature.Normal

/-!
# Renaming methods

Two graphs that differ only in the identities of some definitions are told apart by no strict
comparison (`MethodRef.same_rename`). Signatures refer to types alone, so a renaming of methods
leaves them as they are (`TypeSig.relink_rename`).
-/

namespace Graft

/-! ## Signatures refer to types -/

/-- Whether a target is a type, or of unknown shape. -/
def Target.OfType : Target → Prop
  | .definition found => found.kind = .type
  | .declaration asked => asked.kind = .type
  | .unknown => True

mutual

theorem TypeRef.targets_ofType (ref : TypeRef) : ∀ target ∈ ref.targets, target.OfType := by
  cases ref with
  | definition | declared =>
      simp [TypeRef.targets, Target.OfType, Definition.kind, Declaration.kind]
  | external => simp [TypeRef.targets]
  | constructed signature => simpa only [TypeRef.targets] using signature.targets_ofType
termination_by structural ref

theorem TypeSig.targets_ofType (signature : TypeSig) :
    ∀ target ∈ signature.targets, target.OfType := by
  cases signature with
  | unknown => simp [TypeSig.targets, Target.OfType]
  | sentinel | primitive | genericVar => simp [TypeSig.targets]
  | classType type | valueType type => simpa only [TypeSig.targets] using type.targets_ofType
  | function signature => simpa only [TypeSig.targets] using signature.targets_ofType
  | applied generic args =>
      simpa only [TypeSig.targets, List.forall_mem_append] using
        ⟨generic.targets_ofType, TypeSig.targetsList_ofType args⟩
  | pointer inner | byRef inner | vector inner | pinned inner | array inner shape
  | inModule index inner => simpa only [TypeSig.targets] using inner.targets_ofType
  | required modifier inner | optional modifier inner =>
      simpa only [TypeSig.targets, List.forall_mem_append] using
        ⟨modifier.targets_ofType, inner.targets_ofType⟩
termination_by structural signature

theorem MethodSig.targets_ofType (signature : MethodSig) :
    ∀ target ∈ signature.targets, target.OfType := by
  obtain ⟨callConv, genericCount, result, params, varargs⟩ := signature
  simpa only [MethodSig.targets, List.forall_mem_append] using
    ⟨⟨result.targets_ofType, TypeSig.targetsList_ofType params⟩,
      TypeSig.targetsList_ofType varargs⟩
termination_by structural signature

theorem TypeSig.targetsList_ofType (signatures : List TypeSig) :
    ∀ target ∈ TypeSig.targetsList signatures, target.OfType := by
  cases signatures with
  | nil => simp [TypeSig.targetsList]
  | cons signature rest =>
      simpa only [TypeSig.targetsList, List.forall_mem_append] using
        ⟨signature.targets_ofType, TypeSig.targetsList_ofType rest⟩
termination_by structural signatures

end

theorem PropertySig.targets_ofType (signature : PropertySig) :
    ∀ target ∈ signature.targets, target.OfType := by
  simpa only [PropertySig.targets, List.forall_mem_append] using
    ⟨signature.type.targets_ofType, TypeSig.targetsList_ofType signature.params⟩

/-- Whether a target is of a kind that references lead to, or of unknown shape. -/
def Target.Linkable : Target → Prop
  | .definition found => found.kind = .type ∨ found.kind = .field ∨ found.kind = .method
  | .declaration asked => asked.kind = .type ∨ asked.kind = .field ∨ asked.kind = .method
  | .unknown => True

theorem Target.OfType.linkable {target : Target} (h : target.OfType) : target.Linkable := by
  cases target with
  | definition | declaration => exact .inl h
  | unknown => trivial

theorem TypeRef.targets_linkable (ref : TypeRef) : ∀ target ∈ ref.targets, target.Linkable :=
  fun target hmem => (ref.targets_ofType target hmem).linkable

theorem TypeSig.targets_linkable (signature : TypeSig) :
    ∀ target ∈ signature.targets, target.Linkable :=
  fun target hmem => (signature.targets_ofType target hmem).linkable

theorem FieldRef.targets_linkable (ref : FieldRef) : ∀ target ∈ ref.targets, target.Linkable := by
  cases ref with
  | definition | declared =>
      simp [FieldRef.targets, Target.Linkable, Definition.kind, Declaration.kind]
  | external owner name signature =>
      simp only [FieldRef.targets, List.forall_mem_append]
      exact ⟨owner.targets_linkable, signature.targets_linkable⟩

theorem MethodRef.targets_linkable (ref : MethodRef) :
    ∀ target ∈ ref.targets, target.Linkable := by
  cases ref with
  | definition | declared =>
      simp [MethodRef.targets, Target.Linkable, Definition.kind, Declaration.kind]
  | external owner name signature =>
      simp only [MethodRef.targets, List.forall_mem_append]
      exact ⟨owner.targets_linkable,
        fun target hmem => (signature.targets_ofType target hmem).linkable⟩
  | instantiated method args =>
      simp only [MethodRef.targets, List.forall_mem_append]
      exact ⟨method.targets_linkable,
        fun target hmem => (TypeSig.targetsList_ofType args target hmem).linkable⟩
termination_by structural ref

theorem Override.targets_linkable (override : Override) :
    ∀ target ∈ override.targets, target.Linkable := by
  simpa only [Override.targets, List.forall_mem_append] using
    ⟨override.body.targets_linkable, override.declaration.targets_linkable⟩

theorem Operand.targets_linkable (operand : Operand) :
    ∀ target ∈ operand.targets, target.Linkable := by
  cases operand with
  | type ref => exact ref.targets_linkable
  | field ref => exact ref.targets_linkable
  | method ref => exact ref.targets_linkable
  | signature value => exact fun target hmem => (value.targets_ofType target hmem).linkable
  | none | immediate | text | target | switch | localVar | argument | token =>
      simp [Operand.targets]

/-- Filling in what is settled leaves no declaration. -/
theorem declaration_notMem_image_fill {answers : Answers} {target : Target}
    (h : answers.Settles target) (hlinkable : target.Linkable) (declaration : Declaration) :
    .declaration declaration ∉ (Relink.fill answers).image target := by
  intro hmem
  rcases mem_image_fill h hmem with rfl | ⟨_, _, -, -, heq⟩
  · obtain ⟨definition, hknown, hkind⟩ := h
    cases declaration <;> cases definition <;>
      simp_all [Relink.image, Relink.fill, TypeRef.targets, FieldRef.targets, MethodRef.targets,
        Target.Linkable, Definition.kind, Declaration.kind]
  · cases heq

section Fill

variable {α : Type} {targets : α → List Target} {relink : Relink → α → α}
  {answers answers' : Answers}

/-- Whoever knows the same about types fills signatures in alike. -/
theorem Relinks.fill_types (h : Relinks targets relink) {value : α}
    (htypes : ∀ target ∈ targets value, target.OfType)
    (hsame : ∀ id, answers (.type id) = answers' (.type id)) :
    relink (.fill answers) value = relink (.fill answers') value := by
  refine h.relink_congr fill_onOwner value fun target hmem => ?_
  have htype := htypes target hmem
  match target with
  | .declaration (.type id) => simp [Relink.AgreesAt, Relink.fill, hsame]
  | .definition (.type _) => simp [Relink.AgreesAt, Relink.fill]
  | .unknown => trivial
  | .definition (.module _) | .definition (.field _) | .definition (.method _)
  | .definition (.property _) | .definition (.event _) | .declaration (.module _)
  | .declaration (.field _) | .declaration (.method _) | .declaration (.property _)
  | .declaration (.event _) => cases htype

end Fill

/-! ## Renaming -/

/-- What a renaming of definitions makes of a method. -/
def DefId.renamed (twin : Definition → Definition) (id : DefId .method) : DefId .method :=
  match twin (.method id) with
  | .method found => found
  | _ => id

/-- A renaming of definitions, as far as methods are concerned. -/
def Relink.rename (twin : Definition → Definition) : Relink where
  onMethod
    | .definition id => .definition (id.renamed twin)
    | ref => ref

section Rename

variable {twin : Definition → Definition} {names : TypeNames}

mutual

theorem TypeRef.relink_rename (ref : TypeRef) : ref.relink (.rename twin) = ref := by
  cases ref with
  | definition | declared | external => simp [TypeRef.relink, Relink.rename]
  | constructed signature => simp [TypeRef.relink, signature.relink_rename]
termination_by structural ref

theorem TypeSig.relink_rename (signature : TypeSig) :
    signature.relink (.rename twin) = signature := by
  cases signature with
  | unknown | sentinel | primitive => simp [TypeSig.relink]
  | genericVar => simp [TypeSig.relink, Relink.rename]
  | classType type | valueType type => simp [TypeSig.relink, type.relink_rename]
  | function signature => simp [TypeSig.relink, signature.relink_rename]
  | applied generic args =>
      simp [TypeSig.relink, generic.relink_rename, TypeSig.relinkList_rename args]
  | pointer inner | byRef inner | vector inner | pinned inner | array inner shape
  | inModule index inner => simp [TypeSig.relink, inner.relink_rename]
  | required modifier inner | optional modifier inner =>
      simp [TypeSig.relink, modifier.relink_rename, inner.relink_rename]
termination_by structural signature

theorem MethodSig.relink_rename (signature : MethodSig) :
    signature.relink (.rename twin) = signature := by
  obtain ⟨callConv, genericCount, result, params, varargs⟩ := signature
  simp [MethodSig.relink, result.relink_rename, TypeSig.relinkList_rename params,
    TypeSig.relinkList_rename varargs]
termination_by structural signature

theorem TypeSig.relinkList_rename (signatures : List TypeSig) :
    TypeSig.relinkList (.rename twin) signatures = signatures := by
  cases signatures with
  | nil => simp [TypeSig.relinkList]
  | cons signature rest =>
      simp [TypeSig.relinkList, signature.relink_rename, TypeSig.relinkList_rename rest]
termination_by structural signatures

end

/-- A renaming that keeps apart the methods that two references refer to keeps apart the
references. -/
theorem MethodRef.same_rename {left right : MethodRef}
    (h : ∀ id id', .definition (.method id) ∈ left.targets →
      .definition (.method id') ∈ right.targets → id.renamed twin = id'.renamed twin → id = id') :
    (left.relink (.rename twin)).same names .strict (right.relink (.rename twin)) =
      left.same names .strict right := by
  cases left with
  | definition id =>
      cases right with
      | definition id' =>
          have hinjective := h id id' (by simp [MethodRef.targets]) (by simp [MethodRef.targets])
          simp only [MethodRef.relink, Relink.rename, MethodRef.same]
          exact Bool.eq_iff_iff.mpr (by simpa using ⟨hinjective, fun heq => heq ▸ rfl⟩)
      | declared | external | instantiated => simp [MethodRef.relink, Relink.rename, MethodRef.same]
  | declared => cases right <;> simp [MethodRef.relink, Relink.rename, MethodRef.same]
  | external owner name signature =>
      simp only [MethodRef.relink, TypeRef.relink_rename, MethodSig.relink_rename]
      cases right with
      | external => simp only [MethodRef.relink, TypeRef.relink_rename, MethodSig.relink_rename]
      | definition | declared | instantiated =>
          simp [MethodRef.relink, Relink.rename, MethodRef.same]
  | instantiated left args =>
      cases right with
      | instantiated right args' =>
          have ih : (left.relink (.rename twin)).same names .strict (right.relink (.rename twin)) =
              left.same names .strict right :=
            MethodRef.same_rename fun id id' hid hid' =>
              h id id' (by simp [MethodRef.targets, hid]) (by simp [MethodRef.targets, hid'])
          simp [MethodRef.relink, MethodRef.same, ih, TypeSig.relinkList_rename]
      | definition | declared | external => simp [MethodRef.relink, Relink.rename, MethodRef.same]
termination_by structural left

/-- What is filled in with renamed answers is what was filled in, renamed. -/
theorem MethodRef.fill_rename {answers answers' : Answers} (ref : MethodRef)
    (htypes : ∀ id, answers' (.type id) = answers (.type id))
    (hmethods : ∀ id, .declaration (.method id) ∈ ref.targets → ∃ found,
      answers (.method id) = some (.method found) ∧
      answers' (.method id) = some (.method (found.renamed twin)))
    (hkept : ∀ id, .definition (.method id) ∈ ref.targets → id.renamed twin = id) :
    ref.relink (.fill answers') = (ref.relink (.fill answers)).relink (.rename twin) := by
  cases ref with
  | definition id =>
      simp [MethodRef.relink, Relink.fill, Relink.rename, hkept id (by simp [MethodRef.targets])]
  | declared id =>
      obtain ⟨found, hfound, hfound'⟩ := hmethods id (by simp [MethodRef.targets])
      simp [MethodRef.relink, Relink.fill, Relink.rename, hfound, hfound']
  | external owner name signature =>
      simp [MethodRef.relink, TypeRef.relink_rename, MethodSig.relink_rename,
        TypeRef.relinks.fill_types owner.targets_ofType htypes,
        MethodSig.relinks.fill_types signature.targets_ofType htypes]
  | instantiated method args =>
      have ih := MethodRef.fill_rename method htypes
        (fun id hid => hmethods id (by simp [MethodRef.targets, hid]))
        fun id hid => hkept id (by simp [MethodRef.targets, hid])
      simp [MethodRef.relink, ih, TypeSig.relinkList_rename,
        TypeSig.relinksList.fill_types (TypeSig.targetsList_ofType args) htypes]
termination_by structural ref

/-- A renaming that leaves the methods alone that a reference refers to leaves the reference alone.
-/
theorem MethodRef.relink_rename_self (ref : MethodRef)
    (hkept : ∀ id, .definition (.method id) ∈ ref.targets → id.renamed twin = id) :
    ref.relink (.rename twin) = ref := by
  cases ref with
  | definition id => simp [MethodRef.relink, Relink.rename, hkept id (by simp [MethodRef.targets])]
  | declared => simp [MethodRef.relink, Relink.rename]
  | external owner name signature =>
      simp [MethodRef.relink, TypeRef.relink_rename, MethodSig.relink_rename]
  | instantiated method args =>
      have ih := MethodRef.relink_rename_self method
        fun id hid => hkept id (by simp [MethodRef.targets, hid])
      simp [MethodRef.relink, ih, TypeSig.relinkList_rename]
termination_by structural ref

end Rename

end Graft
