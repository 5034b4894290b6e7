import Graft.Proofs.Signature.Targets

/-!
# Filling in what declarations stand for

`Relink.fill` replaces the declarations in a reference by the definitions they stand for, as far as
that is known. A reference whose targets are all settled is filled in for good: whoever learns more
fills it in alike (`fill_agrees`), and what is filled in leads to definitions only
(`mem_image_fill`).
-/

namespace Graft

/-- What declarations stand for, as far as it is known. -/
abbrev Answers := Declaration → Option Definition

namespace Answers

/-- Whether a target is known: a definition, or a declaration that stands for one of its kind. -/
def Settles (answers : Answers) : Target → Prop
  | .definition _ => True
  | .declaration declaration =>
    ∃ definition, answers declaration = some definition ∧ definition.kind = declaration.kind
  | .unknown => False

/-- Whether all of some targets are known. -/
def SettlesAll (answers : Answers) (targets : List Target) : Prop :=
  ∀ target ∈ targets, answers.Settles target

/-- Whether everything known stays known. -/
def Extends (answers answers' : Answers) : Prop :=
  ∀ declaration definition, answers declaration = some definition →
    answers' declaration = some definition

variable {answers answers' : Answers} {targets targets' : List Target}

theorem Settles.mono {target : Target} (hextends : answers.Extends answers')
    (h : answers.Settles target) : answers'.Settles target := by
  cases target with
  | definition | unknown => exact h
  | declaration declaration =>
      obtain ⟨definition, hknown, hkind⟩ := h
      exact ⟨definition, hextends _ _ hknown, hkind⟩

theorem SettlesAll.mono (hextends : answers.Extends answers')
    (h : answers.SettlesAll targets) : answers'.SettlesAll targets :=
  fun target ht => (h target ht).mono hextends

@[simp] theorem settlesAll_nil : answers.SettlesAll [] := by
  simp [SettlesAll]

@[simp] theorem settlesAll_append :
    answers.SettlesAll (targets ++ targets') ↔
      answers.SettlesAll targets ∧ answers.SettlesAll targets' := by
  exact List.forall_mem_append

theorem settlesAll_flatMap {α : Type} {items : List α} {f : α → List Target} :
    answers.SettlesAll (items.flatMap f) ↔ ∀ item ∈ items, answers.SettlesAll (f item) := by
  simp only [SettlesAll, List.mem_flatMap]
  exact ⟨fun h item hi target ht => h target ⟨item, hi, ht⟩,
    fun h target ⟨item, hi, ht⟩ => h item hi target ht⟩

end Answers

/-- A way to relink that puts in what declarations stand for. -/
def Relink.fill (answers : Answers) : Relink where
  onType
    | .declared id =>
      match answers (.type id) with
      | some (.type found) => .definition found
      | _ => .declared id
    | ref => ref
  onField
    | .declared id =>
      match answers (.field id) with
      | some (.field found) => .definition found
      | _ => .declared id
    | ref => ref
  onMethod
    | .declared id =>
      match answers (.method id) with
      | some (.method found) => .definition found
      | _ => .declared id
    | ref => ref

section Fill

variable {answers answers' : Answers} {target target' : Target}

theorem fill_onOwner : (Relink.fill answers).onOwner = (Relink.fill answers').onOwner := rfl

/-- More knowledge fills settled targets in alike. -/
theorem fill_agrees (hextends : answers.Extends answers') (h : answers.Settles target) :
    (Relink.fill answers).AgreesAt (.fill answers') target := by
  cases target with
  | unknown => trivial
  | definition definition => cases definition <;> simp [Relink.AgreesAt, Relink.fill]
  | declaration declaration =>
      obtain ⟨definition, hknown, -⟩ := h
      have hknown' := hextends _ _ hknown
      cases declaration <;> simp [Relink.AgreesAt, Relink.fill, hknown, hknown']

/-- A settled target is filled in by itself or by the definition that it stands for. -/
theorem mem_image_fill (h : answers.Settles target)
    (hmem : target' ∈ (Relink.fill answers).image target) :
    target' = target ∨ ∃ declaration definition, target = .declaration declaration ∧
      answers declaration = some definition ∧ target' = .definition definition := by
  cases target with
  | unknown => exact absurd h id
  | definition definition =>
      left
      cases definition <;>
        simpa [Relink.image, Relink.fill, TypeRef.targets, FieldRef.targets, MethodRef.targets]
          using hmem
  | declaration declaration =>
      obtain ⟨definition, hknown, hkind⟩ := h
      cases declaration <;> cases definition <;>
        simp_all [Relink.image, Relink.fill, TypeRef.targets, FieldRef.targets,
          MethodRef.targets, Definition.kind, Declaration.kind]

/-- Filling in settled targets leaves nothing of unknown shape. -/
theorem unknown_notMem_image_fill {targets : List Target} (h : answers.SettlesAll targets) :
    .unknown ∉ targets.flatMap (Relink.fill answers).image := by
  rw [List.mem_flatMap]
  rintro ⟨target, htarget, hmem⟩
  rcases mem_image_fill (h target htarget) hmem with rfl | ⟨_, _, -, -, heq⟩
  · exact h _ htarget
  · cases heq

theorem TypeRef.fill_mono (hextends : answers.Extends answers') {ref : TypeRef}
    (h : answers.SettlesAll ref.targets) :
    ref.relink (.fill answers') = ref.relink (.fill answers) :=
  (ref.relink_congr fill_onOwner fun _ ht => fill_agrees hextends (h _ ht)).symm

theorem TypeSig.fill_mono (hextends : answers.Extends answers') {signature : TypeSig}
    (h : answers.SettlesAll signature.targets) :
    signature.relink (.fill answers') = signature.relink (.fill answers) :=
  (signature.relink_congr fill_onOwner fun _ ht => fill_agrees hextends (h _ ht)).symm

theorem TypeSig.fillList_mono (hextends : answers.Extends answers') {signatures : List TypeSig}
    (h : answers.SettlesAll (TypeSig.targetsList signatures)) :
    TypeSig.relinkList (.fill answers') signatures = TypeSig.relinkList (.fill answers) signatures :=
  (TypeSig.relinkList_congr fill_onOwner signatures fun _ ht => fill_agrees hextends (h _ ht)).symm

theorem MethodSig.fill_mono (hextends : answers.Extends answers') {signature : MethodSig}
    (h : answers.SettlesAll signature.targets) :
    signature.relink (.fill answers') = signature.relink (.fill answers) :=
  (signature.relink_congr fill_onOwner fun _ ht => fill_agrees hextends (h _ ht)).symm

theorem FieldRef.fill_mono (hextends : answers.Extends answers') {ref : FieldRef}
    (h : answers.SettlesAll ref.targets) :
    ref.relink (.fill answers') = ref.relink (.fill answers) :=
  (ref.relink_congr fill_onOwner fun _ ht => fill_agrees hextends (h _ ht)).symm

theorem MethodRef.fill_mono (hextends : answers.Extends answers') {ref : MethodRef}
    (h : answers.SettlesAll ref.targets) :
    ref.relink (.fill answers') = ref.relink (.fill answers) :=
  (ref.relink_congr fill_onOwner fun _ ht => fill_agrees hextends (h _ ht)).symm

theorem PropertySig.fill_mono (hextends : answers.Extends answers') {signature : PropertySig}
    (h : answers.SettlesAll signature.targets) :
    signature.relink (.fill answers') = signature.relink (.fill answers) :=
  (signature.relink_congr fill_onOwner fun _ ht => fill_agrees hextends (h _ ht)).symm

theorem GenericParam.fill_mono (hextends : answers.Extends answers') {param : GenericParam}
    (h : answers.SettlesAll param.targets) :
    param.relink (.fill answers') = param.relink (.fill answers) :=
  (param.relink_congr fill_onOwner fun _ ht => fill_agrees hextends (h _ ht)).symm

theorem Override.fill_mono (hextends : answers.Extends answers') {override : Override}
    (h : answers.SettlesAll override.targets) :
    override.relink (.fill answers') = override.relink (.fill answers) :=
  (override.relink_congr fill_onOwner fun _ ht => fill_agrees hextends (h _ ht)).symm

end Fill

end Graft
