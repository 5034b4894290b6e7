import Graft.Proofs.Signature.Filling

/-!
# References without owners, and bare shapes

Owners of generic variables are disregarded: `Relink.bare` forgets them. What a reference refers to
does not depend on them, and neither does how it is filled in. `Relink.blank` forgets besides what a
reference refers to; filling in does not change the shape that is left (`fill_blank`).
-/

namespace Graft

/-- A way to relink that forgets who owns generic variables. -/
def Relink.bare : Relink where
  onOwner := fun _ => .unbound

/-- A way to relink that leaves nothing but the shape. -/
def Relink.blank : Relink where
  onType _ := .definition ⟨0⟩
  onField _ := .definition ⟨0⟩
  onMethod _ := .definition ⟨0⟩
  onOwner _ := .deferred ⟨0⟩

section Bare

variable {answers : Answers}

@[simp] theorem image_bare (target : Target) : Relink.bare.image target = [target] := by
  cases target with
  | definition definition =>
      cases definition <;> simp [Relink.image, Relink.bare, TypeRef.targets, FieldRef.targets,
        MethodRef.targets]
  | declaration declaration =>
      cases declaration <;> simp [Relink.image, Relink.bare, TypeRef.targets, FieldRef.targets,
        MethodRef.targets]
  | unknown => simp [Relink.image]

@[simp] theorem flatMap_image_bare (targets : List Target) :
    targets.flatMap Relink.bare.image = targets := by
  simp [funext image_bare]

theorem bare_onOwner :
    ((Relink.fill answers).andThen .bare).onOwner = (Relink.bare.andThen (.fill answers)).onOwner :=
  rfl

/-- Owners are forgotten before filling in as well as after it. -/
theorem bare_agrees (target : Target) :
    ((Relink.fill answers).andThen .bare).AgreesAt (Relink.bare.andThen (.fill answers))
      target := by
  cases target with
  | unknown => trivial
  | definition definition =>
      cases definition <;> simp [Relink.AgreesAt, Relink.andThen, Relink.fill, Relink.bare,
        TypeRef.relink, FieldRef.relink, MethodRef.relink]
  | declaration declaration =>
      cases declaration <;> simp only [Relink.AgreesAt, Relink.andThen, Relink.bare, id_eq]
      case type id =>
        rw [TypeRef.relink, Relink.fill]
        dsimp only
        split <;> simp [TypeRef.relink]
      case field id =>
        rw [FieldRef.relink.eq_3, Relink.fill]
        dsimp only
        split <;> simp [FieldRef.relink]
      case method id =>
        rw [MethodRef.relink, Relink.fill]
        dsimp only
        split <;> simp [MethodRef.relink]

theorem blank_onOwner : ((Relink.fill answers).andThen .blank).onOwner = Relink.blank.onOwner :=
  rfl

/-- What is filled in for a target has its shape. -/
theorem blank_agrees (target : Target) :
    ((Relink.fill answers).andThen .blank).AgreesAt .blank target := by
  cases target with
  | unknown => trivial
  | definition definition =>
      cases definition <;> simp [Relink.AgreesAt, Relink.andThen, Relink.fill, Relink.blank,
        TypeRef.relink, FieldRef.relink, MethodRef.relink]
  | declaration declaration =>
      cases declaration <;> simp only [Relink.AgreesAt, Relink.andThen, Relink.blank]
      case type id =>
        rw [Relink.fill]
        dsimp only
        split <;> simp [TypeRef.relink]
      case field id =>
        rw [Relink.fill]
        dsimp only
        split <;> simp [FieldRef.relink]
      case method id =>
        rw [Relink.fill]
        dsimp only
        split <;> simp [MethodRef.relink]

@[simp] theorem image_self (target : Target) : ({} : Relink).image target = [target] := by
  cases target with
  | definition definition | declaration definition =>
      cases definition <;> simp [Relink.image, TypeRef.targets, FieldRef.targets,
        MethodRef.targets]
  | unknown => simp [Relink.image]

/-- Relinking nothing does nothing, owners aside. -/
theorem self_agrees (target : Target) :
    (Relink.andThen {} .bare).AgreesAt Relink.bare target := by
  cases target with
  | unknown => trivial
  | definition definition | declaration definition =>
      cases definition <;> simp [Relink.AgreesAt, Relink.andThen, Relink.bare, TypeRef.relink,
        FieldRef.relink, MethodRef.relink]

namespace Relinks

variable {α : Type} {targets : α → List Target} {relink : Relink → α → α} {value value' : α}

theorem targets_of_bare (h : Relinks targets relink)
    (hbare : relink .bare value = relink .bare value') : targets value = targets value' := by
  simpa [h.targets_relink] using congrArg targets hbare

/-- What is alike but for owners is filled in alike. -/
theorem fill_bare (h : Relinks targets relink) (hbare : relink .bare value = relink .bare value') :
    relink .bare (relink (.fill answers) value) = relink .bare (relink (.fill answers) value') := by
  have hswap (value : α) :
      relink .bare (relink (.fill answers) value) =
        relink (.fill answers) (relink .bare value) := by
    rw [h.relink_relink, h.relink_relink]
    exact h.relink_congr bare_onOwner value fun target _ => bare_agrees target
  rw [hswap, hbare, ← hswap]

/-- Filling in keeps the shape. -/
theorem fill_blank (h : Relinks targets relink) (value : α) :
    relink .blank (relink (.fill answers) value) = relink .blank value := by
  rw [h.relink_relink]
  exact h.relink_congr blank_onOwner value fun target _ => blank_agrees target

theorem bare_self (h : Relinks targets relink) (value : α) :
    relink .bare (relink {} value) = relink .bare value := by
  have howner : (Relink.andThen {} .bare).onOwner = Relink.bare.onOwner := rfl
  rw [h.relink_relink]
  exact h.relink_congr howner value fun target _ => self_agrees target

theorem fill_mono {answers' : Answers} (h : Relinks targets relink)
    (hextends : answers.Extends answers') (hsettles : answers.SettlesAll (targets value)) :
    relink (.fill answers') value = relink (.fill answers) value :=
  (h.relink_congr fill_onOwner value fun _ ht => fill_agrees hextends (hsettles _ ht)).symm

end Relinks

end Bare

end Graft
