import Graft.Proofs.Definition.Record
import Graft.Proofs.Signature.Naming
import Graft.Proofs.Signature.Renaming

/-!
# Retargeting references to types

Two graphs may differ in the identities of some types. `Relink.retarget` leads references from the
one to the other. What is filled in on the one side is what is filled in on the other side,
retargeted (`Relinks.fill_retarget`), and as long as types keep their names no comparison by name
tells the two apart (`TypeRef.same_retarget`).
-/

namespace Graft

/-- What a renaming of definitions makes of a type. -/
def DefId.retyped (twin : Definition → Definition) (id : DefId .type) : DefId .type :=
  ⟨(twin (.type id)).index⟩

/-- A renaming of definitions, as far as types are concerned. -/
def Relink.retarget (twin : Definition → Definition) : Relink where
  onType
    | .definition id => .definition (id.retyped twin)
    | ref => ref

section Retarget

variable {twin : Definition → Definition}

/-- A renaming that leaves the types alone that a reference refers to leaves the reference alone. -/
theorem TypeRef.relink_retarget_self {ref : TypeRef}
    (hkept : ∀ id, .definition (.type id) ∈ ref.targets → id.retyped twin = id) :
    ref.relink (.retarget twin) = ref := by
  suffices ref.relink (.retarget twin) = ref.relink (.rename twin) by
    rw [this, ref.relink_rename]
  refine TypeRef.relink_congr (by rfl) ref fun target hmem => ?_
  have htype := ref.targets_ofType target hmem
  cases target with
  | definition found =>
      cases found with
      | type id => simp [Relink.AgreesAt, Relink.retarget, Relink.rename, hkept id hmem]
      | module | field | method | property | event => cases htype
  | declaration asked =>
      cases asked with
      | type => simp [Relink.AgreesAt, Relink.retarget, Relink.rename]
      | module | field | method | property | event => cases htype
  | unknown => simp [Relink.AgreesAt]

theorem GenericParam.relink_retarget_self {param : GenericParam}
    (hkept : ∀ id, .definition (.type id) ∈ param.targets → id.retyped twin = id) :
    param.relink (.retarget twin) = param := by
  have hconstraints : param.constraints.map (TypeRef.relink (.retarget twin)) = param.constraints := by
    refine (List.map_congr_left fun type hmem => ?_).trans (List.map_id _)
    exact TypeRef.relink_retarget_self fun id hid => hkept id (List.mem_flatMap.mpr ⟨type, hmem, hid⟩)
  rw [GenericParam.relink, hconstraints]

section Fill

variable {α : Type} {targets : α → List Target} {relink : Relink → α → α} {answers answers' : Answers}

/-- What is filled in with renamed answers is what was filled in, renamed. -/
theorem Relinks.fill_retarget (h : Relinks targets relink) {value : α}
    (htypes : ∀ target ∈ targets value, target.OfType)
    (hanswers : ∀ id, .declaration (.type id) ∈ targets value → ∃ found,
      answers (.type id) = some (.type found) ∧
      answers' (.type id) = some (.type (found.retyped twin)))
    (hkept : ∀ id, .definition (.type id) ∈ targets value → id.retyped twin = id) :
    relink (.fill answers') value = relink (.retarget twin) (relink (.fill answers) value) := by
  rw [h.relink_relink]
  refine h.relink_congr (by rfl) value fun target hmem => ?_
  have htype := htypes target hmem
  match target with
  | .definition (.type id) =>
      simp [Relink.AgreesAt, Relink.andThen, Relink.fill, Relink.retarget, TypeRef.relink,
        hkept id hmem]
  | .declaration (.type id) =>
      obtain ⟨found, hfound, hfound'⟩ := hanswers id hmem
      simp [Relink.AgreesAt, Relink.andThen, Relink.fill, Relink.retarget, TypeRef.relink, hfound,
        hfound']
  | .unknown => trivial
  | .definition (.module _) | .definition (.field _) | .definition (.method _)
  | .definition (.property _) | .definition (.event _) | .declaration (.module _)
  | .declaration (.field _) | .declaration (.method _) | .declaration (.property _)
  | .declaration (.event _) => cases htype

/-- What is filled in for the constraints of a generic parameter is renamed as they are. -/
theorem GenericParam.fill_retarget {param : GenericParam}
    (hanswers : ∀ id, .declaration (.type id) ∈ param.targets → ∃ found,
      answers (.type id) = some (.type found) ∧
      answers' (.type id) = some (.type (found.retyped twin)))
    (hkept : ∀ id, .definition (.type id) ∈ param.targets → id.retyped twin = id) :
    param.relink (.fill answers') = (param.relink (.fill answers)).relink (.retarget twin) := by
  have htargets {type : TypeRef} (hmem : type ∈ param.constraints) : type.targets ⊆ param.targets :=
    fun _ htarget => List.mem_flatMap.mpr ⟨type, hmem, htarget⟩
  simp only [GenericParam.relink, List.map_map]
  refine congrArg (GenericParam.mk _ _ _) (List.map_congr_left fun type hmem => ?_)
  exact TypeRef.relinks.fill_retarget type.targets_ofType
    (fun id hid => hanswers id (htargets hmem hid)) fun id hid => hkept id (htargets hmem hid)

end Fill

/-- Whether types that are renamed keep their names, as far as targets refer to them. -/
def TypeNames.Retargets (names names' : TypeNames) (twin : Definition → Definition)
    (targets : List Target) : Prop :=
  ∀ id, .definition (.type id) ∈ targets → names'.definition (id.retyped twin) = names.definition id

variable {names names' : TypeNames} {targets : List Target} {options : Comparison}

theorem TypeNames.Retargets.shows (h : names.Retargets names' twin targets)
    (hdeclaration : names'.declaration = names.declaration) (hscope : options.ignoreScope = true) :
    (Relink.retarget twin).Shows names' names options targets := by
  intro target hmem
  match target with
  | .definition (.type id) =>
      simp [Relink.ShowsAt, Relink.retarget, TypeRef.normal, hscope, TypeRef.fullName, h id hmem]
  | .declaration (.type id) =>
      simp [Relink.ShowsAt, Relink.retarget, TypeRef.normal, hscope, TypeRef.fullName, hdeclaration]
  | .definition (.module _) | .definition (.field _) | .definition (.method _)
  | .definition (.property _) | .definition (.event _) | .declaration (.module _)
  | .declaration (.field _) | .declaration (.method _) | .declaration (.property _)
  | .declaration (.event _) | .unknown => trivial

/-- References to types that keep their names agree as they did. -/
theorem TypeRef.same_retarget {left right : TypeRef}
    (hleft : names.Retargets names' twin left.targets)
    (hright : names.Retargets names' twin right.targets)
    (hdeclaration : names'.declaration = names.declaration) (hscope : options.ignoreScope = true) :
    (left.relink (.retarget twin)).same names' options (right.relink (.retarget twin)) =
      left.same names options right := by
  rw [Bool.eq_iff_iff, TypeRef.same_iff, TypeRef.same_iff,
    left.normal_relink (hleft.shows hdeclaration hscope),
    right.normal_relink (hright.shows hdeclaration hscope)]

end Retarget

end Graft
