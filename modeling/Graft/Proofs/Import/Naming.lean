import Graft.Proofs.Import.Mirroring

/-!
# Names of imported types

A top-level type whose mapping gives it no other name is declared by its full name, cut at the last
dot. That is under its own namespace and name if there is no dot in the name, and only then
(`importPatch_own_name_iff`).
-/

namespace Graft

theorem Declarations.Named.inj {decls : Declarations} {space space' name name' : String}
    {node : Declaration} (h : decls.Named (some space) name node)
    (h' : decls.Named (some space') name' node) : (space, name) = (space', name') := by
  have hspace := (h.2 space rfl).symm.trans (h'.2 space' rfl)
  have hname := h.1.symm.trans h'.1
  rw [Option.some.inj hspace, hname]

/-- A top-level type without another name is declared by the parts of its full name. -/
theorem Manifest.nameIn_top {manifest : Manifest} {defs : Definitions} {id : DefId .type}
    (htypes : defs.types.next ≠ 0) (houter : defs.outer? id = none)
    (hname : (manifest.mappings.get? (defs.token (.type id))).bind (·.targetName) = none) :
    manifest.nameIn defs (.type id) =
      let (space, name) :=
        Text.unqualify (Text.qualify (defs.type id).namespaceName (defs.type id).name)
      (some space, name) := by
  simp [nameIn, houter, targetName, hname, Definitions.typeName_eq_qualify htypes houter]

/-- Where types are mapped there are types. -/
theorem ImportJob.Ended.types_next_ne_zero {job : ImportJob} {world typed declared next : World}
    {patch : Patch} {types : List (Imported .type)} {members : Members}
    (h : job.Ended world patch types members typed declared next) {item : Counterpart}
    (hmem : item ∈ types.map (·.counterpart .type .type)) : world.defs.types.next ≠ 0 := by
  intro hzero
  obtain ⟨type, htype, -⟩ := List.mem_map.mp hmem
  have hview : (type.definition, type.intent) ∈
      types.map fun type => (type.definition, type.intent) := List.mem_map_of_mem htype
  rw [h.views] at hview
  simp [typesToDeclare, hzero, Forest.visit] at hview

/-- A mapped top-level type without another name stands for a declaration with its own namespace and
name exactly when there is no dot in its name. -/
theorem importPatch_own_name_iff {world next : World} {module : DefId .module}
    {manifest : Manifest} {patch : Patch}
    (hon : (Task.importPatch module manifest).on world = (.ok patch, next)) :
    ∃ items, (Task.importItems module manifest).on world = (.ok (patch, items), next) ∧
      ∀ item ∈ items, ∀ id, item.definition = .type id → world.defs.outer? id = none →
        (manifest.mappings.get? (world.defs.token (.type id))).bind (·.targetName) = none →
        (next.decls.Named (some (world.defs.type id).namespaceName) (world.defs.type id).name
          item.declaration ↔ '.' ∉ (world.defs.type id).name.toList) := by
  obtain ⟨items, hitems⟩ := Task.importItems_ok hon
  obtain ⟨job, types, members, typed, declared, rfl, rfl, rfl, h⟩ := Task.importItems_ended hitems
  refine ⟨_, hitems, fun item hitem id hdefinition houter hname => ?_⟩
  have htype : item ∈ types.map (·.counterpart .type .type) := by
    refine (List.mem_append.mp hitem).resolve_right fun hmember => ?_
    obtain ⟨_, -, rfl⟩ | ⟨_, -, rfl⟩ | ⟨_, -, rfl⟩ | ⟨_, -, rfl⟩ :=
      ImportJob.Members.mem_counterparts.mp hmember <;> cases hdefinition
  have hnamed := h.mapped.named item hitem
  rw [hdefinition, Manifest.nameIn_top (h.types_next_ne_zero htype) houter hname] at hnamed
  rw [← Text.unqualify_qualify_iff (world.defs.type id).namespaceName]
  constructor
  · exact fun hown => hnamed.inj hown
  · intro heq
    rwa [heq] at hnamed

end Graft
