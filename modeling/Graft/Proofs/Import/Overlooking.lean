import Graft.Proofs.Import.Mirroring

/-!
# Definitions that an import overlooks

A manifest may map any definition of a patch module. Types that it maps are declared, and the import
fails if the type around one of them is not. Members are looked for in declared types only: one that the
manifest maps is declared if and only if the type around it is (`importPatch_regards`), and else it is
overlooked without a word (`member_overlooked`).
-/

namespace Graft

namespace Manifest

variable {manifest : Manifest} {defs : Definitions} {module : DefId .module} {id : DefId .type}
  {definition : Definition} {intent : Option Intent} {mapping : Mapping}

/-- Every type of a patch module is for something or for nothing. -/
theorem exists_means (manifest : Manifest) (hbelow : defs.Below (.module module) (.type id)) :
    ∃ intent, manifest.Means defs module (.type id) intent := by
  refine hbelow.type_induction
    (P := fun id => ∃ intent, manifest.Means defs module (.type id) intent) nofun ?_ ?_
  · rintro _ ⟨⟩ id hmem
    exact ⟨_, .top hmem⟩
  · rintro outer - ⟨intent, hintent⟩ id hmem
    exact ⟨_, .inside hintent (Definitions.type_mem_type.mpr hmem)⟩

/-- What is mapped is for what its mapping says. -/
theorem Means.of_mapping (h : manifest.Means defs module definition intent)
    (hmapping : manifest.mappings.get? (defs.token definition) = some mapping) :
    intent = some mapping.intent := by
  cases h <;> simp [intentOf, hmapping]

/-- Whether an import goes by the mappings of a manifest, where `items` lists what is declared for what.
-/
structure Regards (manifest : Manifest) (defs : Definitions) (module : DefId .module)
    (items : List Counterpart) : Prop where
  /-- Every type with a mapping is declared. -/
  types : ∀ id mapping, defs.Below (.module module) (.type id) →
    manifest.mappings.get? (defs.token (.type id)) = some mapping →
    ∃ item ∈ items, item.view = (.type id, mapping.intent)
  /-- No type is declared unless the type around it is. -/
  nested : ∀ outer id, defs.Below (.module module) (.type outer) →
    .type id ∈ defs.members (.type outer) .type → (∃ item ∈ items, item.definition = .type id) →
    ∃ item ∈ items, item.definition = .type outer
  /-- A member with a mapping is declared if and only if the type around it is. -/
  members : ∀ owner member kind mapping, defs.Below (.module module) (.type owner) → kind ≠ .type →
    member ∈ defs.members (.type owner) kind →
    manifest.mappings.get? (defs.token member) = some mapping →
    ((∃ item ∈ items, item.view = (member, mapping.intent)) ↔
      ∃ item ∈ items, item.definition = .type owner)

end Manifest

variable {world next : World} {module : DefId .module} {manifest : Manifest} {patch : Patch}

/-- A patch that is imported from a tidy patch module goes by the mappings of types, and by those of
members in types that are declared. -/
theorem importPatch_regards (htidy : world.defs.Tidy module)
    (hon : (Task.importPatch module manifest).on world = (.ok patch, next)) :
    ∃ items, (Task.importItems module manifest).on world = (.ok (patch, items), next) ∧
      manifest.Regards world.defs module items := by
  obtain ⟨items, hitems⟩ := Task.importItems_ok hon
  obtain ⟨job, types, members, typed, declared, rfl, rfl, rfl, h⟩ := Task.importItems_ended hitems
  refine ⟨_, hitems, ⟨fun id mapping hbelow hmapping => ?_, fun outer id hbelow hmem hitem => ?_,
    fun owner member kind mapping hbelow hkind hmem hmapping => ⟨?_, ?_⟩⟩⟩
  · obtain ⟨intent, hmeans⟩ := job.manifest.exists_means hbelow
    cases hmeans.of_mapping hmapping
    exact (h.maps htidy).mpr (.type hmeans)
  · obtain ⟨item, hitem, hdefinition⟩ := hitem
    obtain ⟨holder, -, hlands, -⟩ := h.mapped.lands item hitem
    have hplaces := h.places htidy hitem hlands
    rw [hdefinition] at hplaces
    cases hplaces with
    | top htop =>
        cases htidy.holder_eq .top hbelow (Definitions.type_mem_module.mpr htop) hmem
    | inside haround haroundDefinition hlisted =>
        have hwithin := (((h.maps htidy).mp ⟨_, haround, rfl⟩).within : world.defs.Below _ _)
        rw [haroundDefinition] at hwithin
        cases htidy.holder_eq hwithin hbelow hlisted hmem
        exact ⟨_, haround, haroundDefinition⟩
  · intro hitem
    have hmapped := (h.maps htidy).mp hitem
    cases hmapped with
    | type => exact absurd (Definitions.kind_of_mem_members hmem).symm hkind
    | member howner _ hlisted =>
        cases htidy.holder_eq howner.within hbelow hlisted hmem
        obtain ⟨item, hitem, hview⟩ := (h.maps htidy).mpr (.type howner)
        exact ⟨item, hitem, congrArg Prod.fst hview⟩
  · rintro ⟨item, hitem, hdefinition⟩
    have hmapped := (h.maps htidy).mp ⟨item, hitem, rfl⟩
    rw [hdefinition] at hmapped
    cases hmapped with
    | type howner =>
        exact (h.maps htidy).mpr
          (.member howner hkind hmem (by simp [Manifest.intentOf, hmapping]))
    | member _ hother hlisted =>
        exact absurd (Definitions.kind_of_mem_members hlisted).symm hother

/-- A patch module with a type that has a field. -/
def World.gadget : World :=
  let (mod, defs) := ({} : Definitions).makeModule { name := "Mod" }
  let (panel, defs) := defs.addType mod { namespaceName := "Ui", name := "Panel", flags := 1 }
  { defs := (defs.addField panel { name := "Angle", flags := 6, signature := .primitive .int32 }).2 }

theorem World.tidy_gadget : World.gadget.defs.Tidy ⟨0⟩ :=
  Definitions.tidy_of_closed [.module ⟨0⟩, .type ⟨0⟩, .field ⟨0⟩]
    (by decide) (by decide +kernel) (by decide +kernel) (by decide +kernel) (by decide +kernel)

/-- The manifest by which the field is added, while nothing is said about its type. -/
def Manifest.gadget : Manifest where
  required := [("Game", false)]
  mappings := ⟨[(.ofParts .field 1, { intent := .inject })]⟩

/-- A member that a manifest maps may be overlooked. -/
theorem member_overlooked :
    ¬ ∀ world next module manifest patch, world.defs.Tidy module →
      (Task.importPatch module manifest).on world = (.ok patch, next) →
      ∃ items, (Task.importItems module manifest).on world = (.ok (patch, items), next) ∧
        ∀ definition mapping, world.defs.Below (.module module) definition →
          manifest.mappings.get? (world.defs.token definition) = some mapping →
          ∃ item ∈ items, item.view = (definition, mapping.intent) := by
  intro h
  have himported : ((Task.importPatch ⟨0⟩ .gadget).on .gadget).1 =
      .ok { name := "Mod", modules := [⟨0⟩] } := by
    decide +kernel
  have hitems : ((Task.importItems ⟨0⟩ .gadget).on .gadget).1 =
      .ok ({ name := "Mod", modules := [⟨0⟩] }, []) := by
    decide +kernel
  have hpanel : World.gadget.defs.Below (.module ⟨0⟩) (.type ⟨0⟩) :=
    .member .top (by decide +kernel : .type ⟨0⟩ ∈ World.gadget.defs.members (.module ⟨0⟩) .type)
  have hbelow : World.gadget.defs.Below (.module ⟨0⟩) (.field ⟨0⟩) :=
    .member hpanel (by decide +kernel : .field ⟨0⟩ ∈ World.gadget.defs.members (.type ⟨0⟩) .field)
  cases himport : (Task.importPatch ⟨0⟩ .gadget).on .gadget with
  | mk outcome imported =>
      rw [himport] at himported
      cases himported
      obtain ⟨items, hon, hregards⟩ := h _ _ _ _ _ World.tidy_gadget himport
      rw [hon] at hitems
      cases hitems
      obtain ⟨item, hitem, -⟩ := hregards (.field ⟨0⟩) { intent := .inject } hbelow (by decide +kernel)
      exact absurd hitem List.not_mem_nil

end Graft
