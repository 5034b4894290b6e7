import Graft.Proofs.Import.Basing
import Graft.Proofs.Import.Mapping
import Graft.Proofs.Install.Separating
import Graft.Proofs.Session.Calls

/-!
# Base types of added types

Where no declaration states a base type, a session gives none to any definition (`Moment.Run.base?`). So
an imported patch gives no type a base type when it is installed, whatever base types the types of the
patch module have (`import_adds_no_base`, `base_lost`).
-/

namespace Graft

/-- The base type of a definition, if it has one. -/
def Definitions.base? (defs : Definitions) (definition : Definition) : Option TypeRef :=
  (defs.record? definition).bind (·.details.base)

namespace Definitions

variable {defs defs' : Definitions} {parent made changed definition : Definition} {record : Record}
  {change : Record → Record}

theorem Changes.base? (h : defs.Changes defs' changed change)
    (hchange : ∀ record, (change record).details.base = record.details.base)
    (definition : Definition) : defs'.base? definition = defs.base? definition := by
  rw [Definitions.base?, Definitions.base?, h.record?]
  split
  · cases defs.record? definition with
    | none => rfl
    | some record => exact hchange record
  · rfl

theorem Makes.base? (h : defs.Makes defs' made record) (hbase : record.details.base = none)
    (definition : Definition) : defs'.base? definition = defs.base? definition := by
  rw [Definitions.base?, Definitions.base?, h.record?]
  split
  · rename_i heq
    rw [heq, record?_eq_none_of_fresh h.fresh]
    exact hbase
  · rfl

theorem Adds.base? (h : defs.Adds defs' parent made record) (hbase : record.details.base = none)
    (definition : Definition) : defs'.base? definition = defs.base? definition := by
  rw [Definitions.base?, Definitions.base?, h.record?]
  split
  · rename_i heq
    rw [heq, record?_eq_none_of_fresh h.fresh]
    exact hbase
  · split
    · cases defs.record? definition <;> rfl
    · rfl

end Definitions

namespace Moment

variable {asked : Declaration → Prop} {mode : Mode} {now next : Moment}
  {modules : Dictionary String (DefId .module)} {saves : Dictionary String Nat}

/-- Where nothing that is asked for states a base type, a step changes that of no definition. -/
theorem Step.base? (hstep : Step asked mode now next)
    (hnone : ∀ node, asked node → (now.decls.statement node).base = none)
    (hmemory : now.world.source now.session.source = .memory modules saves) (definition : Definition) :
    next.defs.base? definition = now.defs.base? definition := by
  cases hstep with
  | quiet hquiet => exact congrArg (Definitions.base? · definition) hquiet.defs
  | load hstack hasked hname hmissing hload =>
      rw [Task.load_memory hmemory] at hload
      have hworld : now.world = _ := congrArg Prod.snd hload
      exact congrArg (fun world : World => world.defs.base? definition) hworld.symm
  | enter | locate | confirm | remember | abandon => rfl
  | makeModule => exact (Definitions.makeModule_makes _ _).base? rfl definition
  | create hstack hasked hwritable hpolicy hmissing hparent hholder hkind hrenders hadds hbuilds =>
      exact hadds.base? (by rw [hrenders.details]) definition
  | @amend declaration _ _ amendment _ hstack hasked hwritable hstated hchanges =>
      refine hchanges.base? (fun record => ?_) definition
      cases amendment with
      | base type =>
          obtain ⟨declared, hdeclared, -⟩ := hstated
          cases (hnone declaration hasked).symm.trans hdeclared
      | flags | interface | generics | override | accessor => rfl
  | hide hhides hasked hwritable hmemo hrecord howner hunused hnature hdetails hbody hmembers hadds =>
      exact hadds.base? (by rw [hdetails]) definition
  | graft hgrafts hasked hwritable hmemo hchanges => exact hchanges.base? (fun _ => rfl) definition

theorem Run.base? (hrun : Run asked mode now next) (hsound : now.Sound)
    (hnone : ∀ node, asked node → (now.decls.statement node).base = none)
    (hmemory : now.world.source now.session.source = .memory modules saves) (definition : Definition) :
    next.defs.base? definition = now.defs.base? definition := by
  induction hrun with
  | refl => rfl
  | @tail middle last hrun hstep ih =>
      have hlater := Run.later hrun hsound
      have hkept : middle.world.source middle.session.source = .memory modules saves := by
        rw [hlater.source, World.source, hlater.sources]
        exact hmemory
      exact (hstep.base? (hlater.decls ▸ hnone) hkept definition).trans ih

end Moment

open Moment

/-- An imported patch changes the base type of no definition when it is installed, and gives none to
those that it adds, unless something that the patch module refers to states one. -/
theorem import_adds_no_base {world imported : World} {module : DefId .module} {manifest : Manifest}
    {lent : Declaration → Prop} {patch : Patch} {source : SourceId} {config : InstallConfig}
    {report : InstallReport} {final : SessionState} {modules : Dictionary String (DefId .module)}
    {saves : Dictionary String Nat} (hmemory : world.source source = .memory modules saves)
    (hsource : (world.source source).Sound world.defs)
    (hplain : (ImportSetting.of world module manifest lent).Plain)
    (hlent : imported.Reaches [] lent)
    (hnone : ∀ node, lent node → (imported.decls.statement node).base = none)
    (himport : (Task.importPatch module manifest).on world = (.ok patch, imported))
    (hon : (SessionTask.install config [patch]).on ⟨{ source }, imported⟩ = (.ok report, final))
    (definition : Definition) : final.world.defs.base? definition = world.defs.base? definition := by
  obtain ⟨himporting, hmodules⟩ := ImportSetting.importPatch_ok hplain himport
  have hsame : imported.source source = world.source source := by
    rw [World.source, World.source, himporting.sources]
    rfl
  have hsound : (begin source imported).Sound := by
    refine sound_begin (himporting.defs ▸ hplain.held) ?_
    rw [hsame, himporting.defs]
    exact hsource
  -- An import leaves the base types out, so only what the patch module is lent may state one.
  have hunbased (node : Declaration)
      (hnode : (ImportSetting.of world module manifest lent).Asked imported node) :
      (imported.decls.statement node).base = none := by
    rcases hnode with ⟨hfresh, -⟩ | hold
    · cases node with
      | type id =>
          have hnone : (world.decls.type id).base = none := by
            have habsent : world.decls.types.get? id.index = none := by
              simpa [Declarations.has, Table.has, ImportSetting.of] using hfresh
            rw [Declarations.type, habsent]
            rfl
          cases hbase : (imported.decls.type id).base with
          | none => exact hbase
          | some base =>
              have hbefore := importPatch_unbased module manifest world id base
              rw [himport] at hbefore
              cases hnone.symm.trans (hbefore hbase)
      | module | field | method | property | event => rfl
    · exact hnone node hold
  have hwalk (node : Declaration) (hmem : node ∈ patch.modules.flatMap imported.decls.walk) :
      (ImportSetting.of world module manifest lent).Asked imported node := by
    obtain ⟨id, hid, hmem⟩ := List.mem_flatMap.mp hmem
    exact .inl (himporting.new_walk (hmodules id hid) node hmem)
  obtain ⟨hidden, first, middle, last, hinstalled, -, hgraph, -⟩ :=
    install_ok hsound (himporting.reaches hlent) hwalk hon
  have hkept := hinstalled.run.base? hsound hunbased (hsame.trans hmemory) definition
  rw [hgraph.defs]
  exact hkept.trans (congrArg (Definitions.base? · definition) himporting.defs)

/-- A patch module with a type that has a base type, and a module without types. -/
def World.heir : World :=
  let (mod, defs) := ({} : Definitions).makeModule { name := "Mod" }
  let (_, defs) := defs.addType mod
    { namespaceName := "Core"
      name := "Fault"
      flags := 1
      base := some (.external (.topLevel "mscorlib" "System" "Exception")) }
  let (game, defs) := defs.makeModule { name := "Game" }
  { defs, sources := ⟨#[some (.memory ⟨[("Game", game)]⟩ {})]⟩ }

/-- The manifest by which the type is added. -/
def Manifest.heir : Manifest where
  required := [("Game", false)]
  mappings := ⟨[(.ofParts .typeDef 1, { intent := .inject })]⟩

/-- A type that is added need not have the base type of the type that it is added for. -/
theorem base_lost :
    ¬ ∀ (world imported : World) (module : DefId .module) (manifest : Manifest) (patch : Patch)
      (items : List Counterpart) (source : SourceId) (config : InstallConfig) (report : InstallReport)
      (final : SessionState), world.defs.Held → (world.source source).Sound world.defs →
      (Task.importItems module manifest).on world = (.ok (patch, items), imported) →
      (SessionTask.install config [patch]).on ⟨{ source }, imported⟩ = (.ok report, final) →
      ∀ item ∈ items, item.intent = .inject → ∀ made,
        final.session.resolved.get? item.declaration = some made →
        (final.world.defs.base? made).isSome = (world.defs.base? item.definition).isSome := by
  intro h
  have hitems : ((Task.importItems ⟨0⟩ .heir).on .heir).1 =
      .ok ({ name := "Mod", modules := [⟨0⟩] }, [⟨.type ⟨0⟩, .inject, .type ⟨0⟩⟩]) := by
    decide +kernel
  have hinstalled : ((SessionTask.install {} [{ name := "Mod", modules := [⟨0⟩] }]).on
      ⟨{ source := ⟨0⟩ }, ((Task.importItems ⟨0⟩ .heir).on .heir).2⟩).1 =
        .ok { patches := ["Mod"], saved := ["Game"], resolved := 2 } := by
    decide +kernel
  have hmade : ((SessionTask.install {} [{ name := "Mod", modules := [⟨0⟩] }]).on
      ⟨{ source := ⟨0⟩ }, ((Task.importItems ⟨0⟩ .heir).on .heir).2⟩).2.session.resolved.get?
        (.type ⟨0⟩) = some (.type ⟨1⟩) := by
    decide +kernel
  have hlost : (((SessionTask.install {} [{ name := "Mod", modules := [⟨0⟩] }]).on
      ⟨{ source := ⟨0⟩ }, ((Task.importItems ⟨0⟩ .heir).on .heir).2⟩).2.world.defs.base?
        (.type ⟨1⟩)).isSome = false := by
    decide +kernel
  cases himport : (Task.importItems ⟨0⟩ .heir).on .heir with
  | mk outcome imported =>
      rw [himport] at hitems hinstalled hmade hlost
      cases hitems
      cases hon : (SessionTask.install {} [{ name := "Mod", modules := [⟨0⟩] }]).on
          ⟨{ source := ⟨0⟩ }, imported⟩ with
      | mk outcome final =>
          rw [hon] at hinstalled hmade hlost
          cases hinstalled
          have hkept := h _ imported _ _ _ _ ⟨0⟩ {} _ final (by decide +kernel)
            (Source.sound_memory (by decide +kernel)) himport hon _ (List.mem_singleton.mpr rfl) rfl _
            hmade
          rw [hlost] at hkept
          revert hkept
          decide +kernel

end Graft
