import Graft.Proofs.Import.Patching
import Graft.Proofs.Install.Installing

/-!
# Installing an imported patch

All that an import declares is closed, and refers to nothing of the patch module. So an installation
of the imported patch keeps every module that it works on apart from the patch module
(`importPatch_apart`), in the bodies as well. A patch module that refers to declarations may bring
itself into a target by way of them (`patch_module_declared`).
-/

namespace Graft

/-- Whether declarations lead to nothing that belongs to a module, whatever is done for them. -/
structure World.Avoids (world : World) (source : SourceId) (module : DefId .module)
    (asked : Declaration → Prop) : Prop where
  reaches : world.Reaches [] asked
  stated : ∀ declaration, asked declaration →
    ∀ target ∈ (world.decls.statement declaration).targets,
      ¬ target.Into fun definition => world.defs.home? definition = some module
  lends : ∀ id, asked (.module id) → world.Lends source module
    (fun definition => world.defs.home? definition = some module) (world.decls.module id).name

theorem World.avoids_none {world : World} {source : SourceId} {module : DefId .module} :
    world.Avoids source module fun _ => False where
  reaches := ⟨by simp, ⟨nofun, nofun, nofun⟩, nofun⟩
  stated := nofun
  lends := nofun

namespace ImportSetting

variable {setting : ImportSetting} {world : World} {declaration parent : Declaration}

/-- Whether a declaration is new or lent. -/
def Asked (setting : ImportSetting) (world : World) (declaration : Declaration) : Prop :=
  setting.New world declaration ∨ setting.lent declaration

theorem asked_of_lent (hlent : setting.Lent declaration)
    (hhas : world.decls.has declaration = true) : setting.Asked world declaration := by
  cases hold : setting.start.decls.has declaration with
  | true => exact .inr (hlent hold)
  | false => exact .inl ⟨hold, hhas⟩

section Importing

variable (h : setting.Importing world)

include h

/-- What is new refers to nothing of the patch module, and to declarations that are new or lent
only. -/
theorem Importing.admits_statement (hnew : setting.New world declaration) :
    setting.Admits (setting.New world) (world.decls.statement declaration).targets := by
  cases declaration with
  | module => exact admits_nil
  | type id =>
      have hrecord := h.type hnew
      simpa [Statement.targets, Declarations.statement, Shape.targets] using
        ⟨hrecord.base, by simpa using hrecord.interfaces, hrecord.generics⟩
  | field id =>
      simpa [Statement.targets, Declarations.statement, Shape.targets] using (h.field hnew).targets
  | method id =>
      have hrecord := h.method hnew
      simpa [Statement.targets, Declarations.statement, Shape.targets] using
        ⟨hrecord.signature, by simpa using hrecord.overrides⟩
  | property id =>
      simpa [Statement.targets, Declarations.statement, Shape.targets] using (h.property hnew).targets
  | event id =>
      simpa [Statement.targets, Declarations.statement, Shape.targets] using (h.event hnew).targets

/-- What is around something new is new. -/
theorem Importing.new_parent (hnew : setting.New world declaration)
    (hparent : world.decls.parent? declaration = some parent) : setting.New world parent := by
  have hliving {owner : DeclId .type} (howner : setting.New world (.type owner))
      (hliving : (world.decls.living? owner).map .type = some parent) :
      setting.New world parent := by
    obtain ⟨living, hsome, rfl⟩ := Option.map_eq_some_iff.mp hliving
    obtain ⟨-, heq⟩ := Option.ite_none_right_eq_some.mp hsome
    cases heq
    exact howner
  cases declaration with
  | module => cases hparent
  | type id =>
      have hplace := (h.type hnew).place
      have hhas := hnew.2
      simp only [Declarations.parent?, Declarations.outer?, Declarations.moduleOf?] at hparent
      cases hdepth : world.decls.types.next with
      | zero =>
          simp [Declarations.has, Table.has, Table.get?_eq_none_of_next_le, hdepth] at hhas
      | succ depth =>
          rw [hdepth, Declarations.moduleWithin] at hparent
          cases hin : (world.decls.type id).place with
          | topLevel module namespaceName =>
              simp only [hin] at hparent hplace
              obtain ⟨living, hsome, rfl⟩ := Option.map_eq_some_iff.mp hparent
              obtain ⟨-, heq⟩ := Option.ite_none_right_eq_some.mp hsome
              cases heq
              exact hplace
          | nested owner =>
              simp only [hin] at hparent hplace
              have howner : world.decls.types.has owner.index = true := hplace.2
              simp only [howner, if_true, Option.some.injEq] at hparent
              exact hparent ▸ hplace
  | field id => exact hliving (h.field hnew).owner hparent
  | method id => exact hliving (h.method hnew).owner hparent
  | property id => exact hliving (h.property hnew).owner hparent
  | event id => exact hliving (h.event hnew).owner hparent

/-- The accessors of what is new are new. -/
theorem Importing.new_accessor {role : AccessorRole} {method : DeclId .method}
    (hnew : setting.New world declaration)
    (hmem : (role, method) ∈ (world.decls.statement declaration).accessors) :
    setting.New world (.method method) := by
  cases declaration with
  | module | type | field | method => cases hmem
  | property id => exact (h.property hnew).accessors _ hmem
  | event id => exact (h.event hnew).accessors _ hmem

/-- What is new leads to what is new or lent only, bodies included. -/
theorem Importing.reaches (hlent : world.Reaches [] setting.lent) :
    world.Reaches [] (setting.Asked world) where
  called := by simp
  closed := {
    parent := fun declaration parent hasked hparent => hasked.imp
      (h.new_parent · hparent) (hlent.closed.parent declaration parent · hparent)
    stated := fun declaration other hasked hmem hhas => by
      rcases hasked with hnew | hold
      · exact ((h.admits_statement hnew _ hmem).2 other rfl).elim .inl (asked_of_lent · hhas)
      · exact .inr (hlent.closed.stated declaration other hold hmem hhas)
    accessors := fun declaration role method hasked hmem => hasked.imp
      (h.new_accessor · hmem) (hlent.closed.accessors declaration role method · hmem) }
  bodies id graft hasked hwritable hgraft := by
    rcases hasked with hnew | hold
    · obtain ⟨hborrows, bases, htransformer⟩ := (h.method hnew).body graft hgraft
      refine ⟨fun declaration hmem hhas => asked_of_lent (hborrows declaration hmem) hhas, ?_⟩
      rw [htransformer]
      exact ⟨fun token id hget _ => .inl (h.boundTypes token id hget),
        fun token id hget _ => .inl (h.boundFields token id hget),
        fun token id hget _ => .inl (h.boundMethods token id hget)⟩
    · obtain ⟨hasks, htransformer⟩ := hlent.bodies id graft hold hwritable hgraft
      exact ⟨fun declaration hmem hhas => .inr (hasks declaration hmem hhas),
        htransformer.mono fun _ => .inr⟩

/-- All that is in a new module is new. -/
theorem Importing.new_walk {module : DeclId .module} (hnew : setting.New world (.module module)) :
    ∀ node ∈ world.decls.walk module, setting.New world node := by
  have htypes : ∀ id ∈ world.decls.allTypes module, setting.New world (.type id) :=
    Forest.forall_mem_visit (h.module hnew).2
      fun id hid => (h.type hid).nested
  refine List.forall_mem_cons.mpr ⟨hnew, fun node hmem => ?_⟩
  obtain ⟨id, hid, hmem⟩ := List.mem_flatMap.mp hmem
  have hrecord := h.type (htypes id hid)
  simp only [Declarations.withMembers, List.cons_append, List.mem_cons, List.mem_append,
    List.mem_map] at hmem
  rcases hmem with rfl | ((⟨field, hfield, rfl⟩ | ⟨method, hmethod, rfl⟩) |
    ⟨property, hproperty, rfl⟩) | ⟨event, hevent, rfl⟩
  · exact htypes id hid
  · exact hrecord.fields field hfield
  · exact hrecord.methods method hmethod
  · exact hrecord.properties property hproperty
  · exact hrecord.events event hevent

/-- A session for what an import has declared begins apart from the patch module, if what is lent
and the modules that the patch needs are apart. -/
theorem Importing.separate {source : SourceId} (hplain : setting.Plain)
    (hlent : world.Avoids source setting.patch setting.lent)
    (hlends : ∀ name ∈ setting.required,
      setting.start.Lends source setting.patch setting.Belongs name) :
    (Moment.begin source world).Separate (setting.Asked world) setting.patch setting.Belongs := by
  have hdefs : (Moment.begin source world).defs = setting.start.defs := h.defs
  have hset : (fun definition => world.defs.home? definition = some setting.patch) =
      setting.Belongs := by
    rw [h.defs]
    rfl
  constructor
  · rw [hdefs]
    exact hplain.there
  · rw [hdefs]
    exact fun _ => .rfl
  · rintro declaration (hnew | hold) target hmem
    · exact (h.admits_statement hnew target hmem).1
    · rw [← hset]
      exact hlent.stated declaration hold target hmem
  · rintro id (hnew | hold)
    · have hlends := hlends _ (h.module hnew).1
      unfold World.Lends World.source at hlends ⊢
      rw [← h.defs, ← h.sources] at hlends
      exact hlends
    · rw [← hset]
      exact hlent.lends id hold
  all_goals simp [Moment.begin, Moment.session, Dictionary.get?]

end Importing

end ImportSetting

namespace Moment

variable {asked : Declaration → Prop} {patch : DefId .module} {set : Definition → Prop}
  {now last : Moment} {importer : ImporterId}

/-- Putting bodies in place that are carried over from the patch module keeps apart from it. -/
theorem Grafts.separate {suffix : String} {ids : List (DeclId .method)}
    {hidden : List (Option (DefId .method))} (h : Grafts asked suffix ids hidden now last)
    (hsound : now.Sound)
    (himported : ∀ id ∈ ids, ∀ graft, (now.decls.method id).body = some graft →
      ∃ bases, graft.transformer = .importing importer bases)
    (hscope : (now.world.importer importer).scope = patch)
    (hseparate : now.Separate asked patch set) : last.Separate asked patch set := by
  induction h with
  | done => exact hseparate
  | skip hnone _ ih =>
      exact ih hsound (fun id hmem => himported id (List.mem_cons_of_mem _ hmem)) hscope hseparate
  | graft hsuffix hgrafted _ ih =>
      have hrun := hgrafted.grafts
      have hlater := hrun.later hsound
      obtain ⟨bases, htransformer⟩ := himported _ List.mem_cons_self _ hgrafted.declared
      refine ih (hrun.sound hsound) (fun id hmem => ?_) ((hlater.scope importer).trans hscope)
        (hgrafted.separate hsound hseparate htransformer hscope)
      rw [hlater.decls]
      exact himported id (List.mem_cons_of_mem _ hmem)

end Moment

/-- Whether nothing in a module, at any depth, belongs to another one or refers to what does. -/
def Definitions.FreeOf (defs : Definitions) (patch module : DefId .module) : Prop :=
  defs.Apart (fun definition => defs.home? definition = some patch) (.module module)

/-- When the import of a patch module and the installation of the patch succeed, then every module
that the patch works on is free of the patch module, as the modules that it needs have been before.
The patch module may refer to declarations itself, as long as these lead to nothing of it. -/
theorem importPatch_apart {world imported : World} {module : DefId .module} {manifest : Manifest}
    {lent : Declaration → Prop} {patch : Patch} {source : SourceId} {config : InstallConfig}
    {report : InstallReport} {final : SessionState}
    (hsource : (world.source source).Sound world.defs)
    (hplain : (ImportSetting.of world module manifest lent).Plain)
    (hlent : imported.Avoids source module lent)
    (hlends : ∀ name ∈ manifest.required.map (·.1),
      world.Lends source module (fun definition => world.defs.home? definition = some module) name)
    (himport : (Task.importPatch module manifest).on world = (.ok patch, imported))
    (hon : (SessionTask.install config [patch]).on ⟨{ source }, imported⟩ = (.ok report, final)) :
    ∀ id ∈ patch.modules, ∃ target,
      final.session.resolved.get? (.module id) = some (.module target) ∧
        final.world.defs.FreeOf module target := by
  obtain ⟨himporting, hmodules⟩ := ImportSetting.importPatch_ok hplain himport
  have hsound : (Moment.begin source imported).Sound := by
    refine Moment.sound_begin (himporting.defs ▸ hplain.held) ?_
    rw [World.source, himporting.sources, himporting.defs]
    exact hsource
  have hwalk : ∀ node ∈ patch.modules.flatMap imported.decls.walk,
      (ImportSetting.of world module manifest lent).New imported node := by
    intro node hmem
    obtain ⟨id, hid, hmem⟩ := List.mem_flatMap.mp hmem
    exact himporting.new_walk (hmodules id hid) node hmem
  obtain ⟨hidden, first, middle, last, hinstalled, hsession, hgraph, -⟩ :=
    Moment.install_ok hsound (himporting.reaches hlent.reaches)
      (fun node hmem => .inl (hwalk node hmem)) hon
  -- The three parts of an installation keep apart each for itself: resolving, grafting, touching.
  have hresolved := hinstalled.resolves.sound hsound
  have hlater := hinstalled.resolves.later hsound
  have hfirst := hinstalled.resolves.separate rfl hsound (himporting.separate hplain hlent hlends)
  have hmiddle := hinstalled.grafts.separate hresolved (fun id hmem graft hgraft => ?_)
    ((hlater.scope _).trans himporting.scope) hfirst
  · have hlast := hinstalled.touches.separate rfl (hinstalled.grafts.run.sound hresolved) hmiddle
    intro id hid
    obtain ⟨definition, hmemo⟩ := hinstalled.remembered
      (List.mem_flatMap.mpr ⟨id, hid, List.mem_cons_self⟩)
    replace hmemo := (hinstalled.remains hsound).remembered _ _ hmemo
    have hkind := (hinstalled.run.sound hsound).kinds _ _ (Moment.answer_of_remembered hmemo)
    cases definition with
    | module target =>
        refine ⟨target, hsession ▸ hmemo, ?_⟩
        have hbelongs : (ImportSetting.of world module manifest lent).Belongs =
            fun definition => final.world.defs.home? definition = some module := by
          funext definition
          rw [hgraph.defs]
          exact propext (hlast.belongs definition)
        have hapart := hlast.remembered _ _ hmemo
        rwa [hbelongs, show last.defs = final.world.defs from hgraph.defs.symm] at hapart
    | type | field | method | property | event => cases hkind
  · obtain ⟨node, hnode, hmethod⟩ := List.mem_filterMap.mp hmem
    cases node <;> cases hmethod
    have hnew := hwalk _ hnode
    rw [hlater.decls] at hgraft
    obtain ⟨-, hbases⟩ := (himporting.method hnew).body graft hgraft
    exact hbases

/-- A module with a type, and a patch module with a type of that name and another one. Each of the
two refers to the other one, and a method of the first calls one of the second. The second type of
the patch module is declared, too. -/
def World.overlay (interfaces : List TypeRef) : World :=
  let signature : MethodSig := ⟨0, 0, .primitive .void, [], []⟩
  let leave : Instruction := { opcode := ⟨0, 0x2A, "ret", .none, .returning⟩ }
  let (game, defs) := ({} : Definitions).makeModule { name := "Game" }
  let (clock, defs) := defs.addType game { namespaceName := "Core", name := "Clock", flags := 1 }
  let (_, defs) := defs.addMethod clock
    { name := "Tick", flags := 22, signature, body := some { code := [leave] } }
  let (mod, defs) := defs.makeModule { name := "Mod" }
  let (clock, defs) :=
    defs.addType mod { namespaceName := "Core", name := "Clock", flags := 1, interfaces }
  let (timer, defs) := defs.addType mod
    { namespaceName := "Core", name := "Timer", flags := 1, interfaces := [.definition clock] }
  let (reset, defs) := defs.addMethod timer
    { name := "Reset", flags := 22, signature, body := some { code := [leave] } }
  let call : Instruction := ⟨0, ⟨0, 0x28, "call", .token, .call⟩, .method (.definition reset)⟩
  let (_, defs) := defs.addMethod clock
    { name := "Tick", flags := 22, signature, body := some { code := [call, leave] } }
  { defs
    decls :=
      { modules := ⟨#[some { terms := ⟨.failIfMissing, false⟩, name := "Mod", types := [⟨0⟩] }]⟩
        types := ⟨#[some
          { terms := ⟨.failIfMissing, false⟩, place := .topLevel ⟨0⟩ "Core", name := "Timer" }]⟩ }
    sources := ⟨#[some (.memory ⟨[("Game", game), ("Mod", mod)]⟩ {})]⟩ }

/-- The manifest by which the first type and its method stand for those of the module, and the
second type is added. -/
def Manifest.overlay : Manifest where
  required := [("Game", false)]
  mappings := ⟨[
    (.ofParts .typeDef 1, { intent := .mixin }),
    (.ofParts .typeDef 2, { intent := .generated }),
    (.ofParts .methodDef 2, { intent := .mixin })]⟩

/-- The patch that is imported. -/
def Patch.overlay : Patch where
  name := "Mod"
  modules := [⟨1⟩]

/-- The module to be changed is apart from the patch module if the definitions of it are. -/
theorem World.lends_overlay {interfaces : List TypeRef}
    (hapart : (World.overlay interfaces).defs.Apart
      (fun definition => (World.overlay interfaces).defs.home? definition = some ⟨1⟩)
      (.module ⟨0⟩)) :
    ∀ name ∈ Manifest.overlay.required.map (·.1), (World.overlay interfaces).Lends ⟨0⟩ ⟨1⟩
      (fun definition => (World.overlay interfaces).defs.home? definition = some ⟨1⟩) name := by
  intro name hname
  obtain rfl : name = "Game" := List.mem_singleton.mp hname
  intro module hmodule
  cases hmodule
  exact hapart

theorem World.plain_overlay :
    (ImportSetting.of (World.overlay []) ⟨1⟩ .overlay fun _ => False).Plain where
  held := (by decide +kernel : (World.overlay []).defs.Held)
  there := rfl
  borrows definition record _ hrecord declaration hmem := by
    have hall : ∀ definition ∈ (World.overlay []).defs.all,
        ∀ record ∈ (World.overlay []).defs.record? definition,
          ∀ target ∈ record.targets, target.declared? = none := by
      decide +kernel
    have hnone := hall definition (Definitions.mem_all (Definitions.has_iff.mpr ⟨record, hrecord⟩))
      record hrecord _ hmem
    cases hnone

theorem importPatch_apart_overlay :
    ∃ patch imported report final,
      (Task.importPatch ⟨1⟩ .overlay).on (.overlay []) = (.ok patch, imported) ∧
      (SessionTask.install {} [patch]).on ⟨{ source := ⟨0⟩ }, imported⟩ = (.ok report, final) ∧
      report.resolved = 5 ∧ ∀ id ∈ patch.modules, ∃ target,
        final.session.resolved.get? (.module id) = some (.module target) ∧
          final.world.defs.FreeOf ⟨1⟩ target := by
  have hapart : (World.overlay []).defs.Apart
      (fun definition => (World.overlay []).defs.home? definition = some ⟨1⟩) (.module ⟨0⟩) :=
    Definitions.apart_of_closed [.module ⟨0⟩, .type ⟨0⟩, .method ⟨0⟩] (by decide)
      (by decide +kernel) (by decide +kernel)
  have himported : ((Task.importPatch ⟨1⟩ .overlay).on (.overlay [])).1 = .ok .overlay := by
    decide +kernel
  have hinstalled : ((SessionTask.install {} [.overlay]).on
      ⟨{ source := ⟨0⟩ }, ((Task.importPatch ⟨1⟩ .overlay).on (.overlay [])).2⟩).1 =
        .ok { patches := ["Mod"], saved := ["Game"], resolved := 5 } := by
    decide +kernel
  cases himport : (Task.importPatch ⟨1⟩ .overlay).on (.overlay []) with
  | mk outcome imported =>
      rw [himport] at himported hinstalled
      cases himported
      cases hon : (SessionTask.install {} [.overlay]).on ⟨{ source := ⟨0⟩ }, imported⟩ with
      | mk outcome final =>
          rw [hon] at hinstalled
          cases hinstalled
          have hfree := importPatch_apart (Source.sound_memory (by decide +kernel))
            World.plain_overlay World.avoids_none (World.lends_overlay hapart) himport hon
          exact ⟨_, imported, _, final, rfl, hon, rfl, hfree⟩

/-- A patch module may bring itself into a target where it refers to declarations of what is in
it. -/
theorem patch_module_declared :
    ¬ ∀ world imported module manifest patch source config report final, world.defs.Held →
      (world.source source).Sound world.defs → world.defs.has (.module module) = true →
      (∀ name ∈ manifest.required.map (·.1), world.Lends source module
        (fun definition => world.defs.home? definition = some module) name) →
      (Task.importPatch module manifest).on world = (.ok patch, imported) →
      (SessionTask.install config [patch]).on ⟨{ source }, imported⟩ = (.ok report, final) →
      ∀ id ∈ patch.modules, ∃ target,
        final.session.resolved.get? (.module id) = some (.module target) ∧
          final.world.defs.FreeOf module target := by
  intro h
  have hapart : (World.overlay [.declared ⟨0⟩]).defs.Apart
      (fun definition => (World.overlay [.declared ⟨0⟩]).defs.home? definition = some ⟨1⟩)
      (.module ⟨0⟩) :=
    Definitions.apart_of_closed [.module ⟨0⟩, .type ⟨0⟩, .method ⟨0⟩] (by decide)
      (by decide +kernel) (by decide +kernel)
  have himported : ((Task.importPatch ⟨1⟩ .overlay).on (.overlay [.declared ⟨0⟩])).1 =
      .ok .overlay := by
    decide +kernel
  have hinstalled : ((SessionTask.install {} [.overlay]).on
      ⟨{ source := ⟨0⟩ }, ((Task.importPatch ⟨1⟩ .overlay).on (.overlay [.declared ⟨0⟩])).2⟩).1 =
        .ok { patches := ["Mod"], saved := ["Game"], resolved := 7 } := by
    decide +kernel
  -- The type of the module ends up with the type of the patch module among its interfaces.
  have hentangled : let final := ((SessionTask.install {} [.overlay]).on
      ⟨{ source := ⟨0⟩ }, ((Task.importPatch ⟨1⟩ .overlay).on (.overlay [.declared ⟨0⟩])).2⟩).2
      final.session.resolved.get? (.module ⟨1⟩) = some (.module ⟨0⟩) ∧
        .type ⟨0⟩ ∈ final.world.defs.members (.module ⟨0⟩) .type ∧
        (∃ record ∈ final.world.defs.record? (.type ⟨0⟩),
          .definition (.type ⟨2⟩) ∈ record.targets) ∧
        final.world.defs.home? (.type ⟨2⟩) = some ⟨1⟩ := by
    decide +kernel
  cases himport : (Task.importPatch ⟨1⟩ .overlay).on (.overlay [.declared ⟨0⟩]) with
  | mk outcome imported =>
      rw [himport] at himported hinstalled hentangled
      cases himported
      cases hon : (SessionTask.install {} [.overlay]).on ⟨{ source := ⟨0⟩ }, imported⟩ with
      | mk outcome final =>
          rw [hon] at hinstalled hentangled
          cases hinstalled
          obtain ⟨hmemo, hmem, ⟨record, hrecord, htarget⟩, hhome⟩ := hentangled
          obtain ⟨target, htaken, hfree⟩ := h _ imported _ _ _ ⟨0⟩ {} _ final (by decide +kernel)
            (Source.sound_memory (by decide +kernel)) rfl (World.lends_overlay hapart) himport hon
            ⟨1⟩ List.mem_cons_self
          cases hmemo.symm.trans htaken
          exact (hfree _ (.member .top hmem)).2 record hrecord _ htarget hhome

end Graft
