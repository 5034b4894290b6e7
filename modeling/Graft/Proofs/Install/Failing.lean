import Graft.Proofs.Install.Splitting
import Graft.Proofs.Source.Failing

/-!
# What a failed installation leaves behind

Nothing is stored before all patches have been installed. So an installation that fails has stored
nothing, unless it fails when it saves a module: then the modules before that one, in the order of
their names, have been stored, and nothing else (`install_fails`, `failure_stores`).

While the read-only declarations of a patch are verified nothing is changed where all that they lead to
is read-only as well (`verification_spares`). A read-only declaration may lead to one that may be
changed, and then a definition may be made before a missing one is noticed (`verification_makes`).
-/

namespace Graft

open Moment SessionTask

/-- Whether two worlds have the same sources and the same streams. -/
structure World.SameStores (world world' : World) : Prop where
  sources : world'.sources = world.sources
  leaves : world'.leaves = world.leaves

theorem World.SameStores.trans {world world' world'' : World} (h : world.SameStores world')
    (h' : world'.SameStores world'') : world.SameStores world'' :=
  ⟨h'.sources.trans h.sources, h'.leaves.trans h.leaves⟩

/-! ## Installing stores nothing -/

namespace Moment

variable {asked : Declaration → Prop} {mode : Mode} {now next : Moment} {α β : Type}

theorem Step.leaves (hstep : Step asked mode now next) : next.world.leaves = now.world.leaves := by
  cases hstep with
  | quiet hquiet => exact hquiet.leaves
  | load hstack hasked hname hnone hload =>
      obtain ⟨defs, hworld⟩ := @Task.load_keeps now.session.source _ now.world
      rw [hload] at hworld
      have hleaves := congrArg World.leaves hworld
      exact hleaves
  | enter | makeModule | create | locate | confirm | amend | remember | abandon | hide | graft => rfl

theorem Run.sameStores (hrun : Run asked mode now next) (hsound : now.Sound) :
    now.world.SameStores next.world where
  sources := (hrun.later hsound).sources
  leaves := by
    induction hrun with
    | refl => rfl
    | tail hrun hstep ih => exact hstep.leaves.trans ih

/-- Whether an operation is a run, whatever becomes of it. -/
def Runs (task : SessionTask α) : Prop :=
  ∀ now : Moment, now.Sound → now.stack = [] →
    ∃ next : Moment, next.state = (task.on now.state).2 ∧ next.stack = [] ∧
      Run (fun _ => True) { fails := true, hides := true, grafts := true } now next

namespace Runs

variable {task : SessionTask α}

theorem pure {value : α} : Runs (Pure.pure value) :=
  fun now _ hstack => ⟨now, rfl, hstack, .refl⟩

theorem world {next : World → SessionTask β} (hnext : ∀ world, Runs (next world)) :
    Runs (SessionTask.world >>= next) :=
  fun now hsound hstack => hnext now.world now hsound hstack

theorem throw {error : Error} : Runs (MonadExcept.throw error : SessionTask α) :=
  fun now _ hstack => ⟨now, rfl, hstack, .refl⟩

theorem bind {next : α → SessionTask β} (htask : Runs task) (hnext : ∀ value, Runs (next value)) :
    Runs (task >>= next) := by
  intro now hsound hstack
  obtain ⟨middle, hmiddle, hidle, hrun⟩ := htask now hsound hstack
  rw [on_bind]
  cases hon : task.on now.state with
  | mk outcome state =>
      rw [hon] at hmiddle
      cases outcome with
      | error error => exact ⟨middle, hmiddle, hidle, hrun⟩
      | ok value =>
          obtain ⟨last, hlast, hidle', hrun'⟩ := hnext value middle (hrun.sound hsound) hidle
          exact ⟨last, hlast.trans (by rw [hmiddle]), hidle', hrun.trans hrun'⟩

theorem mapM {ι : Type} {items : List ι} {f : ι → SessionTask α} (h : ∀ item, Runs (f item)) :
    Runs (items.mapM f) := by
  induction items with
  | nil => exact pure
  | cons item items ih =>
      rw [List.mapM_cons]
      exact .bind (h item) fun _ => .bind ih fun _ => pure

theorem foldlM {ι : Type} {items : List ι} {f : α → ι → SessionTask α}
    (h : ∀ value item, Runs (f value item)) (value : α) : Runs (items.foldlM f value) := by
  induction items generalizing value with
  | nil => exact pure
  | cons item items ih =>
      rw [List.foldlM_cons]
      exact .bind (h value item) ih

theorem log (entry : LogEntry) : Runs (SessionTask.log entry) :=
  fun now _ hstack => ⟨now.withState now.session { now.world with log := now.world.log.push entry },
    by rw [on_log]; rfl, hstack, .single (.quiet (.ofLog _) nofun)⟩

theorem within {patch : String} (h : Runs task) : Runs (SessionTask.within patch task) := by
  intro now hsound hstack
  rw [on_within]
  exact h now hsound hstack

theorem resolve (declaration : Declaration) : Runs (SessionTask.resolve declaration) := by
  intro now hsound hstack
  have hclosed := (now.world.reaches_all []).closed
  obtain ⟨next, hstate, hidle, hrun⟩ := resolve_run declaration hsound hstack hclosed trivial
  exact ⟨next, hstate, hidle, hrun.weaken (by simp) (by simp) (by simp)⟩

theorem resolveAll (declarations : List Declaration) : Runs (SessionTask.resolveAll declarations) := by
  induction declarations with
  | nil => exact pure
  | cons declaration declarations ih =>
      exact .bind (.bind (resolve declaration) fun _ => pure) fun _ => ih

theorem transplant (id : DeclId .method) (suffix : String) :
    Runs (SessionTask.transplant id suffix) := by
  intro now hsound hstack
  have hreaches := now.world.reaches_all [.transplant id suffix]
  obtain ⟨next, hstate, hidle, hrun⟩ :=
    perform_run hsound hstack hreaches (List.mem_singleton.mpr rfl)
  refine ⟨next, ?_, hidle, hrun⟩
  rw [hstate, SessionCall.perform, on_bind]
  cases (SessionTask.transplant id suffix).on now.state with
  | mk outcome state => cases outcome <;> rfl

theorem transplantAll (declarations : List Declaration) (suffix : String) :
    Runs (SessionTask.transplantAll declarations suffix) := by
  refine .bind (.mapM fun id => .bind (transplant id suffix) fun hidden => ?_) fun _ => pure
  cases hidden with
  | none => exact pure
  | some hidden => exact .world fun _ => pure

theorem touch (modules : List (DeclId .module)) (touched : Touched) :
    Runs (SessionTask.touch modules touched) := by
  refine .world fun world => .foldlM (fun touched id => ?_) touched
  refine .bind (.bind (resolve (.module id)) fun found => ?_) fun _ => pure
  cases found with
  | module found => exact pure
  | type | field | method | property | event => exact .world fun _ => throw

theorem installPatch (config : InstallConfig) (patch : Patch) (touched : Touched) :
    Runs (SessionTask.installPatch config patch touched) := by
  rw [installPatch_eq]
  refine .world fun world => .bind ?_ fun _ => .bind (transplantAll _ _) fun _ =>
    .bind (touch _ _) fun _ => pure
  exact .bind (resolveAll _) fun _ => .bind (resolveAll _) fun _ => resolveAll _

/-- Installing patches is a run, whatever becomes of it. -/
theorem installAll (config : InstallConfig) (patches : List Patch) :
    Runs (SessionTask.installAll config patches) :=
  .foldlM (fun _ patch => .bind (.within (installPatch config patch _)) fun _ =>
    .bind (.log _) fun _ => pure) _

end Runs

end Moment

/-! ## Saving stores one stream or nothing -/

/-- Whether the streams of two worlds, and the sources, are the same but for streams with some names. -/
structure World.StoresOnly (names : List String) (world world' : World) : Prop where
  sources : world'.sources = world.sources
  streams : ∀ id key, key ∉ names →
    (world'.leaf id).buffers.get? key = (world.leaf id).buffers.get? key

theorem World.SameStores.storesOnly {world world' : World} {names : List String}
    (h : world.SameStores world') : world.StoresOnly names world' where
  sources := h.sources
  streams id key _ := by rw [World.leaf, World.leaf, h.leaves]

theorem World.StoresOnly.mono {names names' : List String} {world world' : World}
    (h : world.StoresOnly names world') (hsubset : names ⊆ names') :
    world.StoresOnly names' world' :=
  ⟨h.sources, fun id key hkey => h.streams id key fun hmem => hkey (hsubset hmem)⟩

theorem World.StoresOnly.trans {names : List String} {world world' world'' : World}
    (h : world.StoresOnly names world') (h' : world'.StoresOnly names world'') :
    world.StoresOnly names world'' :=
  ⟨h'.sources.trans h.sources,
    fun id key hkey => (h'.streams id key hkey).trans (h.streams id key hkey)⟩

namespace Task

/-- Putting bytes into a stream of a leaf changes no other stream. -/
theorem putBuffer_storesOnly (leaf : LeafId) (name : String) (bytes : ByteArray) (world : World) :
    world.StoresOnly [name] ((putBuffer leaf name bytes).on world).2 where
  sources := rfl
  streams id key hkey := by
    rw [List.mem_singleton] at hkey
    rw [putBuffer, on_modify, World.leaf, World.leaf, Table.get?_update]
    split
    · cases world.leaves.get? id.index with
      | none => rfl
      | some record => simp [Dictionary.get?_insert, Ne.symm hkey]
    · rfl

/-- What becomes of opening a stream for writing: it may be emptied, and unless there is a writer for
it afterwards nothing has changed. -/
def Opens (name : String) (world : World) : Except Error (Option Writer) × World → Prop
  | (.ok (some writer), world') => writer.name = name ∧ world.StoresOnly [name] world'
  | (_, world') => world.SameStores world'

theorem Opens.unlogged {name : String} {world : World} {log : Array LogEntry}
    {result : Except Error (Option Writer) × World} (h : Opens name { world with log } result) :
    Opens name world result := by
  rcases result with ⟨_ | _ | writer, world'⟩
  · exact ⟨h.sources, h.leaves⟩
  · exact ⟨h.sources, h.leaves⟩
  · exact ⟨h.1, h.2.sources, h.2.streams⟩

mutual

theorem write?_opens (name : String) (store : StreamStore) (world : World) :
    Opens name world ((store.write? name).on world) := by
  cases store with
  | leaf id =>
      rw [StreamStore.write?, on_bind_still (StreamStore.checkStreamName_on id name world)]
      cases ((checkStreamName id name).on world).1 with
      | error error => exact ⟨rfl, rfl⟩
      | ok done =>
          dsimp only
          rw [on_bind, on_get]
          dsimp only
          split
          · exact ⟨rfl, World.SameStores.storesOnly ⟨rfl, rfl⟩⟩
          · exact ⟨rfl, putBuffer_storesOnly id name .empty _⟩
  | readOnly roots sink =>
      rw [StreamStore.write?]
      exact sinkWrite?_opens name sink world
  | writable roots output =>
      rw [StreamStore.write?]
      exact write?_opens name output world
termination_by structural store

theorem sinkWrite?_opens (name : String) (sink : Option StreamStore) (world : World) :
    Opens name world ((StreamStore.sinkWrite? name sink).on world) := by
  cases sink with
  | none => exact ⟨rfl, rfl⟩
  | some store =>
      rw [StreamStore.sinkWrite?, on_bind, log, on_modify]
      exact (write?_opens name store _).unlogged
termination_by structural sink

end

/-- Saving a module in a stream changes the stream with its name at most, and nothing if it fails. -/
theorem save_streamed {source : SourceId} {module : DefId .module} {world : World}
    {store : StreamStore} {codec : Codec} (hsource : world.source source = .streamed store codec) :
    match (save source module).on world with
    | (.error _, next) => world.SameStores next
    | (.ok _, next) => world.StoresOnly [(world.defs.module module).name] next := by
  rw [save, on_bind, on_get]
  dsimp only
  rw [hsource]
  dsimp only
  rw [on_bind, on_ofExcept]
  cases codec.encode world.defs module with
  | error error => exact ⟨rfl, rfl⟩
  | ok bytes =>
      dsimp only
      rw [on_bind]
      have hopens := write?_opens (world.defs.module module).name store world
      cases hon : (store.write? (world.defs.module module).name).on world with
      | mk outcome next =>
          rw [hon] at hopens
          rcases outcome with error | _ | writer
          · exact hopens
          · exact hopens
          · obtain ⟨hname, hstores⟩ := hopens
            dsimp only [Writer.commit, Writer.append]
            rw [hname]
            exact hstores.trans (putBuffer_storesOnly _ _ _ next)

end Task

namespace SessionTask

variable {config : InstallConfig} {patches : List Patch} {source : SourceId} {touched : Touched}
  {state final : SessionState} {error : Error}

/-- Saving modules in streams fails when one of them cannot be saved, after those before it have been.
-/
theorem saveAll_fails {store : StreamStore} {codec : Codec}
    (hsource : state.world.source source = .streamed store codec)
    (hon : (saveAll source touched).on state = (.error error, final)) :
    ∃ saved entry rest middle, touched = saved ++ entry :: rest ∧
      (saveAll source saved).on state = (.ok (), middle) ∧
      (Task.save source entry.2).on middle.world = (.error error, final.world) ∧
      state.world.StoresOnly (saved.map fun entry => (state.world.defs.module entry.2).name)
        final.world := by
  induction touched generalizing state with
  | nil => cases hon
  | cons entry touched ih =>
      obtain ⟨name, module⟩ := entry
      have hsave := @Task.save_streamed source module state.world store codec hsource
      have hspares := Task.save_spares source module state.world
      rw [saveAll_cons, on_bind, on_ofTask] at hon
      cases hsaved : (Task.save source module).on state.world with
      | mk outcome world =>
          rw [hsaved] at hon hsave hspares
          cases outcome with
          | error failed =>
              cases hon
              exact ⟨[], _, touched, state, rfl, rfl, hsaved, hsave.storesOnly⟩
          | ok done =>
              dsimp only at hon hsave hspares
              rw [on_bind, on_log] at hon
              dsimp only at hon
              let logged : World := { world with log := world.log.push (.moduleSaved name) }
              have hkept : logged.source source = .streamed store codec := by
                rw [← hsource, World.source, World.source, ← hsave.sources]
              have hdefs : logged.defs = state.world.defs := hspares.defs
              have hfirst : state.world.StoresOnly [(state.world.defs.module module).name] logged :=
                ⟨hsave.sources, hsave.streams⟩
              obtain ⟨saved, failed, rest, middle, rfl, hon', hfails, hstores⟩ :=
                @ih ⟨state.session, logged⟩ hkept hon
              rw [hdefs] at hstores
              refine ⟨(name, module) :: saved, failed, rest, middle, rfl, ?_, hfails,
                (hfirst.mono (by simp)).trans (hstores.mono (by simp))⟩
              rw [saveAll_cons, on_bind, on_ofTask, hsaved]
              exact hon'

/-- Saving modules in a source that keeps them never fails. -/
theorem saveAll_kept {modules : Dictionary String (DefId .module)}
    {saves : Dictionary String Nat} (hsource : state.world.source source = .memory modules saves) :
    ((saveAll source touched).on state).1 = .ok () := by
  induction touched generalizing state modules saves with
  | nil => rfl
  | cons entry touched ih =>
      obtain ⟨name, module⟩ := entry
      rw [saveAll_cons, on_bind, on_ofTask, Task.save_memory hsource]
      dsimp only
      rw [on_bind, on_log]
      -- A source that does not exist reads as one that keeps no modules, also after a save.
      cases hget : state.world.sources.get? source.index with
      | none => exact ih (by simp [World.source, hget, default]; exact ⟨rfl, rfl⟩)
      | some kept => exact ih (by simp [World.source, hget]; exact ⟨rfl, rfl⟩)

/-- How an installation fails, and what it has stored by then. -/
inductive Aborts (config : InstallConfig) (patches : List Patch) (state : SessionState)
    (error : Error) (final : SessionState) : Prop where
  /-- A patch cannot be installed: nothing has been stored. -/
  | installing (hfails : (installAll config patches).on state = (.error error, final))
      (hstores : state.world.SameStores final.world)
  /-- All patches are installed, and a module cannot be saved in its stream: the touched modules before
  it have been. -/
  | saving {report : InstallReport} {saved rest : Touched} {entry : String × DefId .module}
      {installed middle : SessionState} {store : StreamStore} {codec : Codec}
      (hpersist : config.persist = true)
      (hsource : state.world.source state.session.source = .streamed store codec)
      (hinstalls : (installAll config patches).on state =
        (.ok (report, saved ++ entry :: rest), installed))
      (hsaves : (saveAll state.session.source saved).on installed = (.ok (), middle))
      (hfails : (Task.save state.session.source entry.2).on middle.world =
        (.error error, final.world))
      (hstores : state.world.StoresOnly
        (saved.map fun entry => (installed.world.defs.module entry.2).name) final.world)

end SessionTask

/-- An installation that fails has stored nothing, unless it fails when it saves a module in a stream:
then those of the touched modules that come before that one have been stored, and nothing else. -/
theorem install_fails {world : World} {source : SourceId} {config : InstallConfig}
    {patches : List Patch} {error : Error} {final : SessionState} (hheld : world.defs.Held)
    (hsource : (world.source source).Sound world.defs)
    (hon : (SessionTask.install config patches).on ⟨{ source }, world⟩ = (.error error, final)) :
    Aborts config patches ⟨{ source }, world⟩ error final := by
  have hsound := sound_begin hheld hsource
  obtain ⟨last, hlast, -, hrun⟩ := Runs.installAll config patches (begin source world) hsound rfl
  have hstores : world.SameStores last.world := hrun.sameStores hsound
  have hlater := hrun.later hsound
  obtain hfails | ⟨⟨report, touched⟩, installed, hinstalls, hrest⟩ := on_bind_error.mp hon
  · exact .installing hfails (by rwa [Moment.world, hlast, begin, hfails] at hstores)
  · rw [begin, hinstalls] at hlast
    cases hlast
    dsimp only at hrest
    cases hpersist : config.persist with
    | false =>
        rw [hpersist] at hrest
        cases hrest
    | true =>
        rw [hpersist, if_pos rfl, on_bind, on_get] at hrest
        dsimp only at hrest
        rw [on_bind, show last.state.session.source = source from hlater.source] at hrest
        cases hsaved : (saveAll source touched).on last.state with
        | mk outcome state =>
            rw [hsaved] at hrest
            cases outcome with
            | ok done => cases hrest
            | error failed =>
                cases hrest
                have hsame : last.world.source source = world.source source := by
                  rw [World.source, World.source, hstores.sources]
                cases hkind : world.source source with
                | memory modules saves =>
                    have hnever := @saveAll_kept source touched last.state _ _ (hsame.trans hkind)
                    rw [hsaved] at hnever
                    cases hnever
                | streamed store codec =>
                    obtain ⟨saved, entry, rest, middle, rfl, hsaves, hfails, hstored⟩ :=
                      saveAll_fails (hsame.trans hkind) hsaved
                    exact .saving hpersist hkind hinstalls hsaves hfails
                      (hstores.storesOnly.trans hstored)

/-- A codec that makes empty modules and cannot encode those with a certain name. -/
def Codec.unwriting (name : String) : Codec where
  decode module _ defs := .ok (defs.makeModule { name := module })
  encode defs module :=
    if (defs.module module).name = name then .error (.refused (.custom "cannot encode"))
    else .ok (ByteArray.mk #[1])

/-- Declarations of two modules, of which this codec can encode the first one. -/
def World.unwriting : World where
  decls :=
    { modules := ⟨#[
        some { terms := ⟨.failIfMissing, false⟩, name := "Game" },
        some { terms := ⟨.failIfMissing, false⟩, name := "Mod" }]⟩ }
  sources := ⟨#[some (.streamed (.leaf ⟨0⟩) (.unwriting "Mod"))]⟩
  leaves := ⟨#[some { kind := .memory, buffers := ⟨[("Game", .empty), ("Mod", .empty)]⟩ }]⟩

/-- An installation that fails may have stored something. -/
theorem failure_stores :
    ¬ ∀ (world : World) (source : SourceId) (config : InstallConfig) (patches : List Patch)
      (error : Error) (final : SessionState),
      world.defs.Held → (world.source source).Sound world.defs →
      (SessionTask.install config patches).on ⟨{ source }, world⟩ = (.error error, final) →
      world.SameStores final.world := by
  intro h
  let installed := (SessionTask.install {} [{ name := "Both", modules := [⟨0⟩, ⟨1⟩] }]).on
    ⟨{ source := ⟨0⟩ }, .unwriting⟩
  have hfails : installed.1 = .error (.refused (.custom "cannot encode")) := by decide +kernel
  have hstored : (installed.2.world.leaf ⟨0⟩).buffers.get? "Game" ≠ some .empty := by
    decide +kernel
  have hsame := h .unwriting ⟨0⟩ {} _ _ installed.2 Definitions.held_empty
    (Codec.lawful_of_makeModule fun _ _ _ _ _ => Except.ok.inj) (Prod.ext hfails rfl)
  rw [World.leaf, hsame.leaves] at hstored
  exact hstored rfl

/-! ## Verifying dependencies -/

/-- Where the read-only declarations of a patch lead to nothing that may be changed, an installation
that fails when it verifies them has changed nothing since the patch began, but that modules may have
been taken from the source. -/
theorem verification_spares {world : World} {source : SourceId} {config : InstallConfig}
    {front rest : List Patch} {patch : Patch} {report : InstallReport} {touched : Touched}
    {middle final : SessionState} {error : Error} {asked : Declaration → Prop}
    (hheld : world.defs.Held) (hsource : (world.source source).Sound world.defs)
    (hverify : config.verifyDependencies = true) (hclosed : world.decls.Closed asked)
    (hasked : ∀ node ∈ patch.modules.flatMap world.decls.walk,
      (world.decls.terms node).readOnly = true → asked node)
    (hreadOnly : ∀ node, asked node → ¬ world.decls.Writable node)
    (hfront : (installAll config front).on ⟨{ source }, world⟩ = (.ok (report, touched), middle))
    (hfails : (resolveAll ((patch.modules.flatMap world.decls.walk).filter
      fun node => (world.decls.terms node).readOnly)).on middle = (.error error, final)) :
    (SessionTask.install config (front ++ patch :: rest)).on ⟨{ source }, world⟩ =
        (.error (.patchFailed patch.name error), final) ∧
      middle.world.defs.Extends final.world.defs ∧
      ∀ modules saves, world.source source = .memory modules saves →
        final.world.defs = middle.world.defs := by
  have hsound := sound_begin hheld hsource
  obtain ⟨began, hbegan, hidle, hrun⟩ := Runs.installAll config front (begin source world) hsound rfl
  rw [begin, hfront] at hbegan
  cases hbegan
  have hlater := hrun.later hsound
  have hdecls : began.decls = world.decls := hlater.decls
  constructor
  · refine install_of_error ?_
    have hpatch : (installPatch config patch touched).on began.state = (.error error, final) := by
      simp only [installPatch, hverify, if_true]
      rw [on_bind, on_world]
      dsimp only
      rw [on_bind, show began.state.world.decls = world.decls from hdecls, hfails]
    rw [installAll_append, on_bind, hfront]
    dsimp only
    rw [List.foldlM_cons, on_bind, installNext, on_bind, on_within, hpatch]
    rfl
  · have hleads : Leads asked none began (resolveAll ((patch.modules.flatMap world.decls.walk).filter
        fun node => (world.decls.terms node).readOnly)) _ :=
      leads_resolveAll (hrun.sound hsound) hidle fun node hmem =>
        hasked node (List.mem_filter.mp hmem).1 (List.mem_filter.mp hmem).2
    obtain ⟨last, hlast, -, hverified⟩ := hleads.run (hdecls ▸ hclosed)
    rw [hfails] at hlast
    cases hlast
    obtain ⟨hextends, hmemory⟩ := hverified.readOnly (hrun.sound hsound) (hdecls ▸ hreadOnly)
    refine ⟨hextends, fun modules saves hkind => hmemory modules saves ?_⟩
    rw [show began.session.source = source from hlater.source, World.source, hlater.sources]
    exact hkind

/-- A field that is only read is missing, and a type that may be made stands in its signature. -/
def World.errand : World :=
  let (module, defs) := ({} : Definitions).makeModule { name := "Game" }
  { defs := (defs.addType module { namespaceName := "Core", name := "Clock", flags := 1 }).2
    decls :=
      { modules := ⟨#[
          some { terms := ⟨.failIfMissing, false⟩, name := "Game", types := [⟨0⟩, ⟨1⟩] }]⟩
        types := ⟨#[
          some
            { terms := ⟨.failIfMissing, true⟩
              place := .topLevel ⟨0⟩ "Core"
              name := "Clock"
              fields := [⟨0⟩] },
          some { terms := ⟨.createIfMissing, false⟩, place := .topLevel ⟨0⟩ "Core", name := "Timer" }
          ]⟩
        fields := ⟨#[
          some
            { terms := ⟨.failIfMissing, true⟩
              owner := ⟨0⟩
              name := "Next"
              signature := .classType (.declared ⟨1⟩) }]⟩ }
    sources := ⟨#[some (.memory ⟨[("Game", ⟨0⟩)]⟩ {})]⟩ }

/-- An installation that fails when it verifies dependencies may have made a definition. -/
theorem verification_makes :
    ¬ ∀ (world : World) (source : SourceId) (config : InstallConfig) (patch : Patch) (error : Error)
      (final : SessionState),
      world.defs.Held → (world.source source).Sound world.defs → config.verifyDependencies = true →
      (resolveAll ((patch.modules.flatMap world.decls.walk).filter
        fun node => (world.decls.terms node).readOnly)).on ⟨{ source }, world⟩ =
          (.error error, final) →
      world.defs.Extends final.world.defs := by
  intro h
  let patch : Patch := { name := "Errand", modules := [⟨0⟩] }
  let verified := (resolveAll ((patch.modules.flatMap World.errand.decls.walk).filter
    fun node => (World.errand.decls.terms node).readOnly)).on ⟨{ source := ⟨0⟩ }, .errand⟩
  have hfails : verified.1 = .error (.notFound ⟨.field, "Core.Clock::Next"⟩) := by decide +kernel
  have hmade : verified.2.world.defs.members (.module ⟨0⟩) .type = [.type ⟨0⟩, .type ⟨1⟩] := by
    decide +kernel
  have hextends := h .errand ⟨0⟩ {} patch _ verified.2 (by decide +kernel)
    (Source.sound_memory (by decide +kernel)) rfl (Prod.ext hfails rfl)
  rw [Definitions.members_eq, hextends.record? _ (by decide +kernel)] at hmade
  revert hmade
  decide +kernel

end Graft
