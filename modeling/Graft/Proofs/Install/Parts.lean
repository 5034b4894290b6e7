import Graft.Proofs.Import.Inward
import Graft.Proofs.Install.Saving
import Graft.Proofs.Session.Itinerary

/-!
# Parts of an installation

Installing one patch resolves its declarations, puts bodies in place, notes the modules that it may
have changed and saves them. In a source in memory the part after the patch has been installed
cannot fail (`install_of_installed`), and where no body is declared neither can the part after
everything has been resolved (`on_transplantAll_none`, `on_touch_remembered`).
-/

namespace Graft

/-- Whether two worlds differ at most in the books of sources, in streams and in the log. -/
structure World.SameLinks (world world' : World) : Prop extends World.SameGraph world world' where
  slots : world'.slots = world.slots

theorem World.sameLinks_beside (world : World) (sources : Table Source) (log : Array LogEntry) :
    world.SameLinks (world.beside sources log) :=
  ⟨⟨rfl, rfl⟩, rfl⟩

theorem World.SameLinks.trans {world world' world'' : World} (h : world.SameLinks world')
    (h' : world'.SameLinks world'') : world.SameLinks world'' :=
  ⟨h.toSameGraph.trans h'.toSameGraph, h'.slots.trans h.slots⟩

namespace SessionTask

/-- Installing one patch: the patch is installed, and then what it touched is saved. -/
theorem install_singleton (config : InstallConfig) (patch : Patch) :
    install config [patch] = (do
      let (hidden, touched) ← within patch.name (installPatch config patch [])
      log (.patchInstalled patch.name)
      if config.persist then saveAll (← get).session.source touched
      return {
        patches := [patch.name]
        saved := if config.persist then touched.map (·.1) else []
        resolved := (← get).session.resolved.size
        hidden }) := by
  unfold install installAll
  cases config.persist <;> simp

variable {config : InstallConfig} {patch : Patch} {source : SourceId} {touched : Touched}
  {state installed final : SessionState} {report : InstallReport} {names : List String}
  {modules : Dictionary String (DefId .module)} {saves : Dictionary String Nat}

/-- Saving what was touched succeeds in a source that keeps modules, and changes at most sources and
the log. -/
theorem saveAll_memory (touched : Touched)
    (hsource : state.world.sources.get? source.index = some (.memory modules saves)) :
    ∃ sources log, (saveAll source touched).on state =
      (.ok (), ⟨state.session, state.world.beside sources log⟩) := by
  induction touched generalizing state modules saves with
  | nil => exact ⟨_, _, rfl⟩
  | cons entry touched ih =>
      obtain ⟨name, module⟩ := entry
      have hmemory : state.world.source source = .memory modules saves := by
        rw [World.source, hsource, Option.getD_some]
      rw [saveAll_cons, on_bind, on_ofTask, Task.save_memory hmemory]
      dsimp only
      rw [on_bind, on_log]
      dsimp only
      let saved := (state.world.defs.module module).name
      let kept : Source := .memory (modules.insert saved module)
        (saves.insert saved ((saves.get? saved).getD 0 + 1))
      let world : World := state.world.beside
        (state.world.sources.update source.index fun _ => kept)
        (state.world.log.push (.moduleSaved name))
      have hkept : world.sources.get? source.index = some kept := by
        simp [world, World.beside, hsource]
      obtain ⟨sources, log, hon⟩ := @ih ⟨state.session, world⟩ _ _ hkept
      exact ⟨sources, log, hon⟩

/-- Once a patch has been installed in a source that keeps modules, nothing can go wrong any more.
-/
theorem install_of_installed
    (hpatch : (installPatch config patch []).on state = (.ok (names, touched), installed))
    (hsource : installed.world.sources.get? installed.session.source.index =
      some (.memory modules saves)) :
    ∃ final, (install config [patch]).on state = (.ok {
          patches := [patch.name]
          saved := if config.persist then touched.map (·.1) else []
          resolved := installed.session.resolved.size
          hidden := names }, final) ∧
      final.session = installed.session ∧ installed.world.SameLinks final.world ∧
      if config.persist then
        ∃ logged : SessionState, logged.world.sources = installed.world.sources ∧
          logged.world.defs = installed.world.defs ∧
          (saveAll installed.session.source touched).on logged = (.ok (), final)
      else final.world.sources = installed.world.sources := by
  let logged : SessionState := ⟨installed.session,
    { installed.world with log := installed.world.log.push (.patchInstalled patch.name) }⟩
  have hlinks : installed.world.SameLinks logged.world := ⟨⟨rfl, rfl⟩, rfl⟩
  rw [install_singleton, on_bind, within_ok.mpr hpatch]
  dsimp only
  rw [on_bind, on_log]
  dsimp only
  cases config.persist with
  | false => exact ⟨logged, rfl, rfl, hlinks, rfl⟩
  | true =>
      obtain ⟨sources, log, hsave⟩ := @saveAll_memory _ logged _ _ touched hsource
      refine ⟨⟨logged.session, logged.world.beside sources log⟩, ?_, rfl,
        hlinks.trans (World.sameLinks_beside _ sources log), logged, rfl, rfl, hsave⟩
      simp only [if_true]
      rw [on_bind, on_get]
      dsimp only
      rw [on_bind, hsave]
      rfl

/-- An installation that succeeds has installed its patch. -/
theorem installPatch_of_install
    (hon : (install config [patch]).on state = (.ok report, final)) :
    ∃ names touched installed,
      (installPatch config patch []).on state = (.ok (names, touched), installed) := by
  rw [install_singleton] at hon
  obtain ⟨⟨names, touched⟩, installed, hwithin, -⟩ := on_bind_ok.mp hon
  exact ⟨names, touched, installed, within_ok.mp hwithin⟩

/-- What a patch asks for, in order. -/
theorem visits_resolvePatch {decls : Declarations} (config : InstallConfig)
    (declarations : List Declaration) :
    Visits decls resolve (resolvePatch config decls declarations)
      ((declarations.filter fun declaration =>
          config.verifyDependencies && (decls.terms declaration).readOnly) ++
        (declarations.filter (·.isContainer) ++
          declarations.filter fun declaration => !declaration.isContainer)) :=
  (visits_resolveAll _).bind fun _ => (visits_resolveAll _).bind fun _ => visits_resolveAll _

/-- The first part of an installation that succeeds. -/
theorem resolvePatch_of_installPatch {touched' : Touched}
    (hon : (installPatch config patch touched).on state = (.ok (names, touched'), final)) :
    ∃ first, (resolvePatch config state.world.decls
      (patch.modules.flatMap state.world.decls.walk)).on state = (.ok (), first) := by
  rw [installPatch_eq] at hon
  obtain ⟨_, _, hworld, hon⟩ := on_bind_ok.mp hon
  cases hworld
  obtain ⟨_, first, hresolve, -⟩ := on_bind_ok.mp hon
  exact ⟨first, hresolve⟩

/-! ## What has been resolved -/

/-- What is remembered is at hand, and asking for it changes nothing but the count of hits and the
log. -/
theorem on_resolveWithin_remembered {declaration : Declaration} {definition : Definition}
    {depth : Nat} {inFlight : InFlight}
    (hmemo : state.session.resolved.get? declaration = some definition) :
    ∃ hits log, (resolveWithin (depth + 1) inFlight declaration).on state = (.ok definition,
      ⟨{ state.session with hits }, { state.world with log }⟩) := by
  let entry : LogEntry := .memoHit (state.world.declSymbol declaration)
  refine ⟨state.session.hits + 1, state.world.log.push entry, ?_⟩
  rw [resolveWithin_succ, on_bind, remembered?, on_bind, on_get]
  dsimp only
  rw [hmemo]
  rfl

theorem on_resolve_remembered {declaration : Declaration} {definition : Definition}
    (hmemo : state.session.resolved.get? declaration = some definition) :
    ∃ hits log, (resolve declaration).on state = (.ok definition,
      ⟨{ state.session with hits }, { state.world with log }⟩) := by
  unfold resolve
  rw [on_bind, on_world]
  exact on_resolveWithin_remembered hmemo

theorem on_touchAll_remembered {decls : Declarations} {ids : List (DeclId .module)}
    (touched : Touched) (hmemo : ∀ id ∈ ids, ∃ module,
      state.session.resolved.get? (.module id) = some (.module module)) :
    ∃ touched' hits log, SessionTask.on (ids.foldlM (fun (touched : Touched) id => do
      return touched.add (decls.module id).name (← Search.module resolve id)) touched) state =
        (.ok touched', ⟨{ state.session with hits }, { state.world with log }⟩) := by
  -- Every module counts as one more hit, so that the state differs from one to the next.
  induction ids generalizing touched state with
  | nil => exact ⟨touched, _, _, rfl⟩
  | cons id ids ih =>
      obtain ⟨⟨module, hmodule⟩, hmemo⟩ := List.forall_mem_cons.mp hmemo
      obtain ⟨hits, log, hon⟩ := on_resolve_remembered hmodule
      rw [List.foldlM_cons, on_bind, on_bind, Search.module, on_bind, hon]
      let next : SessionState := ⟨{ state.session with hits }, { state.world with log }⟩
      obtain ⟨touched', hits', log', hrest⟩ :=
        @ih next (touched.add (decls.module id).name module) hmemo
      exact ⟨touched', hits', log', hrest⟩

/-- Modules that are remembered can be touched. -/
theorem on_touch_remembered {ids : List (DeclId .module)} (touched : Touched)
    (hmemo : ∀ id ∈ ids, ∃ module,
      state.session.resolved.get? (.module id) = some (.module module)) :
    ∃ touched' hits log, (touch ids touched).on state =
      (.ok touched', ⟨{ state.session with hits }, { state.world with log }⟩) := by
  unfold touch
  rw [on_bind, on_world]
  exact on_touchAll_remembered touched fun id hmem => hmemo id (List.mem_of_mem_filter hmem)

theorem on_transplants_none {ids : List (DeclId .method)} {suffix : String}
    (hnone : ∀ id ∈ ids, (state.world.decls.method id).body = none) :
    ∃ hidden : List (Option String), hidden.filterMap id = [] ∧
      SessionTask.on (ids.mapM (m := SessionTask) fun id => do
        match ← transplant id suffix with
        | some hidden => return some ((← SessionTask.world).methodName hidden)
        | none => return none) state = (.ok hidden, state) := by
  induction ids with
  | nil => exact ⟨[], rfl, rfl⟩
  | cons id ids ih =>
      obtain ⟨hid, hnone⟩ := List.forall_mem_cons.mp hnone
      obtain ⟨hidden, hempty, hrest⟩ := ih hnone
      have htransplant : (transplant id suffix).on state = (.ok none, state) := by
        rw [transplant, on_bind, on_world]
        dsimp only
        rw [hid]
        rfl
      refine ⟨none :: hidden, hempty, ?_⟩
      rw [List.mapM_cons, on_bind, on_bind, htransplant]
      dsimp only
      rw [on_pure]
      dsimp only
      rw [on_bind, hrest]
      rfl

/-- Where no body is declared, none is put in place. -/
theorem on_transplantAll_none {declarations : List Declaration} {suffix : String}
    (hnone : ∀ id, .method id ∈ declarations → (state.world.decls.method id).body = none) :
    (transplantAll declarations suffix).on state = (.ok [], state) := by
  have hmethods : ∀ id ∈ declarations.filterMap (·.method?),
      (state.world.decls.method id).body = none := by
    intro id hmem
    obtain ⟨declaration, hmem, hmethod⟩ := List.mem_filterMap.mp hmem
    cases declaration <;> cases hmethod
    exact hnone _ hmem
  obtain ⟨hidden, hempty, hon⟩ := on_transplants_none hmethods
  refine on_bind_ok.mpr ⟨hidden, state, hon, ?_⟩
  rw [hempty]
  rfl

end SessionTask

end Graft
