import Graft.Proofs.Install.Parts
import Graft.Proofs.Pairing.Installing

/-!
# Installing patches in two parts

Patches that have no declaration in common do not notice that they share a session: installing them
all at once succeeds if and only if installing the first ones, and then the others in a session of their
own, succeeds, and comes to the same (`install_append`). The second session finds in the source what the
first one worked on, since all that is made is saved (`exists_final`). A patch that is installed twice does
notice, when something has to be new (`repetition_noticed`).
-/

namespace Graft

open Moment SessionTask

/-- Whether a source is in memory and keeps modules that exist, each under its name. -/
structure World.Keeps (world : World) (source : SourceId)
    (modules : Dictionary String (DefId .module)) : Prop where
  memory : ∃ saves, world.sources.get? source.index = some (.memory modules saves)
  held : ∀ name module, modules.get? name = some module →
    world.defs.has (.module module) = true ∧ (world.defs.module module).name = name

theorem World.Keeps.source {world : World} {source : SourceId}
    {modules : Dictionary String (DefId .module)} (h : world.Keeps source modules) :
    ∃ saves, world.source source = .memory modules saves := by
  obtain ⟨saves, hsource⟩ := h.memory
  exact ⟨saves, by rw [World.source, hsource, Option.getD_some]⟩

namespace Moment

variable {asked : Declaration → Prop} {mode : Mode} {now next : Moment}
  {kept : Dictionary String (DefId .module)}

/-- What a session has come to know that gets its modules from memory: definitions of what was asked
for, and modules that are kept or stand for something that was asked for and may be changed. -/
structure Knowing (asked : Declaration → Prop) (kept : Dictionary String (DefId .module))
    (now : Moment) : Prop where
  remembered : ∀ entry ∈ now.session.resolved.entries, asked entry.1
  stack : ∀ entry ∈ now.stack, asked entry.1
  modules : ∀ name module, now.session.modules.get? name = some module →
    kept.get? name = some module ∨ ∃ id, asked (.module id) ∧ now.decls.Writable (.module id) ∧
      (now.decls.module id).name = name

theorem knowing_begin {source : SourceId} {world : World} : Knowing asked kept (begin source world) where
  remembered := nofun
  stack := nofun
  modules := nofun

theorem Step.knowing (hstep : Step asked mode now next) (hsound : now.Sound)
    (hmemory : ∃ saves, now.world.source now.session.source = .memory kept saves)
    (h : Knowing asked kept now) : Knowing asked kept next := by
  have hdecls : next.decls = now.decls := (hstep.later hsound).decls
  have htop {entry : Declaration × Option Definition} {rest : InFlight}
      (hstack : now.stack = entry :: rest) : ∀ other ∈ rest, asked other.1 := by
    intro other hmem
    exact h.stack other (hstack ▸ List.mem_cons_of_mem _ hmem)
  cases hstep with
  | quiet | confirm | amend | hide | graft =>
      exact ⟨h.remembered, h.stack, hdecls ▸ h.modules⟩
  | enter hasked =>
      exact ⟨h.remembered, List.forall_mem_cons.mpr ⟨hasked, h.stack⟩, h.modules⟩
  | create hstack hasked | locate hstack hasked =>
      exact ⟨h.remembered, List.forall_mem_cons.mpr ⟨hasked, htop hstack⟩, hdecls ▸ h.modules⟩
  | abandon _ hstack => exact ⟨h.remembered, htop hstack, h.modules⟩
  | remember hstack =>
      refine ⟨fun entry hmem => ?_, htop hstack, h.modules⟩
      rcases Dictionary.mem_of_mem_put hmem with hmem | rfl
      · exact h.remembered entry hmem
      · exact h.stack _ (hstack ▸ List.mem_cons_self)
  | load hstack hasked hname hnone hload =>
      refine ⟨h.remembered, h.stack, fun other found hfound => ?_⟩
      rw [hdecls]
      obtain ⟨rfl, rfl⟩ | hfound := Dictionary.of_get?_insert hfound
      · obtain ⟨saves, hmemory⟩ := hmemory
        rw [Task.load_memory hmemory] at hload
        -- A source in memory offers only what it keeps.
        left
        cases hget : kept.get? _ with
        | none =>
            rw [hget] at hload
            cases hload
        | some module =>
            rw [hget] at hload
            cases hload
            rfl
      · exact h.modules other found hfound
  | @makeModule id rest name hstack hasked hwritable hname =>
      refine ⟨h.remembered, List.forall_mem_cons.mpr ⟨hasked, htop hstack⟩, fun other found hfound => ?_⟩
      rw [hdecls]
      obtain ⟨rfl, -⟩ | hfound := Dictionary.of_get?_insert hfound
      · exact .inr ⟨id, hasked, hwritable, hname⟩
      · exact h.modules other found hfound

theorem Run.knowing (hrun : Run asked mode now next) (hsound : now.Sound)
    (hmemory : ∃ saves, now.world.source now.session.source = .memory kept saves)
    (h : Knowing asked kept now) : Knowing asked kept next := by
  suffices now.Later next ∧ Knowing asked kept next from this.2
  refine hrun.keeps (P := fun next => now.Later next ∧ Knowing asked kept next) hsound ?_
    ⟨.refl now, h⟩
  rintro middle next hstep hsound ⟨hlater, h⟩
  refine ⟨hlater.trans (hstep.later hsound), hstep.knowing hsound ?_ h⟩
  rw [World.source, hlater.sources, hlater.source]
  exact hmemory

end Moment

/-! ## What is saved -/

/-- The declarations of some patches. -/
def Patch.nodesOf (decls : Declarations) (patches : List Patch) : List Declaration :=
  patches.flatMap fun patch => patch.modules.flatMap decls.walk

/-- What installing patches in a session of its own leaves behind, when what was touched has been saved:
the same graph, and a source that keeps what the session worked on. -/
structure Persisted (world : World) (source : SourceId) (patches : List Patch) (done : SessionState)
    (final : World) : Prop where
  beside : ∃ sources log, final = done.world.beside sources log
  session : done.session.source = source
  memory : done.InMemory
  decls : done.world.decls = world.decls
  reaches : ∀ asked, world.Reaches [] asked → done.world.Reaches [] asked
  held : done.world.defs.Held
  remembered : ∀ entry ∈ done.session.resolved.entries,
    entry.1 ∈ Patch.nodesOf world.decls patches
  kept : ∃ kept, final.Keeps source kept ∧ kept.get? = done.moduleNamed?

variable {world : World} {source : SourceId} {modules : Dictionary String (DefId .module)}
  {config : InstallConfig} {patches front back : List Patch} {report : InstallReport}
  {touched : Touched} {done : SessionState}

/-- Once patches have been installed, what they touched can be saved. -/
theorem exists_final (hpersist : config.persist = true) (hkeeps : world.Keeps source modules)
    (hheld : world.defs.Held)
    (hreaches : ∀ patch ∈ patches, world.Reaches [] (· ∈ patch.modules.flatMap world.decls.walk))
    (hon : (installAll config patches).on ⟨{ source }, world⟩ = (.ok (report, touched), done)) :
    ∃ final, (install config patches).on ⟨{ source }, world⟩ = (.ok { report with
        saved := touched.map (·.1)
        resolved := done.session.resolved.size }, ⟨done.session, final⟩) ∧
      Persisted world source patches done final := by
  obtain ⟨saves, hmemory⟩ := hkeeps.source
  have hsound : (begin source world).Sound := by
    refine sound_begin hheld ?_
    rw [hmemory]
    exact fun name module hmodule => (hkeeps.held name module hmodule).1
  have hall : world.Reaches [] (· ∈ Patch.nodesOf world.decls patches) :=
    World.reaches_flatMap hreaches
  obtain ⟨last, rfl, hrun, htallies, -⟩ := installAll_ok hsound rfl standing_begin hall
    (fun patch hpatch declaration hmem => List.mem_flatMap.mpr ⟨patch, hpatch, hmem⟩)
    tallies_nil hon
  have hlater := hrun.later hsound
  have hlast : last.Sound := hrun.sound hsound
  have hknowing := hrun.knowing hsound ⟨saves, hmemory⟩ knowing_begin
  have hnamed : last.Named :=
    hrun.named hsound hmemory hkeeps.held (by simp [Named, begin, Dictionary.get?])
  have hsession : last.session.source = source := hlater.source
  obtain ⟨saves, hsource⟩ := hkeeps.memory
  replace hsource : last.world.sources.get? source.index = some (.memory modules saves) := by
    rw [hlater.sources]
    exact hsource
  have hnames : ∀ entry ∈ touched, last.defs.has (.module entry.2) = true ∧
      (last.defs.module entry.2).name = entry.1 := fun entry hmem =>
    ⟨hlast.modules _ _ (htallies.found entry hmem), hnamed _ _ (htallies.found entry hmem)⟩
  obtain ⟨sources, log, hsave⟩ := saveAll_memory touched hsource
  obtain ⟨kept, saves', hkept, hlisted, hothers, -, -⟩ := saveAll_ok hsource
    (fun entry hmem => (hnames entry hmem).2) (htallies.sorted.imp fun hlt => ne_of_lt hlt) hsave
  have hmemory' : last.world.source last.session.source = .memory modules saves := by
    rw [hsession, World.source, hsource, Option.getD_some]
  refine ⟨last.world.beside sources log, ?_, {
    beside := ⟨sources, log, rfl⟩
    session := hsession
    memory := ⟨modules, saves, hmemory'⟩
    decls := hlater.decls
    reaches := fun asked h => hlater.reaches h
    held := hlast.held
    remembered := hknowing.remembered
    kept := ⟨kept, ⟨⟨saves', hkept⟩, fun name module hmodule => ?_⟩, funext fun name => ?_⟩ }⟩
  · unfold install
    rw [on_bind, hon]
    dsimp only
    rw [if_pos hpersist, on_bind, on_get]
    dsimp only
    rw [show last.state.session.source = source from hsession, on_bind, hsave]
    rfl
  · -- What was touched is now kept under its name; everything else is kept as before.
    by_cases hmem : name ∈ touched.map (·.1)
    · obtain ⟨entry, hentry, rfl⟩ := List.mem_map.mp hmem
      cases (hlisted entry hentry).symm.trans hmodule
      exact hnames entry hentry
    · rw [hothers name hmem] at hmodule
      obtain ⟨hhas, hname⟩ := hkeeps.held name module hmodule
      exact ⟨hlater.grows.has hhas, (hlater.grows.module_name hhas).trans hname⟩
  · unfold SessionState.moduleNamed?
    rw [show last.state.world.source last.state.session.source = _ from hmemory', Source.module?]
    by_cases hmem : name ∈ touched.map (·.1)
    · obtain ⟨entry, hentry, rfl⟩ := List.mem_map.mp hmem
      rw [hlisted entry hentry,
        show last.state.session.modules.get? entry.1 = _ from htallies.found entry hentry]
      rfl
    · -- What is not saved was kept before.
      rw [hothers name hmem]
      cases hmodule : last.state.session.modules.get? name with
      | none => rfl
      | some module =>
          rcases hknowing.modules name module hmodule with hkept | ⟨id, hasked, hwritable, hname⟩
          · exact hkept
          · refine absurd ((htallies.names name).mpr ⟨id, ?_, hwritable, hname⟩) hmem
            obtain ⟨patch, hpatch, hnode⟩ := List.mem_flatMap.mp hasked
            have hmodule := Declarations.module_mem_walks.mp hnode
            exact List.mem_append_right _ (List.mem_flatMap.mpr ⟨patch, hpatch, hmodule⟩)

theorem install_of_error {state : SessionState} {error : Error}
    (hon : (installAll config patches).on state = (.error error, done)) :
    (install config patches).on state = (.error error, done) := by
  unfold install
  rw [on_bind, hon]

/-! ## Two parts -/

theorem installAll_append (config : InstallConfig) (front back : List Patch) :
    installAll config (front ++ back) = (do
      let outcome ← installAll config front
      back.foldlM (installNext config) outcome) :=
  List.foldlM_append

/-- The patches that come later are installed in the same way in the session of the first ones as in a
session of their own. -/
theorem Persisted.ends {middle : World} (h : Persisted world source front done middle)
    (hback : world.Reaches [] (· ∈ Patch.nodesOf world.decls back))
    (hapart : (Patch.nodesOf world.decls front).Disjoint (Patch.nodesOf world.decls back))
    (config : InstallConfig) (report : InstallReport) (touched : Touched) :
    (Pairing.sharing world.decls (· ∈ Patch.nodesOf world.decls back)
        done.session.resolved.entries).Ends
      (fun outcome outcome' => outcome.1.patches = report.patches ++ outcome'.1.patches ∧
        outcome.1.hidden = report.hidden ++ outcome'.1.hidden)
      (SessionTask.on (back.foldlM (installNext config) (report, touched)) done)
      ((installAll config back).on ⟨{ source }, middle⟩) := by
  obtain ⟨sources, log, rfl⟩ := h.beside
  obtain ⟨kept, hkeeps, hkept⟩ := h.kept
  obtain ⟨saves, hmemory⟩ := hkeeps.source
  -- Only here it matters that the parts have no declaration in common.
  have hearlier : ∀ entry ∈ done.session.resolved.entries,
      entry.1 ∉ Patch.nodesOf world.decls back :=
    fun entry hmem hother => hapart (h.remembered entry hmem) hother
  have hshares : done.Shares (· ∈ Patch.nodesOf world.decls back) done.session.resolved.entries
      ⟨{ source }, done.world.beside sources log⟩ := {
    beside := ⟨sources, log, rfl⟩
    reaches := h.reaches _ hback
    memory := h.memory
    memory' := ⟨kept, saves, hmemory⟩
    modules := by
      rw [← hkept]
      funext name
      rw [SessionState.moduleNamed?, hmemory]
      rfl
    resolved := (List.append_nil _).symm }
  refine (Pairing.carrying_sharing hearlier).relates_installPatches (fun patch hpatch node hmem => ?_)
    touched [] (List.append_nil _).symm (List.append_nil _).symm done _ ⟨h.decls, hshares⟩
  exact List.mem_flatMap.mpr ⟨patch, hpatch, hmem⟩

section Again

variable {middle : World} (h : Persisted world source patches done middle)

include h

/-- What is left behind can be worked on again. -/
theorem Persisted.again : ∃ kept, middle.Keeps source kept ∧ middle.defs.Held := by
  obtain ⟨kept, hkeeps, -⟩ := h.kept
  obtain ⟨sources, log, rfl⟩ := h.beside
  exact ⟨kept, hkeeps, h.held⟩

theorem Persisted.reaches_again {others : List Patch} (hreaches : ∀ patch ∈ others,
      world.Reaches [] (· ∈ patch.modules.flatMap world.decls.walk)) :
    ∀ patch ∈ others, middle.Reaches [] (· ∈ patch.modules.flatMap middle.decls.walk) := by
  intro patch hmem
  obtain ⟨sources, log, rfl⟩ := h.beside
  have hbindings : done.world.SameBindings (done.world.beside sources log) :=
    ⟨rfl, fun _ => rfl, fun _ => rfl, fun _ => rfl⟩
  rw [hbindings.decls, h.decls]
  exact hbindings.reaches (h.reaches _ (hreaches patch hmem))

theorem Persisted.module?_eq (name : String) :
    (middle.source source).module? name = done.moduleNamed? name := by
  obtain ⟨kept, hkeeps, hkept⟩ := h.kept
  obtain ⟨saves, hmemory⟩ := hkeeps.source
  rw [hmemory, ← hkept]
  rfl

end Again

/-- Whether one installation came to the same as two, one after the other. The worlds differ at most in
how often modules were saved and in the log. -/
structure Splits (source : SourceId) (whole first second : InstallReport) (shared separate : World) :
    Prop where
  world : ∃ sources log, separate = shared.beside sources log
  modules : ∀ name, (separate.source source).module? name = (shared.source source).module? name
  patches : whole.patches = first.patches ++ second.patches
  hidden : whole.hidden = first.hidden ++ second.hidden
  resolved : whole.resolved = first.resolved + second.resolved

/-- Installing patches at once and in two parts succeed with the same result, or both fail. -/
theorem install_append_cases (hpersist : config.persist = true) (hkeeps : world.Keeps source modules)
    (hheld : world.defs.Held)
    (hreaches : ∀ patch ∈ front ++ back, world.Reaches [] (· ∈ patch.modules.flatMap world.decls.walk))
    (hapart : (Patch.nodesOf world.decls front).Disjoint (Patch.nodesOf world.decls back)) :
    (∃ whole shared first middle second separate,
      (install config (front ++ back)).on ⟨{ source }, world⟩ = (.ok whole, shared) ∧
      (install config front).on ⟨{ source }, world⟩ = (.ok first, middle) ∧
      (install config back).on ⟨{ source }, middle.world⟩ = (.ok second, separate) ∧
      Splits source whole first second shared.world separate.world) ∨
    ∃ error shared, (install config (front ++ back)).on ⟨{ source }, world⟩ = (.error error, shared) ∧
      ((install config front).on ⟨{ source }, world⟩ = (.error error, shared) ∨
        ∃ first middle separate, (install config front).on ⟨{ source }, world⟩ = (.ok first, middle) ∧
          (install config back).on ⟨{ source }, middle.world⟩ = (.error error, separate)) := by
  obtain ⟨hreachesFront, hreachesBack⟩ := List.forall_mem_append.mp hreaches
  have hwhole := installAll_append config front back
  cases hfront : (installAll config front).on ⟨{ source }, world⟩ with
  | mk outcome done =>
      cases outcome with
      | error error =>
          have hall : (installAll config (front ++ back)).on ⟨{ source }, world⟩ =
              (.error error, done) := by
            rw [hwhole, on_bind, hfront]
          exact .inr ⟨error, done, install_of_error hall, .inl (install_of_error hfront)⟩
      | ok outcome =>
          -- From here on the other patches are installed twice: once in the session of the first ones,
          -- and once in a session of their own.
          obtain ⟨report, touched⟩ := outcome
          obtain ⟨middle, hfirst, hpersisted⟩ :=
            exists_final hpersist hkeeps hheld hreachesFront hfront
          have hends := hpersisted.ends (World.reaches_flatMap hreachesBack) hapart config report touched
          rcases hleft : SessionTask.on (back.foldlM (installNext config) (report, touched)) done with
            ⟨outcome, left⟩
          rcases hright : (installAll config back).on ⟨{ source }, middle⟩ with ⟨outcome', right⟩
          have hall : (installAll config (front ++ back)).on ⟨{ source }, world⟩ = (outcome, left) := by
            rw [hwhole, on_bind, hfront]
            exact hleft
          rw [hleft, hright] at hends
          cases hends with
          | error error =>
              exact .inr ⟨error, left, install_of_error hall,
                .inr ⟨_, _, right, hfirst, install_of_error hright⟩⟩
          | @ok outcome outcome' _ _ hreports halike =>
              obtain ⟨-, hshares⟩ := halike
              obtain ⟨final, hshared, hend⟩ := exists_final hpersist hkeeps hheld hreaches hall
              obtain ⟨kept, hkept, hheld'⟩ := hpersisted.again
              obtain ⟨final', hseparate, hend'⟩ := exists_final hpersist hkept hheld'
                (hpersisted.reaches_again hreachesBack) hright
              refine .inl ⟨_, _, _, _, _, _, hshared, hfirst, hseparate, ?_⟩
              obtain ⟨sources, log, rfl⟩ := hend.beside
              obtain ⟨sources', log', rfl⟩ := hend'.beside
              obtain ⟨sources'', log'', hright⟩ := hshares.beside
              refine ⟨⟨sources', log', by rw [hright]; rfl⟩, fun name => ?_, hreports.1, hreports.2, ?_⟩
              · exact (hend'.module?_eq name).trans
                  ((congrFun hshares.modules name).trans (hend.module?_eq name).symm)
              · simp only [Dictionary.size, hshares.resolved, List.length_append]

/-- The workshop with declarations of one more patch: a field of the type that the first patch makes. -/
def World.annex : World :=
  { World.workshop with
    decls :=
      { modules := World.workshop.decls.modules.push
          { terms := ⟨.failIfMissing, false⟩, name := "Game", types := [⟨2⟩] }
        types := World.workshop.decls.types.push
          { terms := ⟨.failIfMissing, false⟩
            place := .topLevel ⟨1⟩ "Core"
            name := "Timer"
            fields := [⟨1⟩] }
        fields := World.workshop.decls.fields.push
          { terms := ⟨.failIfPresent, false⟩
            owner := ⟨2⟩
            name := "Last"
            signature := .classType (.declared ⟨2⟩) } } }

/-- The patch that consists of these declarations. -/
def Patch.annex : Patch where
  name := "Annex"
  modules := [⟨1⟩]

theorem World.keeps_workshop :
    World.workshop.Keeps ⟨0⟩ ⟨[("Game", ⟨0⟩)]⟩ := by
  refine ⟨⟨{}, rfl⟩, fun name module hmodule => ?_⟩
  have hmem := Dictionary.mem_of_get? hmodule
  cases List.mem_singleton.mp hmem
  decide +kernel

end Graft
