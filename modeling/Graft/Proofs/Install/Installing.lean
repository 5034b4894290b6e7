import Graft.Proofs.Install.Touching
import Graft.Proofs.Source.Saving
import Mathlib.Data.List.ReduceOption

/-!
# Installing patches is a run

What an installation that succeeds has done: all declarations of the patch were resolved, then the
declared bodies were put in place one after another (`Grafts`), and what came after that changed no
definition (`install_ok`).
-/

namespace Graft

namespace Moment

open SessionTask

variable {asked : Declaration → Prop} {bound : Option Nat} {now next last done : Moment}
  {hides : Bool} {α : Type}

/-- After declarations were resolved one after another, each of them has its answer. -/
theorem leads_resolveAll {declarations : List Declaration} (hsound : now.Sound)
    (hstack : now.stack = []) (hasked : ∀ declaration ∈ declarations, asked declaration) :
    Leads asked bound now (resolveAll declarations) fun _ next =>
      ∀ declaration ∈ declarations, ∃ definition, next.answer declaration = some definition := by
  refine Leads.forM (fun declaration _ _ hafter => ?_) hsound ?_
  · exact Exists.imp fun definition => hafter.answers declaration definition
  · intro front declaration rest hsplit next hafter _
    have hmem : declaration ∈ declarations := by simp [hsplit]
    refine Leads.bind hafter.sound (finds_resolve asked bound next hafter.sound
      (hafter.stack.trans hstack) declaration (hasked declaration hmem) nofun) ?_
    exact fun definition last _ hanswer => Leads.pure ⟨definition, hanswer⟩

/-! ## Bodies -/

/-- Bodies that are put in place one after another, with the hidden methods that were made. -/
inductive Grafts (asked : Declaration → Prop) (suffix : String) :
    List (DeclId .method) → List (Option (DefId .method)) → Moment → Moment → Prop where
  | done (now : Moment) : Grafts asked suffix [] [] now now
  | skip {id : DeclId .method} {ids : List (DeclId .method)} {hidden : List (Option (DefId .method))}
      {now last : Moment} (hnone : (now.decls.method id).body = none)
      (h : Grafts asked suffix ids hidden now last) :
      Grafts asked suffix (id :: ids) (none :: hidden) now last
  | graft {id : DeclId .method} {ids : List (DeclId .method)}
      {hidden : List (Option (DefId .method))} {now done last : Moment} {graft : Transplant}
      {context : TransplantContext} {body : Body} {state : SessionState}
      (hsuffix : context.suffix = suffix)
      (hgrafted : Grafted asked id graft context body now done state)
      (h : Grafts asked suffix ids hidden { done with state } last) :
      Grafts asked suffix (id :: ids) (context.hidden :: hidden) now last

/-- Putting bodies in place is a run. -/
theorem Grafts.run {suffix : String} {ids : List (DeclId .method)}
    {hidden : List (Option (DefId .method))} (h : Grafts asked suffix ids hidden now last) :
    Run asked { hides := true, grafts := true } now last := by
  induction h with
  | done => exact .refl
  | skip _ _ ih => exact ih
  | graft _ hgrafted _ ih => exact hgrafted.grafts.trans ih

theorem Grafts.stack {suffix : String} {ids : List (DeclId .method)}
    {hidden : List (Option (DefId .method))} (h : Grafts asked suffix ids hidden now last)
    (hstack : now.stack = []) : last.stack = [] := by
  induction h with
  | done => exact hstack
  | skip _ _ ih => exact ih hstack
  | graft _ hgrafted _ ih => exact ih hgrafted.working.stack

/-- What the hidden method of a method with a declared body is for: it was made if and only if the
body calls the base body, and then it is called instead. -/
def HiddenFor (start : World) (now : Moment) (id : DeclId .method) (hidden : Option (DefId .method)) :
    Prop :=
  match (start.decls.method id).body with
  | none => hidden = none
  | some graft =>
    (∃ body, now.CarriedBody start graft.transformer hidden graft.body body) ∧
      (hidden.isSome ↔ ∃ instruction ∈ graft.body.code, ∃ operand,
        now.Carried start graft.transformer hidden true instruction.operand operand)

theorem hiddenFor_of_carried {start : World} {graft : Transplant} {body : Body}
    {made : Option (DefId .method)} {id : DeclId .method}
    (hdeclared : (start.decls.method id).body = some graft)
    (hcarried : now.CarriedBody start graft.transformer made graft.body body) :
    HiddenFor start now id made := by
  unfold HiddenFor
  rw [hdeclared]
  refine ⟨⟨body, hcarried⟩, ?_⟩
  rw [Option.isSome_iff_exists]
  refine ⟨fun ⟨method, hmethod⟩ => hcarried.called method hmethod, ?_⟩
  rintro ⟨instruction, -, operand, hcall⟩
  exact hcall.exists_hidden rfl

/-- Each hidden method is there for its body, and is made before those of later ones. -/
theorem Grafts.hidden {suffix : String} {ids : List (DeclId .method)}
    {hidden : List (Option (DefId .method))} (start : World) {final : Moment}
    (h : Grafts asked suffix ids hidden now last) (hsound : now.Sound) (hstack : now.stack = [])
    (hstart : start.defs.Grows now.defs) (hdecls : now.decls = start.decls)
    (hlater : last.Later final) (hfinal : final.Sound) (hidle : final.stack = []) :
    last.hidden = hidden.reduceOption.reverse ++ now.hidden ∧
      List.Forall₂ (HiddenFor start final) ids hidden := by
  induction h with
  | done => exact ⟨rfl, .nil⟩
  | @skip id ids hidden now last hnone _ ih =>
      obtain ⟨htrace, hall⟩ := ih hsound hstack hstart hdecls hlater
      refine ⟨htrace, .cons ?_ hall⟩
      rw [hdecls] at hnone
      simp [HiddenFor, hnone]
  | @graft id ids hidden now done last graft context body state hsuffix hgrafted hrest ih =>
      have hrun := hgrafted.grafts
      have hafter := hrun.sound hsound
      obtain ⟨htrace, hall⟩ := ih hafter hgrafted.working.stack
        (hstart.trans (hrun.later hsound).grows) ((hrun.later hsound).decls.trans hdecls) hlater
      refine ⟨?_, .cons ?_ hall⟩
      · rw [htrace, hgrafted.working.trace]
        cases context.hidden <;> simp
      · have hdone := hgrafted.replaces.later hgrafted.working.sound
        have hlast := hdone.trans ((hrest.run.later hafter).trans hlater)
        have hcarried := hgrafted.carried.mono hlast
          (hlast.answers hfinal (hidle.trans hgrafted.working.stack.symm))
        have hdeclared := hgrafted.declared
        rw [hdecls] at hdeclared
        exact hiddenFor_of_carried hdeclared (hcarried.of_earlier hstart)

/-- Bodies that were all put in place successfully. -/
theorem transplants_ok {suffix : String} {ids : List (DeclId .method)}
    {names : List (Option String)} {state : SessionState} {calls : List SessionCall}
    (hsound : now.Sound) (hstack : now.stack = []) (hreaches : now.world.Reaches calls asked)
    (hasked : ∀ id ∈ ids, asked (.method id))
    (hon : SessionTask.on (ids.mapM (m := SessionTask) fun id => do
      match ← transplant id suffix with
      | some hidden => return some ((← SessionTask.world).methodName hidden)
      | none => return none) now.state = (.ok names, state)) :
    ∃ hidden last, last.state = state ∧ Grafts asked suffix ids hidden now last := by
  induction ids generalizing now names with
  | nil =>
      cases hon
      exact ⟨[], now, rfl, .done now⟩
  | cons id ids ih =>
      have hid := hasked id List.mem_cons_self
      have hasked' : ∀ other ∈ ids, asked (.method other) := fun other hmem =>
        hasked other (List.mem_cons_of_mem _ hmem)
      rw [List.mapM_cons] at hon
      obtain ⟨name, middle, hfirst, hrest⟩ := on_bind_ok.mp hon
      obtain ⟨made, after, htransplant, hname⟩ := on_bind_ok.mp hfirst
      have hafter : after = middle := by
        cases made with
        | none => exact congrArg Prod.snd hname
        | some hidden => exact congrArg Prod.snd hname
      subst hafter
      obtain ⟨others, last, hothers, hlast⟩ := on_bind_ok.mp hrest
      cases hlast
      have hdone := transplant_on suffix hsound hstack hreaches.closed hid
        fun graft hgraft hwritable => hreaches.bodies id graft hid hwritable hgraft
      rw [htransplant] at hdone
      obtain ⟨hnone, rfl, rfl⟩ | ⟨graft, context, body, done, rfl, hsuffix, hgrafted⟩ := hdone
      · obtain ⟨hidden, last, hstate, hgrafts⟩ := ih hsound hstack hreaches hasked' hothers
        exact ⟨none :: hidden, last, hstate, .skip hnone hgrafts⟩
      · have hrun := hgrafted.grafts
        obtain ⟨hidden, last, hstate, hgrafts⟩ := ih
          (hrun.sound hsound) hgrafted.working.stack ((hrun.later hsound).reaches hreaches) hasked'
          hothers
        exact ⟨context.hidden :: hidden, last, hstate, .graft hsuffix hgrafted hgrafts⟩

/-! ## Installations -/

/-- What an installation that succeeds has done: it resolved all declarations, put the bodies in
place, and came across nothing new after that. -/
structure Installed (asked : Declaration → Prop) (suffix : String) (declarations : List Declaration)
    (hidden : List (Option (DefId .method))) (now first middle last : Moment) : Prop where
  resolves : Run asked {} now first
  stack : first.stack = []
  answers : ∀ declaration ∈ declarations, ∃ definition, first.answer declaration = some definition
  grafts : Grafts asked suffix (declarations.filterMap (·.method?)) hidden first middle
  touches : Run asked {} middle last
  idle : last.stack = []

section Installed

variable {suffix : String} {declarations : List Declaration}
  {hidden : List (Option (DefId .method))} {first middle : Moment}
  (h : Installed asked suffix declarations hidden now first middle last)

include h

/-- An installation is a run, with nothing given up. -/
theorem Installed.run : Run asked { hides := true, grafts := true } now last :=
  (h.resolves.lax.trans h.grafts.run).trans h.touches.lax

/-- All declarations are remembered as soon as they have been resolved. -/
theorem Installed.remembered {declaration : Declaration} (hmem : declaration ∈ declarations) :
    ∃ definition, first.session.resolved.get? declaration = some definition := by
  obtain ⟨definition, hanswer⟩ := h.answers declaration hmem
  exact ⟨definition, by simpa [answer, h.stack] using hanswer⟩

/-- After everything has been resolved an installation goes on without forgetting anything. -/
theorem Installed.remains (hsound : now.Sound) : first.Later last :=
  Run.later (h.grafts.run.trans h.touches.lax) (h.resolves.sound hsound)

end Installed

end Moment

namespace SessionTask

/-- The part of an installation before any body is put in place. -/
def resolvePatch (config : InstallConfig) (decls : Declarations) (declarations : List Declaration) :
    SessionTask Unit := do
  resolveAll (declarations.filter fun declaration =>
    config.verifyDependencies && (decls.terms declaration).readOnly)
  resolveAll (declarations.filter (·.isContainer))
  resolveAll (declarations.filter fun declaration => !declaration.isContainer)

/-- An installation in three parts. -/
theorem installPatch_eq (config : InstallConfig) (patch : Patch) (touched : Touched) :
    installPatch config patch touched = (do
      let decls := (← SessionTask.world).decls
      let declarations := patch.modules.flatMap decls.walk
      resolvePatch config decls declarations
      let hidden ← transplantAll declarations config.hiddenSuffix
      return (hidden, ← touch patch.modules touched)) := by
  unfold installPatch resolvePatch
  congr 1
  funext world
  cases config.verifyDependencies <;> simp [resolveAll]

end SessionTask

namespace Moment

open SessionTask

variable {asked : Declaration → Prop} {bound : Option Nat} {now : Moment}

/-- Before any body is put in place all declarations of a patch are resolved. -/
theorem leads_resolvePatch {config : InstallConfig} {decls : Declarations}
    {declarations : List Declaration} (hsound : now.Sound) (hstack : now.stack = [])
    (hasked : ∀ declaration ∈ declarations, asked declaration) :
    Leads asked bound now (resolvePatch config decls declarations) fun _ next =>
      ∀ declaration ∈ declarations, ∃ definition, next.answer declaration = some definition := by
  have hall {next : Moment} (hafter : now.After next) (keeps : Declaration → Bool) :
      Leads asked bound next (resolveAll (declarations.filter keeps)) fun _ last =>
        ∀ declaration ∈ declarations.filter keeps,
          ∃ definition, last.answer declaration = some definition :=
    leads_resolveAll hafter.sound (hafter.stack.trans hstack) fun declaration hmem =>
      hasked declaration (List.mem_of_mem_filter hmem)
  unfold resolvePatch
  refine Leads.bind hsound (hall (.refl hsound) _) fun _ checked hchecked _ => ?_
  refine Leads.bind hchecked.sound (hall hchecked _) fun _ begun hbegun hcontainers => ?_
  refine Leads.mono hbegun.sound (hall (hchecked.trans hbegun) _) fun _ next hafter hmembers => ?_
  intro declaration hmem
  cases hcontainer : declaration.isContainer with
  | true =>
      obtain ⟨definition, hanswer⟩ :=
        hcontainers declaration (List.mem_filter.mpr ⟨hmem, hcontainer⟩)
      exact ⟨definition, hafter.answers _ _ hanswer⟩
  | false => exact hmembers declaration (List.mem_filter.mpr ⟨hmem, by simp [hcontainer]⟩)

/-- Installing a patch with success. -/
theorem installPatch_ok {config : InstallConfig} {patch : Patch} {touched touched' : Touched}
    {before : List (DeclId .module)} {names : List String} {state : SessionState}
    {calls : List SessionCall} (hsound : now.Sound) (hstack : now.stack = [])
    (hstanding : now.Standing) (hreaches : now.world.Reaches calls asked)
    (hasked : ∀ declaration ∈ patch.modules.flatMap now.decls.walk, asked declaration)
    (htallies : now.Tallies before touched)
    (hon : (installPatch config patch touched).on now.state = (.ok (names, touched'), state)) :
    ∃ hidden first middle last, last.state = state ∧ Installed asked config.hiddenSuffix
        (patch.modules.flatMap now.decls.walk) hidden now first middle last ∧
      last.Tallies (before ++ patch.modules) touched' := by
  rw [installPatch_eq] at hon
  obtain ⟨_, _, hworld, hon⟩ := on_bind_ok.mp hon
  cases hworld
  obtain ⟨_, resolved, hresolve, hon⟩ := on_bind_ok.mp hon
  obtain ⟨names', grafted, htransplant, hon⟩ := on_bind_ok.mp hon
  obtain ⟨_, touched, htouch, hon⟩ := on_bind_ok.mp hon
  cases hon
  obtain ⟨names', _, htransplant, hnames⟩ := on_bind_ok.mp htransplant
  cases hnames
  have hleads : Leads asked none now
      (resolvePatch config now.decls (patch.modules.flatMap now.decls.walk)) _ :=
    leads_resolvePatch hsound hstack hasked
  obtain ⟨first, rfl, hfirst, hresolves, hanswers⟩ := hleads.of_ok hreaches.closed hresolve
  replace hfirst := hfirst.trans hstack
  have hlater := hresolves.later hsound
  have hmethods : ∀ id ∈ (patch.modules.flatMap now.decls.walk).filterMap (·.method?),
      asked (.method id) := by
    intro id hmem
    obtain ⟨declaration, hmem, hmethod⟩ := List.mem_filterMap.mp hmem
    cases declaration <;> cases hmethod
    exact hasked _ hmem
  obtain ⟨hidden, middle, rfl, hgrafts⟩ := transplants_ok (hresolves.sound hsound) hfirst
    (hlater.reaches hreaches) hmethods htransplant
  have hgrafts' := hgrafts.run
  have hmiddle := hgrafts'.sound (hresolves.sound hsound)
  have hstack' := hgrafts.stack hfirst
  have hmodules : ∀ id ∈ patch.modules, asked (.module id) := fun id hmem =>
    hasked _ (List.mem_flatMap.mpr ⟨id, hmem, List.mem_cons_self⟩)
  have hlater' := hgrafts'.later (hresolves.sound hsound)
  have hstanding' := hgrafts'.standing (hresolves.sound hsound) (hresolves.standing hsound hstanding)
  obtain ⟨last, hlast, hidle, htouches, htallies'⟩ := touch_ok hmiddle hstack' hstanding'
    (hlater'.reaches (hlater.reaches hreaches)).closed hmodules
    ((hlater.trans hlater').tallies htallies) htouch
  exact ⟨hidden, first, middle, last, hlast,
    ⟨hresolves, hfirst, hanswers, hgrafts, htouches, hidle⟩, htallies'⟩

end Moment

/-! ## Saving -/

namespace SessionTask

/-- One module is saved, and then the others. -/
theorem saveAll_cons (source : SourceId) (name : String) (module : DefId .module)
    (touched : Touched) : saveAll source ((name, module) :: touched) = (do
      ofTask (Task.save source module)
      log (.moduleSaved name)
      saveAll source touched) := by
  simp [saveAll]

/-- Saving what was touched changes neither what the session remembers nor the graph. -/
theorem saveAll_on (source : SourceId) (touched : Touched) (state : SessionState) :
    ((saveAll source touched).on state).2.session = state.session ∧
      state.world.SameGraph ((saveAll source touched).on state).2.world := by
  induction touched generalizing state with
  | nil => exact ⟨rfl, rfl, rfl⟩
  | cons entry touched ih =>
      obtain ⟨name, module⟩ := entry
      have hsave := Task.save_spares source module state.world
      rw [saveAll_cons, on_bind, on_ofTask]
      cases hon : (Task.save source module).on state.world with
      | mk outcome world =>
          rw [hon] at hsave
          cases outcome with
          | error error => exact ⟨rfl, hsave⟩
          | ok saved =>
              dsimp only
              rw [on_bind, on_log]
              dsimp only
              let logged := { world with log := world.log.push (.moduleSaved name) }
              obtain ⟨hsession, hrest⟩ := ih { state with world := logged }
              have hlog : world.SameGraph logged := ⟨rfl, rfl⟩
              exact ⟨hsession, hsave.trans (hlog.trans hrest)⟩

/-- An operation whose failure is one of the patch ends as it does by itself otherwise. -/
theorem on_within {α : Type} (patch : String) (task : SessionTask α) (state : SessionState) :
    (within patch task).on state =
      ((task.on state).1.mapError (.patchFailed patch), (task.on state).2) := by
  simp only [within, tryCatch, tryCatchThe, MonadExceptOf.tryCatch, ExceptT.tryCatch, on,
    ExceptT.run, ExceptT.mk, bind, StateT.bind, StateT.run]
  cases task state with
  | mk outcome middle => cases outcome <;> rfl

/-- An operation that fails as a patch succeeds as it does by itself. -/
theorem within_ok {α : Type} {patch : String} {task : SessionTask α} {value : α}
    {state final : SessionState} :
    (within patch task).on state = (.ok value, final) ↔ task.on state = (.ok value, final) := by
  rw [on_within]
  cases hon : task.on state with
  | mk outcome middle => cases outcome <;> simp [Except.mapError]

end SessionTask

namespace Moment

open SessionTask

/-- Installing one patch with success. -/
theorem install_ok {asked : Declaration → Prop} {world : World} {source : SourceId}
    {config : InstallConfig} {patch : Patch} {report : InstallReport} {final : SessionState}
    {calls : List SessionCall} (hsound : (begin source world).Sound)
    (hreaches : world.Reaches calls asked)
    (hasked : ∀ declaration ∈ patch.modules.flatMap world.decls.walk, asked declaration)
    (hon : (SessionTask.install config [patch]).on ⟨{ source }, world⟩ = (.ok report, final)) :
    ∃ hidden first middle last, Installed asked config.hiddenSuffix
        (patch.modules.flatMap world.decls.walk) hidden (begin source world) first middle last ∧
      final.session = last.session ∧ last.world.SameGraph final.world ∧
      report.resolved = last.session.resolved.size := by
  obtain ⟨⟨report', touched⟩, installed, hall, hrest⟩ := on_bind_ok.mp hon
  obtain ⟨⟨report'', touched'⟩, _, hpatch, hnil⟩ := on_bind_ok.mp hall
  cases hnil
  obtain ⟨⟨names, touched'⟩, state, hwithin, hlog⟩ := on_bind_ok.mp hpatch
  obtain ⟨_, logged, hlogged, hreport⟩ := on_bind_ok.mp hlog
  cases hreport
  rw [on_log] at hlogged
  cases hlogged
  obtain ⟨hidden, first, middle, last, rfl, hinstalled, -⟩ :=
    installPatch_ok hsound rfl standing_begin hreaches hasked tallies_nil (within_ok.mp hwithin)
  refine ⟨hidden, first, middle, last, hinstalled, ?_⟩
  have hlog : last.world.SameGraph
      { last.world with log := last.world.log.push (.patchInstalled patch.name) } := ⟨rfl, rfl⟩
  dsimp only at hrest
  split at hrest
  · obtain ⟨_, _, hget, hrest⟩ := on_bind_ok.mp hrest
    cases hget
    obtain ⟨_, saved, hsaved, hrest⟩ := on_bind_ok.mp hrest
    obtain ⟨hsession, hsave⟩ := saveAll_on last.session.source touched
      ⟨last.session, { last.world with log := last.world.log.push (.patchInstalled patch.name) }⟩
    rw [hsaved] at hsession hsave
    cases hrest
    exact ⟨hsession, hlog.trans hsave, congrArg (·.resolved.size) hsession⟩
  · cases hrest
    exact ⟨rfl, hlog, rfl⟩

end Moment

end Graft
