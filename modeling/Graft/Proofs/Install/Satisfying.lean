import Graft.Proofs.Install.Establishing
import Graft.Proofs.Install.Saving
import Graft.Proofs.Session.Opening
import Graft.Proofs.Session.Settled

/-!
# Dependencies that are only read

Declarations that may not be changed, and of which none has to be missing, ask for nothing but what
is there already. A graph is `Satisfied` with them when every one of them has a definition under its
key, the first of which agrees with it in every detail. Such declarations are resolved exactly where
the graph is satisfied: a session in which all of them could be resolved has seen that it is, and
over a satisfied graph no request is refused, except for one that runs in a circle
(`dependencies_satisfied`).
-/

namespace Graft

open SessionTask

/-- A session that takes declarations to stand for what a table says. -/
def SessionState.reading (state : SessionState) (resolved : Dictionary Declaration Definition) :
    Moment where
  state := { state with session := { state.session with resolved } }

/-- Whether a definition is the first one under the key of a declaration and agrees with it in every
detail. -/
structure Moment.Meets (now : Moment) (declaration : Declaration) (definition : Definition) : Prop
    where
  answer : now.answer declaration = some definition
  found : now.Found declaration definition
  agrees : ∀ detail ∈ now.decls.details declaration, now.Holds declaration definition detail

/-- Whether a graph has all that some declarations ask for, when they are read together. -/
def SessionState.Satisfied (state : SessionState) (nodes : List Declaration) : Prop :=
  ∃ resolved, ∀ node ∈ nodes, ∃ definition, (state.reading resolved).Meets node definition

/-- Whether nothing that a declaration states is of unknown shape or has an owner that is still to be
filled in. -/
structure World.Definite (world : World) (declaration : Declaration) : Prop where
  known : .unknown ∉ (world.decls.statement declaration).targets
  owned : ∀ slot ∈ (world.decls.statement declaration).slots, (world.slot? slot).isSome = true

/-- Declarations of which none may be changed and none has to be missing, with all that they refer
to. -/
structure World.Dependencies (world : World) (source : SourceId) (names : List String)
    (nodes : List Declaration) : Prop where
  held : world.defs.Held
  sound : (world.source source).Sound world.defs
  steady : world.Steady source names
  named : ∀ id, .module id ∈ nodes → (world.decls.module id).name ∈ names
  closed : world.decls.Closed (· ∈ nodes)
  living : ∀ node ∈ nodes, world.decls.has node = true
  referred : ∀ node ∈ nodes, ∀ other,
    .declaration other ∈ (world.decls.statement node).targets → world.decls.has other = true
  readOnly : ∀ node ∈ nodes, ¬ world.decls.Writable node
  policy : ∀ node ∈ nodes, (world.decls.terms node).policy ≠ .failIfPresent

namespace Moment

variable {mode : Mode} {world : World} {source : SourceId} {names : List String}
  {nodes : List Declaration} {now next : Moment} {declaration : Declaration}
  {definition : Definition}

/-! ## At work on what is there -/

/-- Whether a session has changed nothing: it works on the modules that its source hands out, and
before it has one it knows nothing. -/
structure Inspects (world : World) (source : SourceId) (names : List String) (now : Moment) : Prop where
  decls : now.decls = world.decls
  origin : now.session.source = source
  sources : now.world.sources = world.sources
  leaves : now.world.leaves = world.leaves
  modules : ∀ name module, now.session.modules.get? name = some module →
    (world.opened source names).session.modules.get? name = some module
  defs : now.defs = (world.opened source names).world.defs ∨
    now.defs = world.defs ∧ (∀ name, now.session.modules.get? name = none) ∧
      ∀ declaration, now.answer declaration = none
  loaded : now.defs = world.defs ∨ ∀ name ∈ names, now.session.modules.get? name ≠ none
  made : now.made = []

theorem inspects_begin : (begin source world).Inspects world source names where
  decls := rfl
  origin := rfl
  sources := rfl
  leaves := rfl
  modules := by simp [begin, Dictionary.get?]
  defs := .inr ⟨rfl, fun _ => rfl, fun _ => rfl⟩
  loaded := .inl rfl
  made := rfl

/-- Once something is known the graph is the one with the modules in it. -/
theorem Inspects.defs_of_answer (h : now.Inspects world source names)
    (hanswer : now.answer declaration = some definition) :
    now.defs = (world.opened source names).world.defs := by
  refine h.defs.resolve_right fun ⟨_, _, hnone⟩ => ?_
  simp [hnone] at hanswer

theorem Inspects.defs_of_module (h : now.Inspects world source names) {name : String}
    {module : DefId .module} (hmodule : now.session.modules.get? name = some module) :
    now.defs = (world.opened source names).world.defs := by
  refine h.defs.resolve_right fun ⟨_, hnone, _⟩ => ?_
  simp [hnone] at hmodule

theorem Inspects.defs_of_found (h : now.Inspects world source names)
    (hfound : now.Found declaration definition) :
    now.defs = (world.opened source names).world.defs := by
  cases hfound with
  | module hmodule => exact h.defs_of_module hmodule
  | member hparent hholder => exact h.defs_of_answer hholder

/-- A module that the session does not work on yet is loaded from the world as it was. -/
theorem Inspects.load_eq (h : now.Inspects world source names) {name : String} (hname : name ∈ names)
    (hnone : now.session.modules.get? name = none) :
    (Task.load now.session.source name).on now.world =
      (((Task.load source name).on world).1,
        { now.world with defs := ((Task.load source name).on world).2.defs }) := by
  rw [h.origin]
  exact Task.load_congr h.sources h.leaves (h.loaded.resolve_right fun hall => hall name hname hnone)

/-- Declarations that may not be changed are resolved without changing anything. -/
theorem Step.inspects (hstep : Step (· ∈ nodes) mode now next) (hsound : now.Sound)
    (hdeps : world.Dependencies source names nodes) (h : now.Inspects world source names) :
    next.Inspects world source names := by
  have hreadOnly {declaration : Declaration} (hmem : declaration ∈ nodes) :
      ¬ now.decls.Writable declaration := h.decls ▸ hdeps.readOnly declaration hmem
  -- All of them are read-only, so a step that writes contradicts its licence; the source may be
  -- opened once.
  cases hstep with
  | quiet hquiet =>
      exact { h with
        decls := hquiet.decls.trans h.decls
        sources := hquiet.sources.trans h.sources
        leaves := hquiet.leaves.trans h.leaves
        defs := by rw [withState_defs, hquiet.defs]; exact h.defs
        loaded := by rw [withState_defs, hquiet.defs]; exact h.loaded }
  | @load id rest name module after hstack hasked hname hnone hload =>
      have hmem : name ∈ names := hname ▸ h.decls ▸ hdeps.named id hasked
      rw [h.load_eq hmem hnone] at hload
      obtain ⟨hmodule, rfl⟩ := Prod.mk.inj hload
      obtain ⟨hopened, hdefs, hsteady⟩ :=
        hdeps.steady.opens.loaded name hmem module _ (Prod.ext hmodule rfl)
      refine { h with modules := fun other found hfound => ?_, defs := .inl hdefs, loaded := ?_ }
      · obtain ⟨rfl, rfl⟩ | hfound := Dictionary.of_get?_insert hfound
        · exact hopened
        · exact h.modules other found hfound
      · refine hsteady.imp (fun hsame => hdefs.trans hsame) fun hone other hother => ?_
        rw [hone, List.mem_singleton] at hother
        simp [hother]
  | enter hasked hmemo hstack => exact { h with defs := answer_enter hstack ▸ h.defs }
  | makeModule hstack hasked hwritable => exact absurd hwritable (hreadOnly hasked)
  | create hstack hasked hwritable => exact absurd hwritable (hreadOnly hasked)
  | locate hstack hasked hpolicy hfound => exact { h with defs := .inl (h.defs_of_found hfound) }
  | confirm => exact { h with }
  | amend hstack hasked hwritable => exact absurd hwritable (hreadOnly hasked)
  | remember hstack =>
      exact { h with defs := .inl (h.defs_of_answer (hsound.answer_top hstack)) }
  | @abandon entry rest hfails hstack =>
      refine { h with defs := h.defs.imp_right ?_, made := by simp [h.made] }
      refine fun ⟨hdefs, hmodules, hnone⟩ => ⟨hdefs, hmodules, fun declaration => ?_⟩
      rw [withMade_answer, hsound.answer_abandon hstack, hnone, ite_self]
  | hide hhides hasked hwritable => exact absurd hwritable (hreadOnly hasked)
  | graft hgrafts hasked hwritable => exact absurd hwritable (hreadOnly hasked)

/-! ## What has been resolved is satisfied -/

/-- Whether all that a session knows is found where it was, and all that it has confirmed holds. -/
structure Seen (now : Moment) : Prop where
  found : ∀ declaration definition, now.answer declaration = some definition →
    now.Found declaration definition
  holds : ∀ declaration detail, (declaration, detail) ∈ now.confirmed → ∃ definition,
    now.answer declaration = some definition ∧ now.Holds declaration definition detail

theorem seen_begin : (begin source world).Seen where
  found := by simp [begin, answer, Dictionary.get?]
  holds := by simp [begin]

/-- Nothing is known before there is a module, and then the graph stays as it is. -/
theorem Seen.moved (h : now.Seen) (hdecls : next.decls = now.decls)
    (hdefs : next.defs = now.defs ∨ ∀ declaration, now.answer declaration = none)
    (hmodules : ∀ name module, now.session.modules.get? name = some module →
      next.session.modules.get? name = some module)
    (hanswer : next.answer = now.answer) (hconfirmed : next.confirmed = now.confirmed) :
    next.Seen := by
  obtain hdefs | hnone := hdefs
  · have hcompletes : next.Completes now :=
      ⟨hdefs, hdecls, hanswer ▸ fun _ _ hknown => hknown⟩
    refine ⟨fun declaration definition hknown => ?_, fun declaration detail hmem => ?_⟩
    · exact hcompletes.found hmodules (h.found _ _ (hanswer ▸ hknown))
    · obtain ⟨definition, hknown, hholds⟩ := h.holds _ _ (hconfirmed ▸ hmem)
      exact ⟨definition, hanswer ▸ hknown, hcompletes.holds hholds⟩
  · refine ⟨fun declaration definition hknown => ?_, fun declaration detail hmem => ?_⟩
    · simp [hanswer, hnone] at hknown
    · obtain ⟨definition, hknown, -⟩ := h.holds _ _ (hconfirmed ▸ hmem)
      simp [hnone] at hknown

/-- What is found is known from then on, and what is confirmed holds. -/
theorem Step.seen (hstep : Step (· ∈ nodes) {} now next) (hsound : now.Sound)
    (hdeps : world.Dependencies source names nodes) (hinspects : now.Inspects world source names)
    (h : now.Seen) : next.Seen := by
  have hlater := hstep.later hsound
  have hnext := hstep.inspects hsound hdeps hinspects
  have hreadOnly {declaration : Declaration} (hmem : declaration ∈ nodes) :
      ¬ now.decls.Writable declaration := hinspects.decls ▸ hdeps.readOnly declaration hmem
  -- Everything is read-only, so nothing is made or amended; what remains are steps that find and
  -- confirm.
  cases hstep with
  | quiet hquiet => exact h.moved hlater.decls (.inl hquiet.defs) hlater.modules rfl rfl
  | @load id rest name module after hstack hasked hname hnone hload =>
      refine h.moved hlater.decls ?_ hlater.modules rfl rfl
      have hmodule : (now.session.modules.insert name module).get? name = some module := by simp
      have hloaded := hnext.defs_of_module hmodule
      exact hinspects.defs.imp (fun hopened => hloaded.trans hopened.symm) fun ⟨_, _, hnone⟩ => hnone
  | enter hasked hmemo hstack =>
      exact h.moved hlater.decls (.inl rfl) hlater.modules (answer_enter hstack) rfl
  | makeModule hstack hasked hwritable => exact absurd hwritable (hreadOnly hasked)
  | create hstack hasked hwritable => exact absurd hwritable (hreadOnly hasked)
  | @locate declaration definition rest hstack hasked hpolicy hfound =>
      have hcompletes : (now.withStack ((declaration, some definition) :: rest)).Completes now :=
        completes_of_extends rfl (hsound.extends_locate hstack)
      refine ⟨fun other known hknown => ?_, fun other detail hmem => ?_⟩
      · rw [hsound.answer_locate hstack] at hknown
        split at hknown
        · rename_i heq
          cases hknown
          exact heq ▸ hcompletes.found hlater.modules hfound
        · exact hcompletes.found hlater.modules (h.found _ _ hknown)
      · obtain ⟨known, hknown, hholds⟩ := h.holds _ _ hmem
        exact ⟨known, hcompletes.answers _ _ hknown, hcompletes.holds hholds⟩
  | @confirm declaration definition rest detail hstack hholds hcovers =>
      have hlike : now.Like { now with confirmed := (declaration, detail) :: now.confirmed } :=
        ⟨rfl, rfl, rfl⟩
      have hcompletes : Completes { now with confirmed := (declaration, detail) :: now.confirmed } now :=
        completes_of_extends rfl fun _ _ hknown => hknown
      refine ⟨fun other known hknown =>
        hcompletes.found hlater.modules (h.found other known hknown), fun other detail' hmem => ?_⟩
      obtain heq | hmem := List.mem_cons.mp hmem
      · cases heq
        exact ⟨definition, hsound.answer_top hstack, hcompletes.holds hholds⟩
      · obtain ⟨known, hknown, hholds⟩ := h.holds _ _ hmem
        exact ⟨known, hknown, hcompletes.holds hholds⟩
  | amend hstack hasked hwritable => exact absurd hwritable (hreadOnly hasked)
  | remember hstack =>
      exact h.moved hlater.decls (.inl rfl) hlater.modules (hsound.answer_remember hstack) rfl
  | abandon hfails => cases hfails
  | hide hhides => cases hhides
  | graft hgrafts => cases hgrafts

theorem Run.seen (hrun : Run (· ∈ nodes) {} now next) (hsound : now.Sound)
    (hdeps : world.Dependencies source names nodes) (hinspects : now.Inspects world source names)
    (h : now.Seen) : next.Inspects world source names ∧ next.Seen := by
  refine hrun.keeps (P := fun next => next.Inspects world source names ∧ next.Seen) hsound ?_
    ⟨hinspects, h⟩
  rintro now next hstep hsound ⟨hinspects, h⟩
  exact ⟨hstep.inspects hsound hdeps hinspects, hstep.seen hsound hdeps hinspects h⟩

/-- Where everything is known and confirmed the graph is satisfied. -/
theorem Seen.satisfied (h : now.Seen) (hinspects : now.Inspects world source names)
    (hsteady : world.Steady source names) (hfinished : now.Finished) (hidle : now.stack = [])
    (hanswers : ∀ node ∈ nodes, ∃ definition, now.answer node = some definition) :
    (world.opened source names).Satisfied nodes := by
  refine ⟨now.session.resolved, fun node hmem => ?_⟩
  obtain ⟨definition, hanswer⟩ := hanswers node hmem
  have hdecls : (world.opened source names).world.decls = world.decls := by
    rw [hsteady.opens.same]
  have hcompletes : ((world.opened source names).reading now.session.resolved).Completes now := by
    refine ⟨(hinspects.defs_of_answer hanswer).symm, hdecls.trans hinspects.decls.symm,
      fun other known hknown => answer_of_remembered ?_⟩
    rwa [answer_idle hidle] at hknown
  refine ⟨definition, hcompletes.answers _ _ hanswer,
    hcompletes.found hinspects.modules (h.found _ _ hanswer), fun detail hdetail => ?_⟩
  rw [hcompletes.decls] at hdetail
  have hconfirmed := hfinished.confirmed node definition (answer_idle hidle ▸ hanswer) detail hdetail
  obtain ⟨known, hknown, hholds⟩ := h.holds _ _ hconfirmed
  cases hanswer.symm.trans hknown
  exact hcompletes.holds hholds

/-- A graph over which all declarations could be resolved is satisfied with them. -/
theorem satisfied_of_resolveAll (hdeps : world.Dependencies source names nodes)
    {state : SessionState} (hon : (resolveAll nodes).on ⟨{ source }, world⟩ = (.ok (), state)) :
    (world.opened source names).Satisfied nodes := by
  have hbegin := sound_begin hdeps.held hdeps.sound
  have hleads : Leads (· ∈ nodes) none (begin source world) (resolveAll nodes) _ :=
    leads_resolveAll hbegin rfl fun _ hmem => hmem
  replace hleads := hleads hdeps.closed
  rw [show (begin source world).state = ⟨{ source }, world⟩ from rfl, hon] at hleads
  obtain ⟨done, -, hrun, hidle, hanswers⟩ := hleads
  obtain ⟨hinspects, hseen⟩ := Run.seen hrun hbegin hdeps inspects_begin seen_begin
  exact hseen.satisfied hinspects hdeps.steady (hrun.finished hbegin finished_begin) hidle hanswers

/-! ## What is satisfied is resolved -/

/-- Whether a reading of the graph with its modules shows that it is satisfied. -/
structure Reading (world : World) (source : SourceId) (names : List String)
    (nodes : List Declaration) (reading : Moment) : Prop where
  shows : reading.world = (world.opened source names).world
  modules : reading.session.modules = (world.opened source names).session.modules
  meets : ∀ node ∈ nodes, ∃ definition, reading.Meets node definition

/-- Whether a session is asked for some declarations only and finds what a reading of the graph says.
-/
structure Follows (now : Moment) (nodes : List Declaration) (reading : Moment) : Prop where
  pending : ∀ entry ∈ now.stack, entry.1 ∈ nodes
  answers : now.answer.Extends reading.answer

theorem Reading.decls {reading : Moment} (h : Reading world source names nodes reading)
    (hsteady : world.Steady source names) : reading.decls = world.decls := by
  have hshows : reading.world.decls = (world.opened source names).world.decls :=
    congrArg World.decls h.shows
  exact hshows.trans (by rw [hsteady.opens.same])

theorem follows_begin {reading : Moment} : (begin source world).Follows nodes reading where
  pending := by simp [begin]
  answers := by simp [begin, answer, Dictionary.get?, Answers.Extends]

section Follows

variable {reading : Moment} {detail : Detail} (hdeps : world.Dependencies source names nodes)
  (hreading : Reading world source names nodes reading)
  (hinspects : now.Inspects world source names) (h : now.Follows nodes reading)

include hdeps hreading hinspects h

/-- A reading of the graph knows all that a session knows which follows it. -/
theorem Follows.completes (hdefs : now.defs = (world.opened source names).world.defs) :
    reading.Completes now := by
  have hshows : reading.world.defs = (world.opened source names).world.defs :=
    congrArg World.defs hreading.shows
  exact ⟨hshows.trans hdefs.symm, (hreading.decls hdeps.steady).trans hinspects.decls.symm,
    h.answers⟩

/-- What is found is what the reading says. -/
theorem Follows.found (hmem : declaration ∈ nodes) (hfound : now.Found declaration definition) :
    reading.answer declaration = some definition := by
  have hcompletes := h.completes hdeps hreading hinspects (hinspects.defs_of_found hfound)
  obtain ⟨known, hanswer, hknown, -⟩ := hreading.meets _ hmem
  cases hfound with
  | module hmodule =>
      have hopened := hinspects.modules _ _ hmodule
      cases hknown with
      | module hmodule' =>
          rw [hreading.modules, hcompletes.decls, hopened] at hmodule'
          cases hmodule'
          exact hanswer
      | member hparent => cases hparent
  | member hparent hholder hkind hmembers hmatches hfirst =>
      cases hknown with
      | module => cases hparent
      | member hparent' hholder' hkind' hmembers' hmatches' hfirst' =>
          rw [hcompletes.decls, hparent] at hparent'
          cases hparent'
          cases (h.answers _ _ hholder).symm.trans hholder'
          rw [hcompletes.defs] at hmembers'
          cases eq_of_first hmembers hmembers' (hcompletes.matches hmatches) hmatches'
            (fun other hmem hother => hfirst other hmem
              (hcompletes.matches_back hother hmatches.settles)) hfirst'
          exact hanswer

omit h in
/-- A module that the session does not work on yet can be loaded. -/
theorem Reading.loads {id : DeclId .module} (hmem : .module id ∈ nodes)
    (hnone : now.session.modules.get? (now.decls.module id).name = none) {error : Error} :
    ((Task.load now.session.source (now.decls.module id).name).on now.world).1 ≠ .error error := by
  have hname : (now.decls.module id).name ∈ names := hinspects.decls ▸ hdeps.named id hmem
  rw [hinspects.load_eq hname hnone]
  intro hload
  have hunloaded := hdeps.steady.opens.unloaded _ hname _ _ (Prod.ext hload rfl)
  obtain ⟨known, -, hknown, -⟩ := hreading.meets _ hmem
  cases hknown with
  | module hmodule =>
      rw [hreading.modules, hreading.decls hdeps.steady, ← hinspects.decls, hunloaded] at hmodule
      cases hmodule
  | member hparent => cases hparent

/-- Nothing is missing. -/
theorem Follows.not_missing (hmem : declaration ∈ nodes)
    (hsettles : now.answer.SettlesAll (now.decls.statement declaration).shape.targets) :
    ¬ now.Missing declaration := by
  obtain ⟨known, -, hknown, -⟩ := hreading.meets _ hmem
  intro hmissing
  cases hmissing with
  | module hname hnone hload =>
      subst hname
      exact hreading.loads hdeps hinspects hmem hnone hload
  | member hparent hholder hnone =>
      have hcompletes := h.completes hdeps hreading hinspects (hinspects.defs_of_answer hholder)
      cases hknown with
      | module => cases hparent
      | member hparent' hholder' hkind' hmembers' hmatches' hfirst' =>
          rw [hcompletes.decls, hparent] at hparent'
          cases hparent'
          cases (h.answers _ _ hholder).symm.trans hholder'
          rw [hcompletes.defs] at hmembers'
          refine hnone known (hmembers' ▸ List.mem_append_right _ List.mem_cons_self) ?_
          exact hcompletes.matches_back hmatches' fun _ => hsettles

/-- What is known agrees with its declaration as soon as that is known of which this speaks. -/
theorem Follows.holds (hmem : declaration ∈ nodes)
    (hanswer : now.answer declaration = some definition)
    (hdetail : detail ∈ now.decls.details declaration)
    (hsettles : now.answer.SettlesAll ((now.decls.statement declaration).targetsOf detail)) :
    now.Holds declaration definition detail := by
  have hcompletes := h.completes hdeps hreading hinspects (hinspects.defs_of_answer hanswer)
  obtain ⟨known, hknown, -, hagrees⟩ := hreading.meets _ hmem
  cases (h.answers _ _ hanswer).symm.trans hknown
  exact hcompletes.holds_back (hagrees detail (hcompletes.decls ▸ hdetail)) hsettles

/-- Whatever is asked for and found is what the reading says. -/
theorem Step.follows (hstep : Step (· ∈ nodes) mode now next) (hsound : now.Sound) :
    next.Follows nodes reading := by
  have hreadOnly {declaration : Declaration} (hmem : declaration ∈ nodes) :
      ¬ now.decls.Writable declaration := hinspects.decls ▸ hdeps.readOnly declaration hmem
  -- No step but `enter` puts another declaration on the stack.
  have hpending {stack : InFlight} (hsubset : stack.map Prod.fst ⊆ now.stack.map Prod.fst) :
      ∀ entry ∈ stack, entry.1 ∈ nodes := by
    intro entry hmem
    obtain ⟨other, hother, heq⟩ := List.mem_map.mp (hsubset (List.mem_map_of_mem hmem))
    exact heq ▸ h.pending other hother
  cases hstep with
  | quiet | load | confirm => exact ⟨h.pending, h.answers⟩
  | enter hasked hmemo hstack =>
      exact ⟨List.forall_mem_cons.mpr ⟨hasked, h.pending⟩, answer_enter hstack ▸ h.answers⟩
  | makeModule hstack hasked hwritable => exact absurd hwritable (hreadOnly hasked)
  | create hstack hasked hwritable => exact absurd hwritable (hreadOnly hasked)
  | @locate declaration definition rest hstack hasked hpolicy hfound =>
      refine ⟨hpending (by simp [hstack]), fun other known hknown => ?_⟩
      rw [hsound.answer_locate hstack] at hknown
      split at hknown
      · rename_i heq
        cases hknown
        exact heq ▸ h.found hdeps hreading hinspects hasked hfound
      · exact h.answers _ _ hknown
  | amend hstack hasked hwritable => exact absurd hwritable (hreadOnly hasked)
  | remember hstack =>
      exact ⟨hpending (by simp [hstack]), hsound.answer_remember hstack ▸ h.answers⟩
  | abandon hfails hstack =>
      refine ⟨hpending (by simp [hstack]), fun other known hknown => ?_⟩
      rw [withMade_answer, hsound.answer_abandon hstack] at hknown
      split at hknown
      · cases hknown
      · exact h.answers _ _ hknown
  | hide hhides hasked hwritable => exact absurd hwritable (hreadOnly hasked)
  | graft hgrafts hasked hwritable => exact absurd hwritable (hreadOnly hasked)

omit hdeps hreading hinspects h in
theorem Run.follows (hrun : Run (· ∈ nodes) mode now next) (hsound : now.Sound)
    (hdeps : world.Dependencies source names nodes)
    (hreading : Reading world source names nodes reading)
    (hinspects : now.Inspects world source names) (h : now.Follows nodes reading) :
    next.Inspects world source names ∧ next.Follows nodes reading := by
  refine hrun.keeps (P := fun next => next.Inspects world source names ∧
    next.Follows nodes reading) hsound ?_ ⟨hinspects, h⟩
  rintro now next hstep hsound ⟨hinspects, h⟩
  exact ⟨hstep.inspects hsound hdeps hinspects, hstep.follows hdeps hreading hinspects h hsound⟩

/-- A session that follows a reading fails only where it runs in a circle. -/
theorem Follows.cyclic_of_fault (hsound : now.Sound)
    (hdefinite : ∀ node ∈ nodes, world.Definite node)
    (hslots : ∀ slot, (world.slot? slot).isSome = true → (now.world.slot? slot).isSome = true)
    {error : Error} (hfault : now.Fault error) : ∃ symbol, error = .cyclic symbol := by
  have hdecls := hinspects.decls
  have htop {top : Declaration} {found : Option Definition} {rest : InFlight}
      (hstack : now.stack = (top, found) :: rest) : top ∈ nodes :=
    h.pending (top, found) (hstack ▸ List.mem_cons_self)
  cases hfault with
  | cyclic => exact ⟨_, rfl⟩
  | exhausted hcount =>
      refine absurd hcount (Nat.not_lt.mpr ?_)
      rw [← List.length_map Prod.fst, hdecls]
      refine Declarations.length_le_count hsound.distinct fun declaration hmem => ?_
      obtain ⟨entry, hentry, rfl⟩ := List.mem_map.mp hmem
      exact hdeps.living _ (h.pending entry hentry)
  | unloadable hstack hnone hload _ =>
      exact absurd hload (hreading.loads hdeps hinspects (htop hstack) hnone)
  | detached hstack hkind hparent =>
      obtain ⟨known, -, hknown, -⟩ := hreading.meets _ (htop hstack)
      cases hknown with
      | module => exact absurd rfl hkind
      | member hparent' =>
          rw [hreading.decls hdeps.steady, ← hdecls, hparent] at hparent'
          cases hparent'
  | gone hstack hmem hgone =>
      have hliving := hdeps.referred _ (htop hstack) _ (hdecls ▸ hmem)
      rw [hdecls, hliving] at hgone
      cases hgone
  | unknown hstack hmem => exact absurd (hdecls ▸ hmem) (hdefinite _ (htop hstack)).known
  | unowned hstack hmem hnone =>
      have hfilled := hslots _ ((hdefinite _ (htop hstack)).owned _ (hdecls ▸ hmem))
      simp [hnone] at hfilled
  | missing hstack _ hsettled hmissing | locked hstack _ _ hsettled hmissing =>
      exact absurd hmissing (h.not_missing hdeps hreading hinspects (htop hstack) hsettled)
  | present hstack hpresent _ => exact absurd (hdecls ▸ hpresent) (hdeps.policy _ (htop hstack))
  | lockedDetail hstack _ hdetail hsettled hnot | differs hstack _ hdetail _ hsettled hnot =>
      exact absurd (h.holds hdeps hreading hinspects (htop hstack) (hsound.answer_top hstack) hdetail
        hsettled) hnot

/-- A request to a session that follows a reading is answered, or it runs in a circle. -/
theorem Follows.resolve (hsound : now.Sound) (hidle : now.stack = [])
    (hdefinite : ∀ node ∈ nodes, world.Definite node)
    (hslots : ∀ slot, (world.slot? slot).isSome = true → (now.world.slot? slot).isSome = true)
    (hmem : declaration ∈ nodes) :
    (∃ definition, ((SessionTask.resolve declaration).on now.state).1 = .ok definition) ∨
      ∃ symbol, ((SessionTask.resolve declaration).on now.state).1 = .error (.cyclic symbol) := by
  have hresolve := finds_resolve (· ∈ nodes) (some now.decls.count) now hsound hidle declaration
    hmem nofun (hinspects.decls ▸ hdeps.closed)
  cases hon : (SessionTask.resolve declaration).on now.state with
  | mk outcome state =>
      rw [hon] at hresolve
      cases outcome with
      | ok definition => exact .inl ⟨definition, rfl⟩
      | error error =>
          obtain ⟨fault, -, -, hrun, hfault⟩ := hresolve
          have hlater := hrun.later hsound
          obtain ⟨hinspects', h'⟩ := Run.follows hrun hsound hdeps hreading hinspects h
          obtain ⟨symbol, rfl⟩ := h'.cyclic_of_fault hdeps hreading hinspects' (hrun.sound hsound)
            hdefinite (fun slot hslot => hlater.slots slot (hslots slot hslot))
            (hfault (by rw [hlater.decls]))
          exact .inr ⟨symbol, rfl⟩

end Follows

end Moment

open Moment

/-- A module with a type, an interface that the type implements and a method of the type, and
declarations of all of them as they are. Nothing may be changed. -/
def World.gallery : World :=
  let (game, defs) := ({} : Definitions).makeModule { name := "Game" }
  let (clock, defs) := defs.addType game { namespaceName := "Core", name := "Clock", flags := 1 }
  let (timed, defs) := defs.addType game { namespaceName := "Core", name := "Timed", flags := 0x21 }
  let (_, defs) := defs.addMethod clock
    { name := "Follow", flags := 6
      signature := ⟨0x20, 0, .primitive .void, [.classType (.definition clock)], []⟩ }
  { defs := defs.updateType clock fun record =>
      { record with interfaces := [.definition timed] }
    decls :=
      { modules := ⟨#[some { terms := ⟨.failIfMissing, true⟩, name := "Game", types := [⟨0⟩, ⟨1⟩] }]⟩
        types := ⟨#[
          some
            { terms := ⟨.failIfMissing, true⟩
              place := .topLevel ⟨0⟩ "Core"
              name := "Clock"
              flags := some 1
              interfaces := [.declared ⟨1⟩]
              methods := [⟨0⟩] },
          some
            { terms := ⟨.createIfMissing, true⟩
              place := .topLevel ⟨0⟩ "Core"
              name := "Timed" }]⟩
        methods := ⟨#[some
          { terms := ⟨.createIfMissing, true⟩
            owner := ⟨0⟩
            name := "Follow"
            signature := ⟨0x20, 0, .primitive .void, [.classType (.declared ⟨0⟩)], []⟩
            flags := some 6 }]⟩ }
    sources := ⟨#[some (.memory ⟨[("Game", ⟨0⟩)]⟩ {})]⟩ }

theorem World.nodes_gallery : [⟨0⟩].flatMap World.gallery.decls.walk =
    [.module ⟨0⟩, .type ⟨0⟩, .method ⟨0⟩, .type ⟨1⟩] := by
  decide +kernel

theorem World.definite_gallery : ∀ node ∈ [Declaration.module ⟨0⟩, .type ⟨0⟩, .method ⟨0⟩, .type ⟨1⟩],
    World.gallery.Definite node := by
  have hknown : ∀ node ∈ [Declaration.module ⟨0⟩, .type ⟨0⟩, .method ⟨0⟩, .type ⟨1⟩],
      .unknown ∉ (World.gallery.decls.statement node).targets ∧
        (World.gallery.decls.statement node).slots = [] := by
    decide +kernel
  exact fun node hmem => ⟨(hknown node hmem).1, by simp [(hknown node hmem).2]⟩

end Graft
