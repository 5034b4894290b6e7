import Graft.Proofs.Session.Fault
import Graft.Proofs.Session.Sound
import Mathlib.Data.List.Forall2

/-!
# Operations as runs

`Leads asked bound now task post`: if `asked` is closed, then what `task` does from a moment on is a
run in which only declarations in `asked` are resolved and none is given up. If the task succeeds
the stack is what it was and `post` holds of its answer; if it fails, the run ends at the moment of
the fault, with whatever is being resolved then still on the stack. The fault is explained where
`bound` is the number of declarations; without a bound a task may fail for any reason. There is one
rule for every way of putting tasks together, and later one lemma for every function.
-/

namespace Graft.Moment

variable {asked : Declaration → Prop} {bound : Option Nat} {now next last : Moment}
  {hides : Bool} {α β : Type}

/-- Whether a task that starts at a moment is a run, at whose end `post` holds, or which ends in a
fault while at least the declarations in `base` are being resolved. -/
def LeadsTo (asked : Declaration → Prop) (bound : Option Nat) (now : Moment) (base : InFlight)
    (task : SessionTask α) (post : α → Moment → Prop) (hides : Bool := false) : Prop :=
  now.decls.Closed asked →
  match task.on now.state with
  | (.ok value, state) => ∃ next : Moment, next.state = state ∧
      Run asked { hides } now next ∧ post value next
  | (.error error, state) => ∃ fault : Moment, fault.state = state ∧ base <:+ fault.stack ∧
      Run asked { hides } now fault ∧
      (bound = some fault.decls.count → fault.Fault error)

/-- Whether a task that starts at a moment is a run that ends on the same stack. -/
def Leads (asked : Declaration → Prop) (bound : Option Nat) (now : Moment) (task : SessionTask α)
    (post : α → Moment → Prop) (hides : Bool := false) : Prop :=
  LeadsTo asked bound now now.stack task (fun value next => next.stack = now.stack ∧ post value next)
    hides

/-- Moments that show the same definitions, declarations and answers. -/
structure Like (now next : Moment) : Prop where
  defs : next.defs = now.defs
  decls : next.decls = now.decls
  answer : next.answer = now.answer

theorem Like.symm (h : now.Like next) : next.Like now :=
  ⟨h.defs.symm, h.decls.symm, h.answer.symm⟩

theorem Like.names (h : now.Like next) : next.world.typeNames = now.world.typeNames := by
  have hdefs : next.world.defs = now.world.defs := h.defs
  have hdecls : next.world.decls = now.world.decls := h.decls
  simp only [World.typeNames, hdefs, hdecls]

theorem Like.holds {declaration : Declaration} {definition : Definition} {detail : Detail}
    (h : now.Like next) (hholds : now.Holds declaration definition detail) :
    next.Holds declaration definition detail := by
  unfold Holds at hholds ⊢
  rw [h.defs, h.decls, h.names, h.answer, fill, h.answer]
  exact hholds

/-- A moment after another one, on the same stack, with nothing given up in between. -/
structure After (now next : Moment) : Prop where
  sound : next.Sound
  later : now.Later next
  bodies : now.defs.KeepsBodies next.defs
  stack : next.stack = now.stack
  made : ∀ declaration definition, now.answer declaration = some definition →
    ((declaration, definition) ∈ next.made ↔ (declaration, definition) ∈ now.made)

theorem After.refl (h : now.Sound) : now.After now :=
  ⟨h, .refl now, .refl _, rfl, fun _ _ _ => Iff.rfl⟩

theorem After.answers (h : now.After next) : now.answer.Extends next.answer :=
  h.later.answers h.sound h.stack

theorem After.trans (h : now.After next) (h' : next.After last) : now.After last :=
  ⟨h'.sound, h.later.trans h'.later, h.bodies.trans h'.bodies, h'.stack.trans h.stack,
    fun declaration definition hanswer =>
      (h'.made declaration definition (h.answers _ _ hanswer)).trans
        (h.made declaration definition hanswer)⟩

theorem After.settles (h : now.After next) {targets : List Target}
    (hsettles : now.answer.SettlesAll targets) : next.answer.SettlesAll targets :=
  hsettles.mono h.answers

theorem After.covers (h : now.After next) {targets : List Target} {slots : List SlotId}
    (hcovers : now.Covers targets slots) : next.Covers targets slots :=
  ⟨h.settles hcovers.settled, fun slot hmem => h.later.slots slot (hcovers.owned slot hmem)⟩

theorem After.mentions (h : now.After next) {targets : List Target} {slots : List SlotId}
    (hmentions : now.Mentions targets slots) : next.Mentions targets slots :=
  hmentions.moved h.later.decls h.stack

theorem Run.after {mode : Mode} (hrun : Run asked mode now next) (hfails : mode.fails = false)
    (hgrafts : mode.grafts = false) (hsound : now.Sound) (hstack : next.stack = now.stack) :
    now.After next :=
  ⟨hrun.sound hsound, hrun.later hsound, hrun.keepsBodies hgrafts hsound, hstack,
    fun _ _ hanswer => hrun.made hfails hsound hanswer⟩

theorem Run.lax {mode : Mode} (hrun : Run asked {} now next) : Run asked mode now next :=
  hrun.weaken (by simp) (by simp) (by simp)

/-- Whatever is being resolved may be given up. -/
theorem giveUp (asked : Declaration → Prop) (mode : Mode) {base : InFlight}
    (hbase : base <:+ now.stack) :
    ∃ last : Moment, last.state = now.state ∧ last.stack = base ∧
      Run asked { mode with fails := true } now last := by
  obtain ⟨front, hstack⟩ := hbase
  induction front generalizing now with
  | nil => exact ⟨now, rfl, hstack.symm, .refl⟩
  | cons entry front ih =>
      have hstep : Step asked { mode with fails := true } now _ := .abandon rfl hstack.symm
      let next := (now.withStack (front ++ base)).withMade (now.made.filter (·.1 ≠ entry.1))
      have hnext : front ++ base = next.stack := rfl
      obtain ⟨last, hstate, hlast, hrun⟩ := ih hnext
      exact ⟨last, hstate, hlast, .head hstep hrun⟩

/-! ## Rules -/

section Rules

variable {base : InFlight} {task : SessionTask α} {post : α → Moment → Prop}
  {post' : β → Moment → Prop}

/-- A task that leads somewhere is a run, with what was begun given up if it fails. -/
theorem LeadsTo.run (h : LeadsTo asked bound now base task post hides) (hclosed : now.decls.Closed asked)
    (hpost : ∀ value next, post value next → next.stack = base) :
    ∃ last : Moment, last.state = (task.on now.state).2 ∧ last.stack = base ∧
      Run asked { fails := true, hides } now last := by
  replace h := h hclosed
  cases hon : task.on now.state with
  | mk outcome state =>
      rw [hon] at h
      cases outcome with
      | error error =>
          obtain ⟨fault, hstate, hbase, hrun, -⟩ := h
          obtain ⟨last, hlast, hstack, hrun'⟩ := giveUp asked { hides } hbase
          have hrun : Run asked { fails := true, hides } now fault :=
            hrun.weaken (by simp) (by simp) (by simp)
          exact ⟨last, hlast.trans hstate, hstack, hrun.trans hrun'⟩
      | ok value =>
          obtain ⟨next, hstate, hrun, hvalue⟩ := h
          have hrun : Run asked { fails := true, hides } now next :=
            hrun.weaken (by simp) (by simp) (by simp)
          exact ⟨next, hstate, hpost value next hvalue, hrun⟩

theorem Leads.run (h : Leads asked bound now task post hides) (hclosed : now.decls.Closed asked) :
    ∃ last : Moment, last.state = (task.on now.state).2 ∧ last.stack = now.stack ∧
      Run asked { fails := true, hides } now last :=
  LeadsTo.run h hclosed fun _ _ hpost => hpost.1

/-- What leads somewhere while nothing is hidden also does while methods may be hidden. -/
theorem LeadsTo.lax (h : LeadsTo asked bound now base task post) :
    LeadsTo asked bound now base task post hides := by
  intro hclosed
  replace h := h hclosed
  cases hon : task.on now.state with
  | mk outcome state =>
      rw [hon] at h
      cases outcome with
      | error error =>
          obtain ⟨fault, hstate, hbase, hrun, hfault⟩ := h
          exact ⟨fault, hstate, hbase, hrun.lax, hfault⟩
      | ok value =>
          obtain ⟨next, hstate, hrun, hpost⟩ := h
          exact ⟨next, hstate, hrun.lax, hpost⟩

/-- Whoever explains faults for the declarations that there are explains them for any bound. -/
theorem LeadsTo.anyBound (h : LeadsTo asked (some now.decls.count) now base task post hides)
    (hsound : now.Sound) : LeadsTo asked bound now base task post hides := by
  intro hclosed
  replace h := h hclosed
  cases hon : task.on now.state with
  | mk outcome state =>
      rw [hon] at h
      cases outcome with
      | error error =>
          obtain ⟨fault, hstate, hbase, hrun, hfault⟩ := h
          exact ⟨fault, hstate, hbase, hrun, fun _ => hfault (by rw [(hrun.later hsound).decls])⟩
      | ok value => exact h

theorem Leads.lax (h : Leads asked bound now task post) : Leads asked bound now task post hides :=
  LeadsTo.lax h

theorem Leads.pure {value : α} (h : post value now) :
    Leads asked bound now (Pure.pure value) post hides :=
  fun _ => ⟨now, rfl, .refl, rfl, h⟩

theorem Leads.throw {error : Error} (h : bound = some now.decls.count → now.Fault error) :
    Leads asked bound now (MonadExcept.throw error) post hides :=
  fun _ => ⟨now, rfl, List.suffix_rfl, .refl, h⟩

/-- The declarations asked for may be taken to be closed. -/
theorem Leads.closed (h : now.decls.Closed asked → Leads asked bound now task post hides) :
    Leads asked bound now task post hides :=
  fun hclosed => h hclosed hclosed

theorem LeadsTo.bind {f : α → SessionTask β} (htask : LeadsTo asked bound now base task post hides)
    (hdecls : ∀ next, Run asked { hides } now next → next.decls = now.decls)
    (hnext : ∀ value next, Run asked { hides } now next → post value next →
      LeadsTo asked bound next base (f value) post' hides) :
    LeadsTo asked bound now base (task >>= f) post' hides := by
  intro hclosed
  replace htask := htask hclosed
  rw [SessionTask.on_bind]
  cases hon : task.on now.state with
  | mk outcome state =>
      rw [hon] at htask
      cases outcome with
      | error error => exact htask
      | ok value =>
          obtain ⟨next, rfl, hrun, hpost⟩ := htask
          have hfollow := hnext value next hrun hpost (hdecls next hrun ▸ hclosed)
          dsimp only
          cases hon' : (f value).on next.state with
          | mk outcome state =>
              rw [hon'] at hfollow
              cases outcome with
              | error error =>
                  obtain ⟨fault, hstate, hbase, hrun', hfault⟩ := hfollow
                  exact ⟨fault, hstate, hbase, hrun.trans hrun', hfault⟩
              | ok value =>
                  obtain ⟨last, hstate, hrun', hpost⟩ := hfollow
                  exact ⟨last, hstate, hrun.trans hrun', hpost⟩

/-- A task comes first that leaves the stack as it was. -/
theorem Leads.andThen {f : α → SessionTask β} (hsound : now.Sound)
    (htask : Leads asked bound now task post hides) (hbase : base <:+ now.stack)
    (hnext : ∀ value next, now.After next → post value next →
      LeadsTo asked bound next base (f value) post' hides) :
    LeadsTo asked bound now base (task >>= f) post' hides := by
  have hbegin : LeadsTo asked bound now base task
      (fun value next => next.stack = now.stack ∧ post value next) hides := ?_
  · exact LeadsTo.bind hbegin (fun next hrun => (hrun.later hsound).decls)
      fun value next hrun hpost => hnext value next (hrun.after rfl rfl hsound hpost.1) hpost.2
  intro hclosed
  replace htask := htask hclosed
  cases hon : task.on now.state with
  | mk outcome state =>
      rw [hon] at htask
      cases outcome with
      | error error =>
          obtain ⟨fault, hstate, hstack, hrun, hfault⟩ := htask
          exact ⟨fault, hstate, hbase.trans hstack, hrun, hfault⟩
      | ok value => exact htask

theorem Leads.bind {f : α → SessionTask β} (hsound : now.Sound)
    (htask : Leads asked bound now task post hides)
    (hnext : ∀ value next, now.After next → post value next →
      Leads asked bound next (f value) post' hides) :
    Leads asked bound now (task >>= f) post' hides := by
  refine Leads.andThen hsound htask List.suffix_rfl fun value next hafter hpost => ?_
  have hfollow := hnext value next hafter hpost
  unfold Leads at hfollow
  rwa [hafter.stack] at hfollow

theorem LeadsTo.mono {post' : α → Moment → Prop}
    (htask : LeadsTo asked bound now base task post hides)
    (h : ∀ value next, Run asked { hides } now next → post value next → post' value next) :
    LeadsTo asked bound now base task post' hides := by
  intro hclosed
  replace htask := htask hclosed
  cases hon : task.on now.state with
  | mk outcome state =>
      rw [hon] at htask
      cases outcome with
      | error error => exact htask
      | ok value =>
          obtain ⟨next, hstate, hrun, hpost⟩ := htask
          exact ⟨next, hstate, hrun, h value next hrun hpost⟩

theorem Leads.mono {post' : α → Moment → Prop} (hsound : now.Sound)
    (htask : Leads asked bound now task post hides)
    (h : ∀ value next, now.After next → post value next → post' value next) :
    Leads asked bound now task post' hides :=
  LeadsTo.mono htask fun value next hrun hpost =>
    ⟨hpost.1, h value next (hrun.after rfl rfl hsound hpost.1) hpost.2⟩

/-- Where nothing is hidden, nothing has been hidden afterwards. -/
theorem Leads.bares (h : Leads asked bound now task post) :
    Leads asked bound now task (fun value next => next.hidden = now.hidden ∧ post value next) hides :=
  Leads.lax (LeadsTo.mono h fun _ _ hrun hpost => ⟨hpost.1, hrun.hidden_eq rfl, hpost.2⟩)

/-- A step that changes no state comes before a task. -/
theorem LeadsTo.step (hstep : Step asked { hides } now next) (hstate : next.state = now.state)
    (h : LeadsTo asked bound next base task post hides) :
    LeadsTo asked bound now base task post hides := by
  intro hclosed
  replace h := h (by rwa [decls, hstate])
  rw [hstate] at h
  have hrun : Run asked { hides } now next := .single hstep
  cases hon : task.on now.state with
  | mk outcome state =>
      rw [hon] at h
      cases outcome with
      | error error =>
          obtain ⟨fault, hfault, hbase, hrun', h⟩ := h
          exact ⟨fault, hfault, hbase, hrun.trans hrun', h⟩
      | ok value =>
          obtain ⟨last, hlast, hrun', hpost⟩ := h
          exact ⟨last, hlast, hrun.trans hrun', hpost⟩

/-- A task that always succeeds and takes one step. -/
theorem LeadsTo.ofStep (value : α) (hon : task.on now.state = (.ok value, next.state))
    (hstep : Step asked { hides } now next) (hpost : post value next) :
    LeadsTo asked bound now base task post hides := by
  intro _
  rw [hon]
  exact ⟨next, rfl, .single hstep, hpost⟩

/-- A task that always succeeds and takes one step on the same stack. -/
theorem Leads.ofStep (value : α) (hon : task.on now.state = (.ok value, next.state))
    (hstep : Step asked { hides } now next) (hstack : next.stack = now.stack)
    (hpost : post value next) : Leads asked bound now task post hides :=
  LeadsTo.ofStep value hon hstep ⟨hstack, hpost⟩

theorem LeadsTo.world {f : World → SessionTask β}
    (h : LeadsTo asked bound now base (f now.world) post' hides) :
    LeadsTo asked bound now base (SessionTask.world >>= f) post' hides := by
  intro hclosed
  rw [SessionTask.on_bind, SessionTask.on_world]
  exact h hclosed

theorem Leads.world {f : World → SessionTask β} (h : Leads asked bound now (f now.world) post' hides) :
    Leads asked bound now (SessionTask.world >>= f) post' hides :=
  LeadsTo.world h

theorem Leads.ofExcept {outcome : Except Error α}
    (h : ∀ value, outcome = .ok value → post value now)
    (herror : ∀ error, outcome = .error error → bound = some now.decls.count → now.Fault error) :
    Leads asked bound now (MonadExcept.ofExcept outcome) post hides := by
  intro _
  rw [SessionTask.on_ofExcept]
  cases outcome with
  | error error => exact ⟨now, rfl, List.suffix_rfl, .refl, herror error rfl⟩
  | ok value => exact ⟨now, rfl, .refl, rfl, h value rfl⟩

/-- Writing into the log is nothing that anyone looks at. -/
theorem Leads.log {entry : LogEntry} {post : Unit → Moment → Prop}
    (h : ∀ world : World, now.world.Quiet world →
      post () (now.withState now.session world)) :
    Leads asked bound now (SessionTask.log entry) post hides := by
  let world := { now.world with log := now.world.log.push entry }
  have hquiet : now.world.Quiet world := .ofLog _
  have hstep : Step asked { hides } now (now.withState now.session world) :=
    .quiet hquiet fun _ => rfl
  exact Leads.ofStep () (SessionTask.on_log entry _) hstep rfl (h world hquiet)

theorem Leads.log_like {entry : LogEntry} :
    Leads asked bound now (SessionTask.log entry) (fun _ next => now.Like next) hides :=
  Leads.log fun _ hquiet => ⟨hquiet.defs, hquiet.decls, rfl⟩

theorem Leads.checkWritable {declaration : Declaration}
    (herror : ¬ now.decls.Writable declaration → bound = some now.decls.count →
      now.Fault (.readOnly (now.world.declSymbol declaration))) :
    Leads asked bound now (SessionTask.checkWritable declaration)
      (fun _ next => next = now ∧ now.decls.Writable declaration) hides := by
  refine Leads.world (Leads.ofExcept (fun value hvalue => ⟨rfl, ?_⟩) fun error hvalue => ?_)
  all_goals
    unfold Declaration.checkWritable at hvalue
    split at hvalue
  · simp at hvalue
  · exact eq_false_of_ne_true ‹_›
  · rename_i hlocked
    cases hvalue
    exact herror (by simp [Declarations.Writable, hlocked])
  · simp at hvalue

/-- Whether a definition agrees on a detail with its declaration, and all that this says is known.
-/
structure Confirms (now : Moment) (declaration : Declaration) (definition : Definition)
    (detail : Detail) : Prop where
  holds : now.Holds declaration definition detail
  covers : now.Covers ((now.decls.statement declaration).targetsOf detail)
    ((now.decls.statement declaration).slotsOf detail)

/-- What holds of the definition on top of the stack is confirmed. -/
theorem Leads.confirm {declaration : Declaration} {definition : Definition} {rest : InFlight}
    {detail : Detail} (hsound : now.Sound)
    (hstack : now.stack = (declaration, some definition) :: rest)
    (h : Leads asked bound now task (fun _ next => next.Confirms declaration definition detail)
      hides) :
    Leads asked bound now task (fun _ next => (declaration, detail) ∈ next.confirmed) hides := by
  rw [← bind_pure task]
  refine Leads.bind hsound h fun value next hafter ⟨hholds, hcovers⟩ => ?_
  have hstep : Step asked { hides } next
      { next with confirmed := (declaration, detail) :: next.confirmed } :=
    .confirm (hafter.stack.trans hstack) hholds hcovers
  exact LeadsTo.step hstep rfl (Leads.pure List.mem_cons_self)

/-- A detail of the definition on top of the stack is changed. -/
theorem Leads.amend {declaration : Declaration} {definition : Definition} {rest : InFlight}
    {change : Definitions → Definitions} {post : Unit → Moment → Prop} (amendment : Amendment)
    (hstack : now.stack = (declaration, some definition) :: rest) (hasked : asked declaration)
    (hwritable : now.decls.Writable declaration)
    (hstated : amendment.Stated now declaration definition)
    (hchanges : now.defs.Changes (change now.defs) definition
      (Record.alter (amendment.apply ·)))
    (h : post () (now.withDefs (change now.defs))) :
    Leads asked bound now (SessionTask.changeDefs change) post hides := by
  have hstep : Step asked { hides } now (now.withDefs (change now.defs)) :=
    .amend hstack hasked hwritable hstated hchanges
  exact Leads.ofStep () (SessionTask.on_changeDefs change now.state) hstep rfl h

/-- A task done for every item of a list; what it finds out about one stays true. -/
theorem Leads.mapM {ι : Type} {f : ι → SessionTask α} {R : ι → α → Moment → Prop}
    {items : List ι} (hstays : ∀ item value {now next : Moment}, now.After next →
      R item value now → R item value next)
    (hsound : now.Sound)
    (h : ∀ item ∈ items, ∀ next, now.After next → Leads asked bound next (f item) (R item) hides) :
    Leads asked bound now (items.mapM f) (fun values next =>
      List.Forall₂ (fun item value => R item value next) items values) hides := by
  induction items generalizing now with
  | nil => exact Leads.pure .nil
  | cons item items ih =>
      rw [List.mapM_cons]
      refine Leads.bind hsound (h item List.mem_cons_self now (.refl hsound)) ?_
      intro value next hafter hvalue
      refine Leads.bind hafter.sound (ih hafter.sound fun other hmem last hafter' =>
        h other (List.mem_cons_of_mem _ hmem) last (hafter.trans hafter')) ?_
      intro values last hafter' hvalues
      exact Leads.pure (.cons (hstays item value hafter' hvalue) hvalues)

/-- A task done for every item of a list for its effect alone. When it is done for one item, what
it brings about is true of all items before. -/
theorem Leads.forM {ι : Type} {f : ι → SessionTask Unit} {R : ι → Moment → Prop}
    {items : List ι} (hstays : ∀ item {now next : Moment}, now.After next → R item now →
      R item next)
    (hsound : now.Sound)
    (h : ∀ front item rest, items = front ++ item :: rest → ∀ next, now.After next →
      (∀ other ∈ front, R other next) →
      Leads asked bound next (f item) (fun _ last => R item last) hides) :
    Leads asked bound now (items.forM f) (fun _ next => ∀ item ∈ items, R item next) hides := by
  induction items generalizing now with
  | nil => exact Leads.pure (by simp)
  | cons item items ih =>
      change Leads asked bound now (f item >>= fun _ => items.forM f) _ hides
      refine Leads.bind hsound (h [] item items rfl now (.refl hsound) (by simp)) ?_
      intro _ next hafter hitem
      refine Leads.mono hafter.sound (ih hafter.sound ?_) ?_
      · rintro front other rest rfl last hafter' hfront
        exact h (item :: front) other rest rfl last (hafter.trans hafter')
          (List.forall_mem_cons.mpr ⟨hstays item hafter' hitem, hfront⟩)
      · intro _ last hafter' hitems
        exact List.forall_mem_cons.mpr ⟨hstays item hafter' hitem, hitems⟩

/-- An operation that succeeds has been a run. -/
theorem Leads.of_ok {task : SessionTask α} {post : α → Moment → Prop} {value : α}
    {state : SessionState} (h : Leads asked bound now task post hides)
    (hclosed : now.decls.Closed asked) (hon : task.on now.state = (.ok value, state)) :
    ∃ next : Moment, next.state = state ∧ next.stack = now.stack ∧ Run asked { hides } now next ∧
      post value next := by
  have hleads := h hclosed
  rw [hon] at hleads
  obtain ⟨next, hstate, hrun, hstack, hpost⟩ := hleads
  exact ⟨next, hstate, hstack, hrun, hpost⟩

end Rules

/-- Pairs that are each a known item with its image. -/
theorem forall₂_and_eq_map {ι : Type} {P : ι → Prop} {f : ι → α} {items : List ι}
    {values : List α} : List.Forall₂ (fun item value => P item ∧ value = f item) items values ↔
      (∀ item ∈ items, P item) ∧ values = items.map f := by
  induction items generalizing values with
  | nil => simp
  | cons item items ih =>
      cases values with
      | nil => simp
      | cons value values => simp [ih]; tauto

end Graft.Moment
