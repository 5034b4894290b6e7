import Graft.Proofs.Session.Reconciling
import Graft.Session.Resolve

/-!
# Resolving declarations is a run

Resolving any declaration of a closed set is a run of steps, whatever is being resolved already
(`finds_resolveWithin`), and its answer is what the declaration then stands for. A resolution that
fails gives up exactly those that it has begun.
-/

namespace Graft.Moment

open SessionTask

variable {asked : Declaration → Prop} {bound : Option Nat} {now next : Moment}
  {declaration : Declaration} {definition : Definition} {rest : InFlight}

/-- A declaration that was resolved before is not resolved again. -/
theorem leads_remembered? :
    Leads asked bound now (SessionTask.remembered? declaration) fun found next =>
      next.session.resolved.get? declaration = found := by
  intro _
  rw [SessionTask.remembered?, SessionTask.on_bind, SessionTask.on_get]
  dsimp only
  cases hmemo : now.session.resolved.get? declaration with
  | none => exact ⟨now, rfl, .refl, rfl, hmemo⟩
  | some definition =>
      let entry := LogEntry.memoHit (now.world.declSymbol declaration)
      let next := now.withState { now.session with hits := now.session.hits + 1 }
        { now.world with log := now.world.log.push entry }
      have hquiet : now.world.Quiet next.world := .ofLog _
      have hstep : Step asked {} now next := .quiet hquiet fun _ => rfl
      exact ⟨next, rfl, .single hstep, rfl, hmemo⟩

/-- Remembering the definition on top of the stack ends the resolution of its declaration. -/
theorem leads_remember
    (hstack : now.stack = (declaration, some definition) :: rest)
    (hconfirmed : ∀ detail ∈ now.decls.details declaration,
      (declaration, detail) ∈ now.confirmed) :
    LeadsTo asked bound now rest (do
      remember declaration definition
      return definition) fun found next =>
        next.stack = rest ∧ next.answer declaration = some found := by
  have hstep : Step asked {} now ((now.withState
      { now.session with resolved := now.session.resolved.insert declaration definition }
      now.world).withStack rest) := .remember hstack hconfirmed
  refine LeadsTo.ofStep definition ?_ hstep ⟨rfl, answer_of_remembered ?_⟩
  · rfl
  · simp

/-- What was located is reconciled and remembered. -/
theorem leads_reconcileAndRemember {search : Search} {made : Bool}
    (hfinds : Finds asked bound ((declaration, some definition) :: rest) search)
    (hsound : now.Sound) (hclosed : now.decls.Closed asked) (hasked : asked declaration)
    (hlocated : now.Located rest declaration definition made) :
    LeadsTo asked bound now rest (do
      search.reconcile declaration definition made
      remember declaration definition
      return definition) fun found next =>
        next.stack = rest ∧ next.answer declaration = some found := by
  have hnoted : (declaration, definition) ∈ now.made ↔ made = true := by
    cases made with
    | true => exact ⟨fun _ => rfl, fun _ => (hlocated.rendered rfl).2⟩
    | false => exact ⟨fun hmem => absurd hmem (hlocated.found rfl), nofun⟩
  have hreconcile (last : Moment) (hlast : last.Sound) (hstate : last.state = now.state)
      (hstack : last.stack = (declaration, some definition) :: rest) (hlists : last.made = now.made)
      (hoverload : declaration.kind = .method → (declaration, .overload) ∈ last.confirmed) :
      LeadsTo asked bound last rest (do
        search.reconcile declaration definition made
        remember declaration definition
        return definition) fun found next =>
          next.stack = rest ∧ next.answer declaration = some found := by
    have hanswer : last.answer = now.answer := by
      funext other
      rw [answer, answer, Moment.session, hstate, hstack, hlocated.stack]
    have hdecls : last.decls = now.decls := congrArg (fun state => state.world.decls) hstate
    have hbegun : last.Begun declaration definition made := by
      refine ⟨⟨?_, ?_⟩, fun htrue => (hlocated.rendered htrue).1.mono hstate ?_, hlists ▸ hnoted⟩
      · rw [hanswer, hdecls]
        exact hlocated.covers.settled
      · rw [world, hstate, hdecls]
        exact hlocated.covers.owned
      · exact hanswer ▸ fun _ _ hknown => hknown
    refine Leads.andThen hlast (leads_reconcile hfinds hlast hstack (hdecls ▸ hclosed) rfl hasked
      hlocated.kind hoverload hbegun) (hstack ▸ List.suffix_cons _ _) ?_
    intro _ final hfinal hconfirmed
    refine leads_remember (hfinal.stack.trans hstack) ?_
    rw [hfinal.later.decls]
    exact hconfirmed
  -- For a method being found already says that it is the same overload, which is confirmed first.
  by_cases hmethod : declaration.kind = .method
  · have hconfirm : Step asked {} now
        { now with confirmed := (declaration, .overload) :: now.confirmed } :=
      .confirm hlocated.stack (hlocated.overload hmethod) hlocated.covers
    exact LeadsTo.step hconfirm rfl (hreconcile _ (hconfirm.sound hsound) rfl hlocated.stack rfl
      fun _ => List.mem_cons_self)
  · exact hreconcile now hsound rfl hlocated.stack rfl fun h => absurd h hmethod

/-- A declaration that is neither remembered nor being resolved is located and reconciled. -/
theorem leads_locateAndReconcile {search : InFlight → Search}
    (hfinds : ∀ entry, Finds asked bound (entry :: now.stack) (search (entry :: now.stack)))
    (hsound : now.Sound) (hasked : asked declaration)
    (hmemo : now.session.resolved.get? declaration = none)
    (hlookup : now.stack.lookup declaration = none) (hlets : Lets now.stack declaration) :
    Leads asked bound now (do
      let (definition, made) ←
        Search.locate (search ((declaration, none) :: now.stack)) declaration
      Search.reconcile (search ((declaration, some definition) :: now.stack))
        declaration definition made
      remember declaration definition
      return definition) fun found next => next.answer declaration = some found := by
  refine Leads.closed fun hclosed => ?_
  have henter : Step asked {} now (now.withStack ((declaration, none) :: now.stack)) :=
    .enter hasked hmemo hlookup hlets
  have hsound₁ := henter.sound hsound
  refine LeadsTo.step henter rfl (LeadsTo.bind
    (leads_locate (hfinds _) hsound₁ rfl hclosed rfl hasked)
    (fun next hrun => (hrun.later hsound₁).decls) ?_)
  rintro ⟨definition, made⟩ next hrun hlocated
  have hdecls := (hrun.later hsound₁).decls
  exact leads_reconcileAndRemember (hfinds _) (hrun.sound hsound₁) (hdecls ▸ hclosed) hasked
    hlocated

/-- Resolving a declaration is a run that ends with its answer. Where faults are explained, a stack
that is full holds more declarations than there are. -/
theorem finds_resolveWithin (asked : Declaration → Prop) (depth : Nat) (stack : InFlight)
    (hdepth : ∀ count, bound = some count → count < depth + stack.length) :
    Finds asked bound stack (resolveWithin depth stack) := by
  induction depth generalizing stack with
  | zero =>
      rintro now - rfl declaration - -
      refine Leads.world (Leads.throw fun hbound => .exhausted ?_)
      simpa using hdepth _ hbound
  | succ depth ih =>
      intro now hsound hstack declaration hasked hlets
      refine Leads.closed fun hclosed => Leads.bind hsound leads_remembered? ?_
      rintro (_ | definition) next hafter hmemo
      case some => exact Leads.pure (answer_of_remembered hmemo)
      have hstack' := hafter.stack.trans hstack
      replace hclosed := hafter.later.decls ▸ hclosed
      dsimp only
      subst hstack'
      cases hlookup : next.stack.lookup declaration with
      | some entry =>
          cases entry with
          | none => exact Leads.world (Leads.throw fun _ => .cyclic hmemo hlookup hlets)
          | some definition => exact Leads.pure (by simp [answer, hmemo, hlookup])
      | none =>
          refine leads_locateAndReconcile (fun entry => ih _ fun count hbound => ?_) hafter.sound
            hasked hmemo hlookup hlets
          have hfits := hdepth count hbound
          rw [List.length_cons]
          omega

/-- Resolving a declaration while nothing else is being resolved. -/
theorem finds_resolve (asked : Declaration → Prop) (bound : Option Nat) :
    Finds asked bound [] resolve := by
  intro now hsound hstack declaration hasked hlets
  refine Leads.world (LeadsTo.anyBound (finds_resolveWithin asked _ [] ?_ now hsound hstack
    declaration hasked hlets) hsound)
  rintro count ⟨⟩
  simp

end Graft.Moment
