import Graft.Proofs.Pairing.Blaming
import Graft.Proofs.Session.Calls

/-!
# What a session remembers

What has been resolved once is answered in the same way for as long as the session lasts, and asking
for it changes nothing but the count of hits and the log (`resolution_lasts`). A declaration is not
remembered before it has been reconciled: not while it is in flight (`resolveWithin_unremembered`), and
not when its resolution has failed (`resolution_forgotten`). What was resolved on the way stays
remembered, so that a resolution that has failed may succeed when it is repeated (`failure_mended`).
-/

namespace Graft

open SessionTask Moment

namespace Pairing

variable {decls : Declarations} {declaration forgotten : Declaration} {depth : Nat}
  {inFlight : InFlight} {α : Type}

/-- Every state of a session that does not remember a declaration is like itself alone. -/
def forgetting (decls : Declarations) (forgotten : Declaration) : Pairing where
  Alike left right :=
    (same decls fun _ => True).Alike left right ∧ left.session.resolved.get? forgotten = none
  Expected _ _ := True

theorem Couples.forgetting {task : SessionTask α} (h : (same decls fun _ => True).Couples task task)
    (hkeeps : ∀ state, state.session.resolved.get? forgotten = none →
      (task.on state).2.session.resolved.get? forgotten = none) :
    (forgetting decls forgotten).Couples task task := by
  rintro left right ⟨halike, hnone⟩
  have hagree := h left right halike
  exact ⟨hagree.outcome, ⟨hagree.alike, hkeeps left hnone⟩, fun _ _ => trivial⟩

/-- Taking a module from the source has no part in what is remembered. -/
theorem resolved_module? (name : String) (state : SessionState) :
    ((SessionTask.module? name).on state).2.session.resolved = state.session.resolved := by
  rw [SessionTask.module?, on_bind, on_get]
  dsimp only
  cases state.session.modules.get? name with
  | some module => rfl
  | none =>
      dsimp only
      rw [on_bind, on_attempt]
      cases ((Task.load state.session.source name).on state.world).1 with
      | ok module => rfl
      | error error => cases error <;> rfl

theorem lawful_forgetting : (forgetting decls forgotten).Lawful decls where
  decls_eq left right halike := halike.1.2.1
  links left right halike := (lawful_same fun _ _ => trivial).links left right halike.1
  expected _ _ _ := trivial
  changeDefs change := ((lawful_same fun _ _ => trivial).changeDefs change).forgetting fun state h => by
    rwa [on_changeDefs]
  log entry := ((lawful_same fun _ _ => trivial).log entry).forgetting fun state h => by
    rwa [on_log]
  keepModule name module :=
    ((lawful_same fun _ _ => trivial).keepModule name module).forgetting fun state h => h
  module? name := ((lawful_same fun _ _ => trivial).module? name).forgetting fun state h => by
    rwa [resolved_module?]

theorem forgetting_remembered? (other : Declaration) :
    (forgetting decls forgotten).Couples (remembered? other) (remembered? other) := by
  refine (same_remembered? other).forgetting fun state h => ?_
  rw [remembered?, on_bind, on_get]
  dsimp only
  cases state.session.resolved.get? other with
  | none => exact h
  | some definition => exact h

theorem forgetting_remember {other : Declaration} (definition : Definition) (hne : other ≠ forgotten) :
    (forgetting decls forgotten).Couples (remember other definition) (remember other definition) := by
  have hremember : (same decls fun _ => True).Couples (remember other definition)
      (remember other definition) :=
    couples_self fun state hsettled => ⟨hsettled, fun _ _ => trivial⟩
  refine hremember.forgetting fun state h => ?_
  rw [remember, on_changeSession]
  simpa [Dictionary.get?_insert, hne] using h

/-- While a declaration is in flight it is not remembered, whatever is resolved then. -/
theorem couples_forgetting (haloft : inFlight.lookup forgotten ≠ none) :
    (forgetting decls forgotten).Couples (resolveWithin depth inFlight declaration)
      (resolveWithin depth inFlight declaration) :=
  couples_beside lawful_forgetting (fun _ _ => trivial) forgetting_remembered?
    (fun _ definition => forgetting_remember definition) (fun _ _ _ _ _ => trivial) haloft

theorem locate_forgetting (depth : Nat) : (forgetting decls forgotten).Couples
    (Search.locate (resolveWithin depth [(forgotten, none)]) forgotten)
    (Search.locate (resolveWithin depth [(forgotten, none)]) forgotten) :=
  Search.couples_locate lawful_forgetting (fun _ _ _ => trivial) fun _ _ _ =>
    couples_forgetting (by simp)

theorem reconcile_forgetting (depth : Nat) (definition : Definition) (made : Bool) :
    (forgetting decls forgotten).Couples
      (Search.reconcile (resolveWithin depth [(forgotten, some definition)])
        forgotten definition made)
      (Search.reconcile (resolveWithin depth [(forgotten, some definition)])
        forgotten definition made) :=
  Search.couples_reconcile lawful_forgetting definition made (fun _ _ _ _ => trivial)
    (fun _ _ => couples_forgetting (by simp)) fun _ _ _ => couples_forgetting (by simp)

end Pairing

variable {state final : SessionState} {declaration other : Declaration} {depth : Nat}
  {inFlight : InFlight}

/-- Nothing that is resolved beside a declaration in flight makes a session remember that one, whether
it succeeds or fails. -/
theorem resolveWithin_unremembered (haloft : inFlight.lookup declaration ≠ none)
    (hnone : state.session.resolved.get? declaration = none) :
    ((resolveWithin depth inFlight other).on state).2.session.resolved.get? declaration = none := by
  have hbeside : (Pairing.forgetting state.world.decls declaration).Couples
      (resolveWithin depth inFlight other) (resolveWithin depth inFlight other) :=
    Pairing.couples_forgetting haloft
  exact (hbeside state state ⟨⟨rfl, rfl, Source.failsAs_true _⟩, hnone⟩).alike.2

/-- A declaration is remembered at the end of its resolution only. -/
theorem resolve_error_unremembered {error : Error}
    (hon : (resolve declaration).on state = (.error error, final)) :
    final.session.resolved.get? declaration = none := by
  cases hmemo : state.session.resolved.get? declaration with
  | some definition =>
      obtain ⟨hits, log, hfound⟩ := on_resolve_remembered hmemo
      rw [hfound] at hon
      cases hon
  | none =>
      have hremembered : (remembered? declaration).on state = (.ok none, state) := by
        rw [remembered?, on_bind, on_get]
        dsimp only
        rw [hmemo]
        rfl
      rw [resolve, on_bind, on_world] at hon
      dsimp only at hon
      rw [resolveWithin_succ, on_bind, hremembered] at hon
      simp only [List.lookup_nil] at hon
      have hlocate := Pairing.locate_forgetting state.world.decls.count state state
        ⟨⟨rfl, rfl, Source.failsAs_true _⟩, hmemo⟩
      rw [resolveAnew] at hon
      obtain hfails | ⟨⟨definition, made⟩, middle, hlocated, hrest⟩ := on_bind_error.mp hon
      · rw [hfails] at hlocate
        exact hlocate.alike.2
      · rw [hlocated] at hlocate
        have hreconcile := Pairing.reconcile_forgetting state.world.decls.count definition made
          middle middle hlocate.alike
        obtain hfails | ⟨_, _, _, hremember⟩ := on_bind_error.mp hrest
        · rw [hfails] at hreconcile
          exact hreconcile.alike.2
        · cases hremember

/-- What a session has resolved it answers in the same way for ever, whatever is asked of it before
and in between, and asking again changes nothing but the count of hits and the log. -/
theorem resolution_lasts {world : World} {source : SourceId} {calls calls' : List SessionCall}
    {definition : Definition} {found : SessionState} (hheld : world.defs.Held)
    (hsource : (world.source source).Sound world.defs)
    (hon : (resolve declaration).on (SessionState.after ⟨{ source }, world⟩ calls) =
      (.ok definition, found)) :
    ∃ hits log, (resolve declaration).on (found.after calls') = (.ok definition,
      ⟨{ (found.after calls').session with hits }, { (found.after calls').world with log }⟩) := by
  have hsound := sound_begin hheld hsource
  obtain ⟨now, hstate, hidle, hrun⟩ := after_run hsound rfl (world.reaches_all calls)
  rw [show SessionState.after ⟨{ source }, world⟩ calls = now.state from hstate.symm] at hon
  obtain ⟨next, rfl, hstack, hresolves, hanswer⟩ :=
    (finds_resolve (fun _ => True) none now (hrun.sound hsound) hidle declaration trivial nofun).of_ok
      (now.world.reaches_all []).closed hon
  have hidle' := hstack.trans hidle
  have hsound' := hresolves.sound (hrun.sound hsound)
  obtain ⟨last, hlast, -, hrun'⟩ := after_run hsound' hidle' (next.world.reaches_all calls')
  rw [answer_idle hidle'] at hanswer
  have hmemo := (hrun'.later hsound').remembered _ _ hanswer
  rw [show next.state.after calls' = last.state from hlast.symm]
  exact on_resolve_remembered hmemo

/-- A resolution that fails is not remembered, and what was remembered before still is. -/
theorem resolution_forgotten {world : World} {source : SourceId} {calls : List SessionCall}
    {error : Error} {failed : SessionState} (hheld : world.defs.Held)
    (hsource : (world.source source).Sound world.defs)
    (hon : (resolve declaration).on (SessionState.after ⟨{ source }, world⟩ calls) =
      (.error error, failed)) :
    failed.session.resolved.get? declaration = none ∧
      ∀ other definition,
        (SessionState.after ⟨{ source }, world⟩ calls).session.resolved.get? other = some definition →
          failed.session.resolved.get? other = some definition := by
  refine ⟨resolve_error_unremembered hon, ?_⟩
  have hsound := sound_begin hheld hsource
  obtain ⟨now, hstate, hidle, hrun⟩ := after_run hsound rfl (world.reaches_all calls)
  rw [show SessionState.after ⟨{ source }, world⟩ calls = now.state from hstate.symm] at hon ⊢
  obtain ⟨next, hnext, -, hresolves⟩ := resolve_run declaration (hrun.sound hsound) hidle
    (now.world.reaches_all []).closed trivial
  rw [hon] at hnext
  cases hnext
  exact (hresolves.later (hrun.sound hsound)).remembered

/-- Three declarations of one type. The first one names the other two as interfaces and states other
flags than the second one; the third one is only read. -/
def World.wavering : World :=
  let (module, defs) := ({} : Definitions).makeModule { name := "Game" }
  let scope (types : List (DeclId .type)) : ModuleDecl :=
    { terms := ⟨.failIfMissing, false⟩, name := "Game", types }
  { defs
    decls :=
      { modules := ⟨#[some (scope [⟨0⟩]), some (scope [⟨1⟩]), some (scope [⟨2⟩])]⟩
        types := ⟨#[
          some
            { terms := ⟨.createIfMissing, false⟩
              place := .topLevel ⟨0⟩ "Core"
              name := "Clock"
              flags := some 1
              interfaces := [.declared ⟨1⟩, .declared ⟨2⟩] },
          some
            { terms := ⟨.createIfMissing, false⟩
              place := .topLevel ⟨1⟩ "Core"
              name := "Clock"
              flags := some 0 },
          some
            { terms := ⟨.failIfMissing, true⟩
              place := .topLevel ⟨2⟩ "Core"
              name := "Clock"
              flags := some 1 }]⟩ }
    sources := ⟨#[some (.memory ⟨[("Game", module)]⟩ {})]⟩ }

/-- A resolution that has failed may succeed when it is repeated, since what it has resolved on the
way is remembered and not reconciled again. -/
theorem failure_mended :
    ¬ ∀ (world : World) (source : SourceId) (declaration : Declaration) (error : Error)
      (failed : SessionState), world.defs.Held → (world.source source).Sound world.defs →
      (resolve declaration).on ⟨{ source }, world⟩ = (.error error, failed) →
      ∃ error' final, (resolve declaration).on failed = (.error error', final) := by
  intro h
  have hfails : ((resolve (.type ⟨0⟩)).on ⟨{ source := ⟨0⟩ }, .wavering⟩).1 =
      .error (.readOnly ⟨.type, "Core.Clock"⟩) := by
    decide +kernel
  have hmended : ((resolve (.type ⟨0⟩)).on
      ((resolve (.type ⟨0⟩)).on ⟨{ source := ⟨0⟩ }, .wavering⟩).2).1 = .ok (.type ⟨0⟩) := by
    decide +kernel
  cases hfirst : (resolve (.type ⟨0⟩)).on ⟨{ source := ⟨0⟩ }, .wavering⟩ with
  | mk outcome failed =>
      rw [hfirst] at hfails hmended
      cases hfails
      obtain ⟨error, final, hagain⟩ := h .wavering ⟨0⟩ _ _ failed (by decide +kernel)
        (Source.sound_memory (by decide +kernel)) hfirst
      dsimp only at hmended
      rw [hagain] at hmended
      cases hmended

end Graft
