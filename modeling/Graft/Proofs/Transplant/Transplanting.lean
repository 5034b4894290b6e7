import Graft.Proofs.Transplant.Carrying

/-!
# Transplanting bodies is a run

A transplant resolves the method, carries the declared body over and only then replaces the body of
the method (`transplant_on`). When it fails, whatever was resolved on the way stays, and no body
has been replaced.
-/

namespace Graft

namespace SessionTask

/-- The method that receives the body that is declared for it. -/
def receiver (id : DeclId .method) : SessionTask (DefId .method) := do
  checkWritable (.method id)
  Search.method resolve id

/-- The part of a transplant before the body is replaced: the method, the body carried over for it
and the context in which that was done. -/
def carryOver (id : DeclId .method) (graft : Transplant) (suffix : String) :
    SessionTask (DefId .method × Body × TransplantContext) := do
  checkWritable (.method id)
  let method ← Search.method resolve id
  let carried ← (graft.transformer.body graft.body).run (.start (← world) method suffix)
  return (method, carried)

/-- Carrying a body over begins with the method that receives it. -/
theorem carryOver_eq (id : DeclId .method) (graft : Transplant) (suffix : String) :
    carryOver id graft suffix = (do
      let method ← receiver id
      let carried ← (graft.transformer.body graft.body).run (.start (← world) method suffix)
      return (method, carried)) := by
  simp only [carryOver, receiver, bind_assoc]

/-- A transplant in two parts. -/
theorem transplant_eq (id : DeclId .method) (suffix : String) :
    transplant id suffix = (do
      let some graft := ((← world).decls.method id).body | return none
      let (method, body, context) ← carryOver id graft suffix
      changeDefs (·.updateMethod method fun record => { record with body := some body })
      log (.bodyReplaced ((← world).methodName method))
      return context.hidden) := by
  unfold transplant carryOver
  congr 1
  funext world
  cases (world.decls.method id).body with
  | none => rfl
  | some graft => simp only [bind_assoc, pure_bind]

end SessionTask

namespace Moment

open SessionTask

/-- A transplant that has been made, from `now` on: by `done` the body was carried over, and the
method was changed at last. -/
structure Grafted (asked : Declaration → Prop) (id : DeclId .method) (graft : Transplant)
    (context : TransplantContext) (body : Body) (now done : Moment) (state : SessionState) :
    Prop where
  declared : (now.decls.method id).body = some graft
  run : Run asked { hides := true } now done
  during : now.After done
  working : Working asked now id graft.transformer done context
  carried : done.CarriedBody now.world graft.transformer context.hidden graft.body body
  session : state.session = done.session
  world : World.Quiet { done.world with
    defs := done.defs.updateMethod context.method fun record => { record with body := some body } }
    state.world

variable {asked : Declaration → Prop} {now done : Moment} {id : DeclId .method}
  {graft : Transplant} {context : TransplantContext} {body : Body} {state : SessionState}

/-- Finding the method is a run, after which the replacement can begin. -/
theorem leads_receiver (suffix : String) (hsound : now.Sound) (hstack : now.stack = [])
    (hasked : asked (.method id)) (hasks : now.decls.Writable (.method id) →
      Asks asked now.decls graft.body.targets ∧ graft.transformer.Asks asked now.world) :
    Leads asked none now (receiver id) (fun method begun =>
      Working asked now id graft.transformer begun (.start begun.world method suffix) ∧
        Asks asked begun.decls graft.body.targets) true := by
  refine Leads.bind hsound (Leads.checkWritable fun _ => nofun) ?_
  rintro _ now - ⟨rfl, hwritable⟩
  obtain ⟨hasks, htransformer⟩ := hasks hwritable
  refine Leads.mono hsound
    (leads_method (finds_resolve asked none) hsound hstack hasked nofun).bares ?_
  intro method begun hbegun ⟨hhidden, hanswer⟩
  have hstack' := hbegun.stack.trans hstack
  have hmemo : begun.session.resolved.get? (.method id) = some (.method method) := by
    simpa [answer, hstack'] using hanswer
  have hrecord := Definitions.record?_method (hbegun.sound.remembered _ _ hmemo)
  refine ⟨?_, hbegun.asks hasks⟩
  exact
    { sound := hbegun.sound
      stack := hstack'
      between := ⟨hbegun.later.grows, .refl _, fun _ => rfl, fun _ => rfl, fun _ => rfl,
        fun _ => rfl⟩
      asks := hbegun.transformerAsks htransformer
      asked := hasked
      writable := hbegun.later.decls ▸ hwritable
      memo := hmemo
      base := fun record hother => by
        cases hrecord.symm.trans hother
        rfl
      hidden := by simp [TransplantContext.start]
      trace := hhidden }

/-- Everything before the body is replaced is a run without grafts. -/
theorem leads_carryOver (suffix : String) (hsound : now.Sound) (hstack : now.stack = [])
    (hasked : asked (.method id)) (hasks : now.decls.Writable (.method id) →
      Asks asked now.decls graft.body.targets ∧ graft.transformer.Asks asked now.world) :
    Leads asked none now (carryOver id graft suffix) (fun carried done =>
      carried.1 = carried.2.2.method ∧ carried.2.2.suffix = suffix ∧
        Working asked now id graft.transformer done carried.2.2 ∧
        done.CarriedBody now.world graft.transformer carried.2.2.hidden graft.body
          carried.2.1) true := by
  rw [carryOver_eq]
  refine Leads.bind hsound (leads_receiver suffix hsound hstack hasked hasks) ?_
  intro method begun hbegun ⟨hworking, hasks⟩
  refine Leads.world (Leads.bind hbegun.sound (advances_body hworking rfl hasks) ?_)
  rintro ⟨body, context⟩ done hdone ⟨hworking', honward, hcarried⟩
  exact Leads.pure ⟨honward.method.symm, honward.suffix, hworking', hcarried⟩

/-- A transplant succeeds with everything in place, or it replaces no body. -/
theorem transplant_on (suffix : String) (hsound : now.Sound) (hstack : now.stack = [])
    (hclosed : now.decls.Closed asked) (hasked : asked (.method id))
    (hbody : ∀ graft, (now.decls.method id).body = some graft →
      now.decls.Writable (.method id) →
      Asks asked now.decls graft.body.targets ∧ graft.transformer.Asks asked now.world) :
    match (transplant id suffix).on now.state with
    | (.error _, state) => ∃ next : Moment, next.state = state ∧ next.stack = [] ∧
        Run asked { fails := true, hides := true } now next
    | (.ok hidden, state) =>
        ((now.decls.method id).body = none ∧ hidden = none ∧ state = now.state) ∨
        ∃ graft context body done, context.hidden = hidden ∧ context.suffix = suffix ∧
          Grafted asked id graft context body now done state := by
  rw [transplant_eq, SessionTask.on_bind, SessionTask.on_world]
  dsimp only
  cases hgraft : (now.world.decls.method id).body with
  | none => exact .inl ⟨rfl, rfl, rfl⟩
  | some graft =>
      have hleads := leads_carryOver suffix hsound hstack hasked (hbody graft hgraft)
        hclosed
      dsimp only
      rw [SessionTask.on_bind]
      cases hon : (carryOver id graft suffix).on now.state with
      | mk outcome state =>
          rw [hon] at hleads
          cases outcome with
          | error error =>
              obtain ⟨fault, rfl, -, hrun, -⟩ := hleads
              obtain ⟨last, hstate, hlast, hrun'⟩ := giveUp asked { hides := true }
                (List.nil_suffix (l := fault.stack))
              have hrun : Run asked { fails := true, hides := true } now fault :=
                hrun.weaken (by simp) (by simp) (by simp)
              exact ⟨last, hstate, hlast, hrun.trans hrun'⟩
          | ok carried =>
              obtain ⟨method, body, context⟩ := carried
              obtain ⟨done, rfl, hrun, hstack', hmethod, hsuffix, hworking, hcarried⟩ := hleads
              obtain rfl : method = context.method := hmethod
              refine .inr ⟨graft, context, body, done, rfl, hsuffix, ?_⟩
              exact ⟨hgraft, hrun, hrun.after rfl rfl hsound hstack', hworking, hcarried, rfl,
                .ofLog _⟩

/-! ## After a transplant -/

section Grafted

variable (h : Grafted asked id graft context body now done state)

include h

/-- Of all definitions only the method is changed at last. -/
theorem Grafted.changes :
    done.defs.Changes state.world.defs (.method context.method) (Record.graft body) := by
  have hdefs : state.world.defs = done.defs.updateMethod context.method
    fun record => { record with body := some body } := h.world.defs
  rw [hdefs]
  exact Definitions.updateMethod_changes fun _ => rfl

/-- Replacing the body is a run. -/
theorem Grafted.replaces : Run asked { hides := true, grafts := true } done { done with state } := by
  have hworking := h.working
  have hgraft : Step asked { hides := true, grafts := true } done (done.withDefs _) :=
    .graft rfl hworking.asked hworking.writable hworking.memo h.changes
  obtain ⟨session, world⟩ := state
  obtain rfl : session = done.session := h.session
  have hquiet : Step asked { hides := true, grafts := true } (done.withDefs world.defs)
      ((done.withDefs world.defs).withState done.session world) :=
    .quiet { h.world with defs := rfl } nofun
  exact (Relation.ReflTransGen.single hgraft).tail hquiet

/-- A transplant is a run of its own mode. -/
theorem Grafted.grafts : Run asked { hides := true, grafts := true } now { done with state } :=
  (h.run.weaken (by simp) (by simp) (by simp)).trans h.replaces

/-- The body is in place. -/
theorem Grafted.body_eq : (state.world.defs.method context.method).body = some body := by
  obtain ⟨record, hrecord⟩ :=
    Definitions.has_iff.mp (h.working.sound.remembered _ _ h.working.memo)
  simp [Definitions.body_eq, h.changes.record?, hrecord, Record.graft]

/-- Every other method keeps its body. -/
theorem Grafted.body_of_ne {method : DefId .method} (hhas : now.defs.has (.method method) = true)
    (hne : method ≠ context.method) :
    (state.world.defs.method method).body = (now.defs.method method).body := by
  rw [← h.during.bodies.body_eq hhas]
  simp [Definitions.body_eq, h.changes.record?, hne]

end Grafted

end Moment

end Graft
