import Graft.Liveness
import Graft.Proofs.Import.Reserving
import Graft.Proofs.Session.Finished

/-!
# What can happen to an importer

Definitions change, methods are declared and released, definitions of the patch module are bound,
work is deferred, and references and signatures are imported, in any order (`ImportEvent`).
`ImportEvent.Effect` says all that one of these does to the methods that are bound, to the work that
waits for them and to their slots, and which work it does (`ImportEvent.turns`).
-/

namespace Graft

/-- What can be imported. -/
inductive Importable where
  | typeRef (ref : TypeRef)
  | fieldRef (ref : FieldRef)
  | methodRef (ref : MethodRef)
  | typeSig (signature : TypeSig)
  | methodSig (signature : MethodSig)
  | propertySig (signature : PropertySig)
  | genericParam (param : GenericParam)
  | override (override : Override)

/-- Something imported, whatever comes out. -/
def ImporterId.imports (importer : ImporterId) : Importable → Task Unit
  | .typeRef ref => (fun _ => ()) <$> importer.importTypeRef ref
  | .fieldRef ref => (fun _ => ()) <$> importer.importFieldRef ref
  | .methodRef ref => (fun _ => ()) <$> importer.importMethodRef ref
  | .typeSig signature => (fun _ => ()) <$> importer.importTypeSig signature
  | .methodSig signature => (fun _ => ()) <$> importer.importMethodSig signature
  | .propertySig signature => (fun _ => ()) <$> importer.importPropertySig signature
  | .genericParam param => (fun _ => ()) <$> importer.importGenericParam param
  | .override override => (fun _ => ()) <$> importer.importOverride override

/-- What can happen to an importer and to the declarations that it binds. -/
inductive ImportEvent where
  /-- The definitions are changed in some way. -/
  | define (change : Definitions → Definitions)
  | declareMethod (owner : DeclId .type) (name : String) (signature : MethodSig) (policy : Policy)
  | bindType (token : Token) (declaration : DeclId .type)
  | bindField (token : Token) (declaration : DeclId .field)
  | bindMethod (token : Token) (declaration : DeclId .method)
  /-- A caller asks to be told about a method under a label. -/
  | defer (token : Token) (label : String)
  | imports (value : Importable)
  /-- Whatever the roots do not hold is released. -/
  | release (roots : List Holder)

/-- One piece of work that waited for a method, and the declaration with which it is done. -/
structure Turn where
  token : Token
  work : Continuation
  declaration : DeclId .method
  deriving DecidableEq

/-- The work done. -/
def Turn.perform (turn : Turn) : Task Unit :=
  Task.continueWith turn.declaration turn.work

/-- The world after some work, in this order. -/
def World.afterTurns (world : World) (turns : List Turn) : World :=
  ((turns.forM Turn.perform).on world).2

/-- The declaration that the method with a token stands for, if it still exists. -/
def World.livingFor? (world : World) (importer : ImporterId) (token : Token) :
    Option (DeclId .method) :=
  (world.methodFor? importer token).filter fun declaration =>
    world.decls.methods.has declaration.index

namespace ImportEvent

variable (importer : ImporterId) (event : ImportEvent)

/-- What is done when the event takes place. -/
def perform : ImportEvent → Task Unit
  | define change => Task.changeDefs change
  | declareMethod owner name signature policy =>
    (fun _ => ()) <$> Task.declareMethod owner name signature policy
  | bindType token declaration => importer.bindType token declaration
  | bindField token declaration => importer.bindField token declaration
  | bindMethod token declaration => importer.bindMethod token declaration
  | defer token label => importer.defer token (.notify label)
  | imports value => importer.imports value
  | release roots => modify fun world => world.release roots

/-- The world after the event. What failed has its effects nonetheless. -/
def after (world : World) : World :=
  ((event.perform importer).on world).2

/-- The declaration to which the event binds the method with a token. -/
def binds? (token : Token) : Option (DeclId .method) :=
  match event with
  | bindMethod other declaration => if other = token then some declaration else none
  | _ => none

/-- The work that the event brings for the method with a token: the work of a caller, or a slot
that an import makes. -/
def brings (world : World) (token : Token) : List Continuation :=
  match event with
  | defer other label => if other = token then [.notify label] else []
  | imports _ =>
    if world.slotFor? importer token = none then
      (((event.after importer world).slotFor? importer token).map .own).toList
    else []
  | _ => []

/-- The work that is done because of the event, given what waits. -/
def turns (world : World) (waiting : Token → List Continuation) : List Turn :=
  match event with
  | bindMethod token declaration => (waiting token).map (⟨token, ·, declaration⟩)
  | defer token label =>
    (world.livingFor? importer token).toList.map (⟨token, .notify label, ·⟩)
  | _ => []

end ImportEvent

/-! ## Work that is done -/

namespace World

variable {world : World} {declaration : DeclId .method} {turns : List Turn}

/-- The world after one piece of work. -/
def continued (world : World) (declaration : DeclId .method) : Continuation → World
  | .own slot =>
    { world with
      slots := world.slots.modify slot.index fun held => held.or (some declaration) }
  | .notify label =>
    { world with notices := world.notices.push (label, world.methodDeclName declaration) }

/-- The world in which something more waits for a method. -/
def awaiting (world : World) (importer : ImporterId) (token : Token) (label : String) : World :=
  { world with
    importers := world.importers.update importer.index fun state =>
      { state with
        pending := state.pending.insert token
          ((state.pending.get? token).getD [] ++ [.notify label]) } }

theorem continueWith_on (work : Continuation) (world : World) :
    (Task.continueWith declaration work).on world = (.ok (), world.continued declaration work) := by
  cases work <;> rfl

theorem forM_perform_on (turns : List Turn) (world : World) :
    (turns.forM Turn.perform).on world =
      (.ok (), turns.foldl (fun world turn => world.continued turn.declaration turn.work)
        world) := by
  induction turns generalizing world with
  | nil => rfl
  | cons turn rest ih =>
      have hforM : (turn :: rest).forM Turn.perform =
          turn.perform >>= fun _ => rest.forM Turn.perform := rfl
      rw [hforM, Task.on_bind, Turn.perform, continueWith_on]
      exact ih _

@[simp] theorem afterTurns_nil (world : World) : world.afterTurns [] = world := rfl

theorem afterTurns_cons (world : World) (turn : Turn) (rest : List Turn) :
    world.afterTurns (turn :: rest) =
      (world.continued turn.declaration turn.work).afterTurns rest := by
  rw [afterTurns, forM_perform_on, afterTurns, forM_perform_on]
  rfl

/-- Work has nothing to do with importers and the log. -/
theorem afterTurns_beside (turns : List Turn) (world : World) (importers : Table Importer)
    (log : Array LogEntry) :
    afterTurns { world with importers, log } turns =
      { world.afterTurns turns with importers, log } := by
  induction turns generalizing world with
  | nil => rfl
  | cons turn rest ih =>
      rw [afterTurns_cons, afterTurns_cons, ← ih]
      cases turn.work <;> rfl

/-- Work fills slots and tells callers, and changes nothing else. -/
theorem afterTurns_eq (turns : List Turn) (world : World) :
    world.afterTurns turns =
      { world with
        slots := (world.afterTurns turns).slots
        notices := (world.afterTurns turns).notices } := by
  induction turns generalizing world with
  | nil => rfl
  | cons turn rest ih =>
      rw [afterTurns_cons, ih]
      cases turn.work <;> rfl

theorem size_afterTurns (turns : List Turn) (world : World) :
    (world.afterTurns turns).slots.size = world.slots.size := by
  induction turns generalizing world with
  | nil => rfl
  | cons turn rest ih =>
      rw [afterTurns_cons, ih]
      cases turn.work <;> simp [continued]

/-- A slot that no work is about stays as it is. -/
theorem slot?_afterTurns {slot : SlotId} (h : ∀ turn ∈ turns, turn.work ≠ .own slot) :
    (world.afterTurns turns).slot? slot = world.slot? slot := by
  induction turns generalizing world with
  | nil => rfl
  | cons turn rest ih =>
      obtain ⟨hturn, hrest⟩ := List.forall_mem_cons.mp h
      rw [afterTurns_cons, ih hrest]
      cases hwork : turn.work with
      | notify label => rfl
      | own other =>
          have hne : other.index ≠ slot.index := by
            intro hindex
            refine hturn (hwork.trans ?_)
            cases other
            cases slot
            simpa using hindex
          simp [slot?, continued, Array.getElem?_modify, hne]

/-- What a slot is filled with stays in it. -/
theorem slot?_afterTurns_of_filled {slot : SlotId} {method : DeclId .method}
    (h : world.slot? slot = some method) : (world.afterTurns turns).slot? slot = some method := by
  induction turns generalizing world with
  | nil => exact h
  | cons turn rest ih =>
      rw [afterTurns_cons]
      refine ih ?_
      cases turn.work with
      | notify label => exact h
      | own other =>
          simp only [slot?, Option.join_eq_some_iff] at h
          simp only [slot?, continued, Array.getElem?_modify, h]
          split <;> simp

/-- An empty slot is filled by the work that is about it. -/
theorem slot?_afterTurns_own {works : List Continuation} {slot : SlotId} {token : Token}
    (hmem : .own slot ∈ works) (hissued : slot.index < world.slots.size)
    (hempty : world.slot? slot = none) :
    (world.afterTurns (works.map (⟨token, ·, declaration⟩))).slot? slot = some declaration := by
  induction works generalizing world with
  | nil => cases hmem
  | cons work rest ih =>
      rw [List.map_cons, afterTurns_cons]
      by_cases hwork : work = .own slot
      · refine slot?_afterTurns_of_filled ?_
        have hslot : world.slots[slot.index]? = some none := by
          rwa [slot?, Array.getElem?_eq_getElem hissued, Option.join_some,
            ← Option.some_inj, ← Array.getElem?_eq_getElem hissued] at hempty
        simp [hwork, slot?, continued, Array.getElem?_modify, hslot]
      · refine ih ((List.mem_cons.mp hmem).resolve_left (Ne.symm hwork)) ?_ ?_
        · cases work <;> simpa [continued] using hissued
        · have hsame : (world.afterTurns [⟨token, work, declaration⟩]).slot? slot =
              world.slot? slot := slot?_afterTurns (by simpa using hwork)
          rw [afterTurns_cons, afterTurns_nil] at hsame
          exact hsame.trans hempty

end World

/-! ## What imports leave behind -/

namespace Task

variable {α β : Type} {importer : ImporterId} {task : Task α}

/-- Whether a task does nothing but give slots to methods. -/
def Reserving (importer : ImporterId) (task : Task α) : Prop :=
  ∀ world, world.importers.has importer.index = true →
    ∃ tokens, World.Reserves importer world tokens (task.on world).2

namespace Reserving

theorem pure (value : α) : Reserving importer (Pure.pure value) :=
  fun world _ => ⟨[], .nil world⟩

theorem throw (error : Error) : Reserving importer (MonadExcept.throw error : Task α) :=
  fun world _ => ⟨[], .nil world⟩

theorem bind {next : α → Task β} (htask : Reserving importer task)
    (hnext : ∀ value, Reserving importer (next value)) : Reserving importer (task >>= next) := by
  intro world hlive
  obtain ⟨tokens, hreserves⟩ := htask world hlive
  rw [on_bind]
  cases hon : task.on world with
  | mk outcome middle =>
      rw [hon] at hreserves
      cases outcome with
      | error error => exact ⟨tokens, hreserves⟩
      | ok value =>
          obtain ⟨tokens', hreserves'⟩ := hnext value middle (hreserves.live hlive)
          exact ⟨tokens ++ tokens', hreserves.append hreserves'⟩

theorem get {next : World → Task β} (hnext : ∀ world, Reserving importer (next world)) :
    Reserving importer (MonadState.get >>= next) :=
  fun world hlive => hnext world world hlive

theorem mapM {step : α → Task β} (hstep : ∀ item, Reserving importer (step item))
    (list : List α) : Reserving importer (list.mapM step) := by
  induction list with
  | nil => exact .pure _
  | cons item rest ih =>
      rw [List.mapM_cons]
      exact .bind (hstep item) fun _ => .bind ih fun _ => .pure _

/-- What a task answers makes no difference. -/
theorem ignored (htask : Reserving importer task) :
    Reserving importer ((fun _ => ()) <$> task) := by
  rw [← bind_pure_comp]
  exact .bind htask fun _ => .pure _

end Reserving

theorem Translates.reserving {mentions : List Mention} {read : Relink → α}
    (h : Translates importer mentions read task) : Reserving importer task := by
  intro world hlive
  obtain ⟨tokens, hreserves, -⟩ := (h world hlive).reserves
  exact ⟨tokens, hreserves⟩

end Task

namespace ImporterId

open Graft.Task

variable {importer : ImporterId}

theorem reserving_importFieldRef (ref : FieldRef) :
    Reserving importer (importer.importFieldRef ref) := by
  cases ref with
  | definition id =>
      refine .get fun world => ?_
      split
      · split
        · exact .pure _
        · exact .throw _
      · exact .pure _
  | declared id => exact .pure _
  | external owner name signature =>
      exact .bind (translates_importTypeRef owner).reserving fun _ =>
        .bind (translates_importTypeSig signature).reserving fun _ => .pure _

/-- Whatever is imported, methods get slots, and that is all. -/
theorem reserving_imports (value : Importable) : Reserving importer (importer.imports value) := by
  cases value with
  | typeRef ref => exact (translates_importTypeRef ref).reserving.ignored
  | fieldRef ref => exact (reserving_importFieldRef ref).ignored
  | methodRef ref => exact (translates_importMethodRef ref).reserving.ignored
  | typeSig signature => exact (translates_importTypeSig signature).reserving.ignored
  | methodSig signature => exact (translates_importMethodSig signature).reserving.ignored
  | propertySig signature =>
      exact Reserving.ignored <| .bind (translates_importTypeSig _).reserving fun _ =>
        .bind (translates_importTypeSigs _).reserving fun _ => .pure _
  | genericParam param =>
      exact Reserving.ignored <|
        .bind (.mapM (fun ref => (translates_importTypeRef ref).reserving) _) fun _ => .pure _
  | override override =>
      exact Reserving.ignored <| .bind (translates_importMethodRef _).reserving fun _ =>
        .bind (translates_importMethodRef _).reserving fun _ => .pure _

end ImporterId

namespace World.Reserves

variable {importer : ImporterId} {world final : World} {tokens : List Token} {token : Token}

theorem slot?_eq (h : Reserves importer world tokens final) : final.slot? = world.slot? := by
  induction h with
  | nil => rfl
  | @cons world _ _ _ _ _ _ ih =>
      rw [ih]
      funext slot
      simp only [slot?, reserve, Array.getElem?_push]
      split
      · rename_i heq
        simp [heq]
      · rfl

theorem notices_eq (h : Reserves importer world tokens final) : final.notices = world.notices := by
  induction h with
  | nil => rfl
  | cons _ _ _ ih => exact ih

/-- A method for which work comes to wait stands for nothing and had no slot. -/
theorem queue_eq (h : Reserves importer world tokens final)
    (hlive : world.importers.has importer.index = true) :
    final.queue importer token = world.queue importer token ++
      if world.slotFor? importer token = none then
        ((final.slotFor? importer token).map .own).toList
      else [] := by
  induction h with
  | nil world =>
      split
      · simp [*]
      · simp
  | @cons world final first tokens unbound fresh rest ih =>
      have hquiet : world.Quiet (world.reserve importer first) := quiet_reserve
      have hlive' := hquiet.importers _ hlive
      rw [ih hlive', queue_reserve hlive, slotFor?_reserve hlive]
      by_cases heq : first = token
      -- This is the reservation for the method: no later one is, as it has its slot now.
      · subst heq
        have hslot := rest.slotFor?_eq hlive' ((slotFor?_reserve hlive).trans (if_pos rfl))
        simp [fresh, hslot]
      · simp [heq]

theorem methodFor?_of_new (h : Reserves importer world tokens final)
    (hlive : world.importers.has importer.index = true)
    (hnone : world.slotFor? importer token = none)
    (hsome : final.slotFor? importer token ≠ none) : world.methodFor? importer token = none := by
  induction h with
  | nil => exact absurd hnone hsome
  | @cons world final first tokens unbound fresh rest ih =>
      by_cases heq : first = token
      · exact heq ▸ unbound
      · rw [← quiet_reserve.methodFor?_eq]
        refine ih (quiet_reserve.importers _ hlive) ?_ hsome
        rw [slotFor?_reserve hlive, if_neg heq]
        exact hnone

end World.Reserves

/-! ## What an event does -/

/-- Whether a dictionary of queues holds each key once and no empty queue. -/
structure Importer.Tidy (state : Importer) : Prop where
  distinct : (state.pending.entries.map Prod.fst).Nodup
  filled : ∀ token queue, state.pending.get? token = some queue → queue ≠ []

namespace Importer.Tidy

variable {state : Importer} {token : Token}

/-- Work waits for the methods that are keys. -/
theorem mem_keys_iff (h : state.Tidy) : token ∈ state.pending.entries.map Prod.fst ↔
    (state.pending.get? token).getD [] ≠ [] := by
  constructor
  · intro hmem
    obtain ⟨entry, hentry, rfl⟩ := List.mem_map.mp hmem
    cases hget : state.pending.get? entry.1 with
    | none =>
        have hfind := List.find?_eq_none.mp (Option.map_eq_none_iff.mp hget) entry hentry
        simp at hfind
    | some queue => exact h.filled _ queue hget
  · intro hne
    cases hget : state.pending.get? token with
    | none => exact absurd (by rw [hget]; rfl) hne
    | some queue => exact List.mem_map.mpr ⟨_, Dictionary.mem_of_get? hget, rfl⟩

theorem enqueue (h : state.Tidy) (work : Continuation) :
    Tidy { state with
      pending := state.pending.insert token ((state.pending.get? token).getD [] ++ [work]) } := by
  refine ⟨Dictionary.nodup_put h.distinct, fun other queue hqueue => ?_⟩
  obtain ⟨-, rfl⟩ | hqueue := Dictionary.of_get?_insert hqueue
  · simp
  · exact h.filled other queue hqueue

theorem erase (h : state.Tidy) : Tidy { state with pending := state.pending.erase token } := by
  refine ⟨h.distinct.sublist (List.filter_sublist.map _), fun other queue hqueue => ?_⟩
  simp only [Dictionary.get?_erase] at hqueue
  split at hqueue
  · cases hqueue
  · exact h.filled other queue hqueue

theorem reserve (h : state.Tidy) (slot : SlotId) : (state.reserve token slot).Tidy :=
  ⟨(h.enqueue (.own slot)).distinct, (h.enqueue (.own slot)).filled⟩

end Importer.Tidy

/-- Everything that an event does to the methods that are bound, to the work that waits for them,
to the slots and to the callers that are told. -/
structure ImportEvent.Effect (importer : ImporterId) (event : ImportEvent) (world after : World) :
    Prop where
  live : after.importers.has importer.index = true
  methodFor : ∀ token, after.methodFor? importer token =
    (event.binds? token).or (world.methodFor? importer token)
  queue : ∀ token, after.queue importer token =
    if (event.binds? token).isSome then []
    else world.queue importer token ++
      if world.livingFor? importer token = none then event.brings importer world token else []
  notices : after.notices =
    (world.afterTurns (event.turns importer world (world.queue importer))).notices
  slot : after.slot? =
    (world.afterTurns (event.turns importer world (world.queue importer))).slot?
  issued : world.decls.methods.next ≤ after.decls.methods.next
  released : ∀ declaration : DeclId .method, declaration.index < world.decls.methods.next →
    after.decls.methods.has declaration.index = true →
      world.decls.methods.has declaration.index = true
  tidy : (world.importer importer).Tidy → (after.importer importer).Tidy
  decls : ∀ turn ∈ event.turns importer world (world.queue importer), after.decls = world.decls
  slotFor : (∃ tokens, World.Reserves importer world tokens after) ∨
    after.slots.size = world.slots.size ∧
      ∀ token, after.slotFor? importer token = world.slotFor? importer token

theorem World.Reserves.tidy {importer : ImporterId} {world final : World} {tokens : List Token}
    (h : Reserves importer world tokens final)
    (hlive : world.importers.has importer.index = true) (htidy : (world.importer importer).Tidy) :
    (final.importer importer).Tidy := by
  induction h with
  | nil => exact htidy
  | @cons world final first tokens _ _ _ ih =>
      have hquiet : world.Quiet (world.reserve importer first) := quiet_reserve
      refine ih (hquiet.importers _ hlive) ?_
      rw [importer_reserve hlive]
      exact htidy.reserve _

namespace ImportEvent

variable {importer : ImporterId} {world after : World}

/-- What happens to declarations, and to types and fields of the patch module, has nothing to do
with the work that waits. -/
theorem effect_of_aside {event : ImportEvent} (hlive : after.importers.has importer.index = true)
    (hbinds : ∀ token, event.binds? token = none) (hbrings : ∀ token, event.brings importer world
      token = []) (hturns : ∀ waiting, event.turns importer world waiting = [])
    (hmethods : (after.importer importer).methods = (world.importer importer).methods)
    (hpending : (after.importer importer).pending = (world.importer importer).pending)
    (hdeferred : (after.importer importer).deferred = (world.importer importer).deferred)
    (hslots : after.slots = world.slots) (hnotices : after.notices = world.notices)
    (hissued : world.decls.methods.next ≤ after.decls.methods.next)
    (hreleased : ∀ declaration : DeclId .method, declaration.index < world.decls.methods.next →
      after.decls.methods.has declaration.index = true →
        world.decls.methods.has declaration.index = true) :
    event.Effect importer world after where
  live := hlive
  methodFor token := by simp [World.methodFor?, hmethods, hbinds]
  queue token := by simp [World.queue, hpending, hbinds, hbrings]
  notices := by simp [hturns, hnotices]
  slot := by
    funext slot
    simp [hturns, World.slot?, hslots]
  issued := hissued
  released := hreleased
  tidy h := by
    refine ⟨?_, ?_⟩ <;> rw [hpending]
    · exact h.distinct
    · exact h.filled
  decls := by simp [hturns]
  slotFor := .inr ⟨by rw [hslots], fun token => by rw [World.slotFor?, hdeferred, World.slotFor?]⟩

theorem declareMethod_on (owner : DeclId .type) (name : String) (signature : MethodSig)
    (policy : Policy) (world : World) :
    ∃ decls : Declarations,
      ((Task.declareMethod owner name signature policy).on world).2 = { world with decls } ∧
        world.decls.methods.next ≤ decls.methods.next ∧
        ∀ index, index < world.decls.methods.next →
          decls.methods.has index = world.decls.methods.has index := by
  have hsame : ∃ decls : Declarations, world = { world with decls } ∧
      world.decls.methods.next ≤ decls.methods.next ∧
      ∀ index, index < world.decls.methods.next →
        decls.methods.has index = world.decls.methods.has index :=
    ⟨world.decls, rfl, Nat.le_refl _, fun _ _ => rfl⟩
  rw [Task.declareMethod, Task.on_bind, Task.on_get]
  dsimp only
  cases (world.decls.type owner).methods.find? fun id => (world.decls.method id).name == name
      && (world.decls.method id).signature.same world.typeNames .overload signature with
  | some id =>
      rw [Task.declareOnce, Task.on_bind, Task.on_get]
      dsimp only
      split <;> exact hsame
  | none =>
      refine ⟨_, rfl, ?_, fun index hindex => ?_⟩
      · simp [Declarations.updateType]
      -- The new method has a number that no earlier one has.
      · have hne : index ≠ world.decls.methods.next := Nat.ne_of_lt hindex
        simp [Declarations.updateType, Table.has, hne]

/-- The importer with a method bound and no work waiting for it. -/
def bound (token : Token) (declaration : DeclId .method) (state : Importer) : Importer :=
  { state with
    methods := state.methods.insert token declaration
    pending := state.pending.erase token }

/-- When a method is bound, all the work that waits for it is done in its order. -/
theorem bindMethod_on (token : Token) (declaration : DeclId .method) (world : World) :
    ∃ log, ((importer.bindMethod token declaration).on world).2 =
      { world.afterTurns ((world.queue importer token).map (⟨token, ·, declaration⟩)) with
        importers := world.importers.update importer.index (bound token declaration), log } := by
  have hforM (works : List Continuation) :
      works.forM (Task.continueWith declaration) =
        (works.map (⟨token, ·, declaration⟩)).forM Turn.perform := by
    induction works with
    | nil => rfl
    | cons work rest ih => exact congrArg (Task.continueWith declaration work >>= fun _ => ·) ih
  have hdone (log : Array LogEntry) :
      (((world.queue importer token).forM (Task.continueWith declaration)).on
        { world with
          importers := world.importers.update importer.index (bound token declaration), log }).2 =
      { world.afterTurns ((world.queue importer token).map (⟨token, ·, declaration⟩)) with
        importers := world.importers.update importer.index (bound token declaration), log } := by
    rw [hforM]
    exact World.afterTurns_beside _ world _ log
  rw [ImporterId.bindMethod, Task.on_bind, ImporterId.state, Task.on_bind, Task.on_get]
  simp only [Task.on_pure, Task.on_bind, Task.changeImporter, Task.on_modify]
  split
  · exact ⟨_, hdone _⟩
  · exact ⟨_, hdone _⟩

theorem importer_bindMethod (token : Token) (declaration : DeclId .method)
    (hlive : world.importers.has importer.index = true) :
    ((bindMethod token declaration).after importer world).importer importer =
      bound token declaration (world.importer importer) := by
  obtain ⟨log, hon⟩ := @bindMethod_on importer token declaration world
  have hafter : (bindMethod token declaration).after importer world = _ := hon
  rw [hafter]
  exact World.importer_update_self hlive _

theorem effect_define (change : Definitions → Definitions)
    (hlive : world.importers.has importer.index = true) :
    (define change).Effect importer world ((define change).after importer world) :=
  effect_of_aside hlive (fun _ => rfl) (fun _ => rfl) (fun _ => rfl) rfl rfl rfl rfl rfl
    (Nat.le_refl _) fun _ _ h => h

theorem effect_declareMethod (owner : DeclId .type) (name : String) (signature : MethodSig)
    (policy : Policy) (hlive : world.importers.has importer.index = true) :
    (declareMethod owner name signature policy).Effect importer world
      ((declareMethod owner name signature policy).after importer world) := by
  obtain ⟨decls, hon, hissued, hkept⟩ := declareMethod_on owner name signature policy world
  have hafter : (declareMethod owner name signature policy).after importer world =
      { world with decls } := by
    rw [after, perform, Task.on_map, ← hon]
    split <;> simp [*]
  rw [hafter]
  exact effect_of_aside hlive (fun _ => rfl) (fun _ => rfl) (fun _ => rfl) rfl rfl rfl rfl rfl
    hissued
    fun declaration hindex hhas => hkept declaration.index hindex ▸ hhas

theorem effect_bindType (token : Token) (declaration : DeclId .type)
    (hlive : world.importers.has importer.index = true) :
    (bindType token declaration).Effect importer world
      ((bindType token declaration).after importer world) := by
  have hself : ((bindType token declaration).after importer world).importer importer =
      { world.importer importer with
        types := (world.importer importer).types.insert token declaration } :=
    World.importer_update_self hlive _
  exact effect_of_aside ((Table.has_update ..).trans hlive) (fun _ => rfl) (fun _ => rfl)
    (fun _ => rfl) (by rw [hself]) (by rw [hself]) (by rw [hself]) rfl rfl (Nat.le_refl _)
    fun _ _ h => h

theorem effect_bindField (token : Token) (declaration : DeclId .field)
    (hlive : world.importers.has importer.index = true) :
    (bindField token declaration).Effect importer world
      ((bindField token declaration).after importer world) := by
  have hself : ((bindField token declaration).after importer world).importer importer =
      { world.importer importer with
        fields := (world.importer importer).fields.insert token declaration } :=
    World.importer_update_self hlive _
  exact effect_of_aside ((Table.has_update ..).trans hlive) (fun _ => rfl) (fun _ => rfl)
    (fun _ => rfl) (by rw [hself]) (by rw [hself]) (by rw [hself]) rfl rfl (Nat.le_refl _)
    fun _ _ h => h

theorem effect_release (roots : List Holder) (hlive : world.importers.has importer.index = true) :
    (release roots).Effect importer world ((release roots).after importer world) := by
  refine effect_of_aside hlive (fun _ => rfl) (fun _ => rfl) (fun _ => rfl) rfl rfl rfl rfl rfl
    ?_ ?_
  · simp [after, perform, World.release, Table.next, Table.retain]
  · intro declaration _ hhas
    simp only [after, perform, World.release, Task.on_modify, Table.has, Table.get?_retain] at hhas
    split at hhas
    · exact hhas
    · cases hhas

/-- An import brings nothing for a method that stands for a declaration that exists. -/
theorem brings_imports_eq_nil {token : Token} (value : Importable)
    (hlive : world.importers.has importer.index = true)
    (hliving : world.livingFor? importer token ≠ none) :
    (imports value).brings importer world token = [] := by
  obtain ⟨tokens, hreserves⟩ := ImporterId.reserving_imports value world hlive
  by_contra hne
  simp only [brings] at hne
  -- A slot that is new is that of a method that stands for nothing, living or not.
  split at hne
  · rename_i hnone
    have hslot : ((imports value).after importer world).slotFor? importer token ≠ none := by
      rintro hslot
      rw [hslot] at hne
      exact hne rfl
    have hmethod := hreserves.methodFor?_of_new hlive hnone hslot
    rw [World.livingFor?, hmethod, Option.filter_none] at hliving
    exact hliving rfl
  · exact hne rfl

theorem effect_imports (value : Importable) (hlive : world.importers.has importer.index = true) :
    (imports value).Effect importer world ((imports value).after importer world) := by
  obtain ⟨tokens, hreserves⟩ := ImporterId.reserving_imports value world hlive
  have hquiet := hreserves.quiet
  have hdecls := hquiet.decls
  exact
    { live := hreserves.live hlive
      methodFor := fun token => hquiet.methodFor?_eq
      queue := fun token => by
        rw [if_neg (by simp [binds?])]
        refine (hreserves.queue_eq hlive).trans ?_
        by_cases hliving : world.livingFor? importer token = none
        · rw [if_pos hliving]
          rfl
        · rw [if_neg hliving]
          exact congrArg (world.queue importer token ++ ·)
            (brings_imports_eq_nil value hlive hliving)
      notices := hreserves.notices_eq
      slot := hreserves.slot?_eq
      issued := Nat.le_of_eq (congrArg (·.methods.next) hdecls.symm)
      released := fun declaration _ hhas => by
        have hhas' : ((importer.imports value).on world).2.decls.methods.has declaration.index =
          true := hhas
        rwa [hdecls] at hhas'
      tidy := hreserves.tidy hlive
      decls := fun _ _ => hdecls
      slotFor := .inl ⟨tokens, hreserves⟩ }

theorem effect_bindMethod (token : Token) (declaration : DeclId .method)
    (hlive : world.importers.has importer.index = true) :
    (bindMethod token declaration).Effect importer world
      ((bindMethod token declaration).after importer world) := by
  obtain ⟨log, hon⟩ := @bindMethod_on importer token declaration world
  have hafter : (bindMethod token declaration).after importer world = _ := hon
  have hself := importer_bindMethod token declaration hlive
  have hdecls : ((bindMethod token declaration).after importer world).decls = world.decls := by
    have hturns := congrArg World.decls (World.afterTurns_eq
      ((world.queue importer token).map (⟨token, ·, declaration⟩)) world)
    rw [hafter]
    exact hturns
  exact
    { live := by
        rw [hafter]
        exact (Table.has_update ..).trans hlive
      methodFor := fun other => by
        rw [World.methodFor?, hself]
        simp only [bound, Dictionary.get?_insert, binds?, World.methodFor?]
        split <;> rfl
      queue := fun other => by
        rw [World.queue, hself]
        simp only [bound, Dictionary.get?_erase, binds?, World.queue]
        split <;> simp [brings]
      notices := by
        rw [hafter]
        rfl
      slot := by
        rw [hafter]
        rfl
      issued := Nat.le_of_eq (congrArg (·.methods.next) hdecls.symm)
      released := fun _ _ hhas => by rwa [hdecls] at hhas
      tidy := fun htidy => by
        rw [hself]
        exact ⟨htidy.erase.distinct, htidy.erase.filled⟩
      decls := fun _ _ => hdecls
      slotFor := by
        refine .inr ⟨?_, fun other => ?_⟩
        · rw [hafter]
          exact World.size_afterTurns _ world
        · rw [World.slotFor?, hself]
          rfl }

theorem after_defer (token : Token) (label : String) :
    (defer token label).after importer world =
      (world.livingFor? importer token).elim (world.awaiting importer token label)
        fun declaration => world.continued declaration (.notify label) := by
  have hliving : (importer.livingMethod? token).on world =
      (.ok (world.livingFor? importer token), world) := rfl
  rw [after, perform, ImporterId.defer, Task.on_bind, hliving]
  dsimp only
  cases world.livingFor? importer token with
  | some declaration => exact congrArg Prod.snd (World.continueWith_on (.notify label) world)
  | none => rfl

theorem effect_defer (token : Token) (label : String)
    (hlive : world.importers.has importer.index = true) :
    (defer token label).Effect importer world ((defer token label).after importer world) := by
  rw [after_defer]
  -- For a type that is declared already the continuation runs at once, else it waits in the queue.
  cases hfound : world.livingFor? importer token with
  | some declaration =>
      have hturns (waiting : Token → List Continuation) :
          world.afterTurns ((defer token label).turns importer world waiting) =
            world.continued declaration (.notify label) := by
        rw [turns, hfound]
        rfl
      rw [Option.elim_some]
      exact
        { live := hlive
          methodFor := fun _ => rfl
          queue := fun other => by
            by_cases heq : token = other
            · subst heq
              simp [binds?, hfound, World.queue, World.continued, World.importer]
            · simp [binds?, brings, heq, World.queue, World.continued, World.importer]
          notices := by rw [hturns]
          slot := by rw [hturns]
          issued := Nat.le_refl _
          released := fun _ _ hhas => hhas
          tidy := fun htidy => htidy
          decls := fun _ _ => rfl
          slotFor := .inr ⟨rfl, fun _ => rfl⟩ }
  | none =>
      have hself : (world.awaiting importer token label).importer importer =
          { world.importer importer with
            pending := (world.importer importer).pending.insert token
              (world.queue importer token ++ [.notify label]) } :=
        World.importer_update_self hlive _
      rw [Option.elim_none]
      exact
        { live := (Table.has_update ..).trans hlive
          methodFor := fun other => by
            rw [World.methodFor?, hself]
            rfl
          queue := fun other => by
            rw [World.queue, hself]
            simp only [Dictionary.get?_insert, binds?, Option.isSome_none, Bool.false_eq_true,
              if_false, brings]
            by_cases heq : token = other
            · subst heq
              simp [hfound]
            · simp [heq, World.queue]
          notices := by
            rw [turns, hfound]
            rfl
          slot := by
            rw [turns, hfound]
            rfl
          issued := Nat.le_refl _
          released := fun _ _ hhas => hhas
          tidy := fun htidy => by
            rw [hself]
            exact htidy.enqueue _
          decls := fun _ _ => rfl
          slotFor := .inr ⟨rfl, fun other => by
            rw [World.slotFor?, hself]
            rfl⟩ }

/-- What any event does. -/
theorem effect (event : ImportEvent) (hlive : world.importers.has importer.index = true) :
    event.Effect importer world (event.after importer world) := by
  cases event with
  | define => exact effect_define _ hlive
  | declareMethod => exact effect_declareMethod _ _ _ _ hlive
  | bindType => exact effect_bindType _ _ hlive
  | bindField => exact effect_bindField _ _ hlive
  | bindMethod => exact effect_bindMethod _ _ hlive
  | defer => exact effect_defer _ _ hlive
  | imports => exact effect_imports _ hlive
  | release => exact effect_release _ hlive

theorem binds?_eq_some {event : ImportEvent} {token : Token} {declaration : DeclId .method}
    (h : event.binds? token = some declaration) : event = bindMethod token declaration := by
  cases event with
  | bindMethod other declaration' =>
      simp only [binds?] at h
      split at h
      · rename_i heq
        cases heq
        cases h
        rfl
      · cases h
  | _ => cases h

/-- What waited for a method and what came is done or waits, in this order, as long as nothing
waits for a method that stands for a declaration that exists. -/
theorem conserves (event : ImportEvent) (hlive : world.importers.has importer.index = true)
    {token : Token} (hidle : world.livingFor? importer token ≠ none →
      world.queue importer token = []) :
    world.queue importer token ++ event.brings importer world token =
      ((event.turns importer world (world.queue importer)).filter (·.token = token)).map (·.work) ++
        (event.after importer world).queue importer token := by
  rw [(event.effect hlive).queue]
  cases event with
  | bindMethod other declaration =>
      by_cases heq : other = token
      · subst heq
        simp [binds?, brings, turns, List.filter_map, Function.comp_def]
      · simp [binds?, brings, turns, heq, List.filter_map, Function.comp_def]
  | defer other label =>
      by_cases heq : other = token
      · subst heq
        cases hliving : world.livingFor? importer other with
        | none => simp [binds?, turns, hliving]
        | some declaration =>
            -- Work that waited would have come first, but none waits for a method like this.
            have hqueue := hidle (by simp [hliving])
            simp [binds?, brings, turns, hliving, hqueue]
      · cases world.livingFor? importer other <;> simp [binds?, brings, turns, *]
  | imports value =>
      by_cases hliving : world.livingFor? importer token = none
      · simp [binds?, turns, hliving]
      · simp [binds?, turns, brings_imports_eq_nil value hlive hliving]
  | define | declareMethod | bindType | bindField | release => simp [binds?, brings, turns]

/-- Work is done with the declaration to which its method is bound after the event. -/
theorem Effect.living_turn {event : ImportEvent} (h : event.Effect importer world after)
    {turn : Turn} (hturn : turn ∈ event.turns importer world (world.queue importer))
    (hadmissible : ∀ declaration token, event = bindMethod token declaration →
      world.decls.methods.has declaration.index = true) :
    after.livingFor? importer turn.token = some turn.declaration := by
  have hdecls := h.decls turn hturn
  rw [World.livingFor?, h.methodFor, hdecls]
  cases event with
  | bindMethod token declaration =>
      simp only [turns, List.mem_map] at hturn
      obtain ⟨work, -, rfl⟩ := hturn
      simp [binds?, hadmissible declaration token rfl]
  | defer token label =>
      simp only [turns, List.mem_map, Option.mem_toList] at hturn
      obtain ⟨declaration, hliving, rfl⟩ := hturn
      exact hliving
  | define | declareMethod | bindType | bindField | imports | release => cases hturn

end ImportEvent

end Graft
