import Graft.Transplant.Body

/-!
# What running a task does

`on` runs an operation of a session in a state: the outcome, and the state that it leaves behind,
which after a failure is the state at the failure. The lemmas compute it for every way of putting
operations together.
-/

namespace Graft

/-- The outcome of an operation on the world, and the world after it. -/
def Task.on {α : Type} (task : Task α) (world : World) : Except Error α × World :=
  task.run.run world

/-- The outcome of an operation within a session, and the state after it. -/
def SessionTask.on {α : Type} (task : SessionTask α) (state : SessionState) :
    Except Error α × SessionState :=
  task.run.run state

namespace Task

variable {α β : Type}

@[simp] theorem on_pure (value : α) (world : World) :
    (pure value : Task α).on world = (.ok value, world) := rfl

@[simp] theorem on_throw (error : Error) (world : World) :
    (throw error : Task α).on world = (.error error, world) := rfl

theorem on_bind (task : Task α) (next : α → Task β) (world : World) :
    (task >>= next).on world =
      match task.on world with
      | (.ok value, world) => (next value).on world
      | (.error error, world) => (.error error, world) := by
  simp only [on, bind, ExceptT.bind, ExceptT.run, ExceptT.mk, StateT.bind, StateT.run]
  cases h : task world with
  | mk outcome world => cases outcome <;> rfl

@[simp] theorem on_map (task : Task α) (f : α → β) (world : World) :
    (f <$> task).on world =
      match task.on world with
      | (.ok value, world) => (.ok (f value), world)
      | (.error error, world) => (.error error, world) := by
  rw [← bind_pure_comp, on_bind]
  rfl

@[simp] theorem on_get (world : World) : (get : Task World).on world = (.ok world, world) := rfl

@[simp] theorem on_modify (change : World → World) (world : World) :
    (modify change : Task Unit).on world = (.ok (), change world) := rfl

@[simp] theorem on_modifyGet (change : World → α × World) (world : World) :
    (modifyGet change : Task α).on world = (.ok (change world).1, (change world).2) := rfl

@[simp] theorem on_ofExcept (outcome : Except Error α) (world : World) :
    (ofExcept outcome : Task α).on world = (outcome, world) := by
  cases outcome <;> rfl

end Task

namespace SessionTask

variable {α β : Type}

@[simp] theorem on_pure (value : α) (state : SessionState) :
    (pure value : SessionTask α).on state = (.ok value, state) := rfl

@[simp] theorem on_throw (error : Error) (state : SessionState) :
    (throw error : SessionTask α).on state = (.error error, state) := rfl

theorem on_bind (task : SessionTask α) (next : α → SessionTask β) (state : SessionState) :
    (task >>= next).on state =
      match task.on state with
      | (.ok value, state) => (next value).on state
      | (.error error, state) => (.error error, state) := by
  simp only [on, bind, ExceptT.bind, ExceptT.run, ExceptT.mk, StateT.bind, StateT.run]
  cases h : task state with
  | mk outcome state => cases outcome <;> rfl

/-- Two operations one after the other succeed when both do. -/
theorem on_bind_ok {task : SessionTask α} {next : α → SessionTask β} {value : β}
    {state final : SessionState} :
    (task >>= next).on state = (.ok value, final) ↔
      ∃ first middle, task.on state = (.ok first, middle) ∧
        (next first).on middle = (.ok value, final) := by
  rw [on_bind]
  cases hon : task.on state with
  | mk outcome middle =>
      cases outcome with
      | error => simp
      | ok first =>
          refine ⟨fun h => ⟨first, middle, rfl, h⟩, ?_⟩
          rintro ⟨_, _, heq, h⟩
          cases heq
          exact h

/-- Two operations one after the other fail when the first does or, after it, the second. -/
theorem on_bind_error {task : SessionTask α} {next : α → SessionTask β} {error : Error}
    {state final : SessionState} :
    (task >>= next).on state = (.error error, final) ↔
      task.on state = (.error error, final) ∨
        ∃ first middle, task.on state = (.ok first, middle) ∧
          (next first).on middle = (.error error, final) := by
  rw [on_bind]
  cases hon : task.on state with
  | mk outcome middle =>
      cases outcome with
      | error => simp
      | ok first =>
          refine ⟨fun h => .inr ⟨first, middle, rfl, h⟩, ?_⟩
          rintro (h | ⟨_, _, heq, h⟩)
          · cases h
          · cases heq
            exact h

@[simp] theorem on_get (state : SessionState) :
    (get : SessionTask SessionState).on state = (.ok state, state) := rfl

@[simp] theorem on_modify (change : SessionState → SessionState) (state : SessionState) :
    (modify change : SessionTask Unit).on state = (.ok (), change state) := rfl

@[simp] theorem on_ofExcept (outcome : Except Error α) (state : SessionState) :
    (ofExcept outcome : SessionTask α).on state = (outcome, state) := by
  cases outcome <;> rfl

@[simp] theorem on_world (state : SessionState) : world.on state = (.ok state.world, state) := rfl

@[simp] theorem on_changeSession (change : Session → Session) (state : SessionState) :
    (changeSession change).on state = (.ok (), { state with session := change state.session }) :=
  rfl

theorem on_attempt (task : Task α) (state : SessionState) :
    (attempt task).on state =
      (.ok (task.on state.world).1, { state with world := (task.on state.world).2 }) := rfl

/-- An operation on the world alone touches nothing that the session remembers. -/
theorem on_ofTask (task : Task α) (state : SessionState) :
    (ofTask task).on state =
      ((task.on state.world).1, { state with world := (task.on state.world).2 }) := by
  rw [ofTask, on_bind, on_attempt]
  cases (task.on state.world).1 <;> simp

@[simp] theorem on_changeDefs (change : Definitions → Definitions) (state : SessionState) :
    (changeDefs change).on state =
      (.ok (), { state with world := { state.world with defs := change state.world.defs } }) := by
  simp [changeDefs, on_ofTask, Task.changeDefs]

@[simp] theorem on_makeDef (make : Definitions → α × Definitions) (state : SessionState) :
    (makeDef make).on state =
      (.ok (make state.world.defs).1,
        { state with world := { state.world with defs := (make state.world.defs).2 } }) := by
  simp [makeDef, on_ofTask, Task.makeDef]

@[simp] theorem on_log (entry : LogEntry) (state : SessionState) :
    (log entry).on state =
      (.ok (), { state with world := { state.world with log := state.world.log.push entry } }) := by
  simp [log, on_ofTask, Task.log]

@[simp] theorem on_checkWritable (declaration : Declaration) (state : SessionState) :
    (checkWritable declaration).on state = (declaration.checkWritable state.world, state) := by
  simp [checkWritable, on_bind]

end SessionTask

end Graft
