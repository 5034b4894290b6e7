import Graft.Proofs.Session.Running

/-!
# What saving a module changes

Bytes in streams and the books of a source, but neither definitions nor declarations
(`save_spares`): what a session has brought about is all there before anything is saved.
-/

namespace Graft

/-- Whether two worlds have the same definitions and the same declarations. -/
structure World.SameGraph (world world' : World) : Prop where
  defs : world'.defs = world.defs
  decls : world'.decls = world.decls

theorem World.SameGraph.trans {world world' world'' : World} (h : world.SameGraph world')
    (h' : world'.SameGraph world'') : world.SameGraph world'' :=
  ⟨h'.defs.trans h.defs, h'.decls.trans h.decls⟩

namespace Task

variable {α β : Type}

/-- Whether an operation leaves definitions and declarations alone, whatever becomes of it. -/
def Spares (task : Task α) : Prop :=
  ∀ world : World, world.SameGraph (task.on world).2

namespace Spares

variable {task : Task α}

theorem pure {value : α} : Spares (Pure.pure value) :=
  fun _ => ⟨rfl, rfl⟩

theorem throw {error : Error} : Spares (MonadExcept.throw error : Task α) :=
  fun _ => ⟨rfl, rfl⟩

theorem bind {next : α → Task β} (htask : Spares task) (hnext : ∀ value, Spares (next value)) :
    Spares (task >>= next) := by
  intro world
  have h := htask world
  rw [on_bind]
  cases hon : task.on world with
  | mk outcome middle =>
      rw [hon] at h
      cases outcome with
      | error error => exact h
      | ok value => exact h.trans (hnext value middle)

theorem get {next : World → Task β} (hnext : ∀ world, Spares (next world)) :
    Spares (MonadState.get >>= next) :=
  fun world => hnext world world

theorem ofExcept {outcome : Except Error α} : Spares (MonadExcept.ofExcept outcome) := by
  cases outcome with
  | error error => exact throw
  | ok value => exact pure

theorem modify {change : World → World} (h : ∀ world : World, world.SameGraph (change world)) :
    Spares (modify change) :=
  h

end Spares

theorem putBuffer_spares (leaf : LeafId) (name : String) (bytes : ByteArray) :
    Spares (putBuffer leaf name bytes) :=
  .modify fun _ => ⟨rfl, rfl⟩

theorem putSource_spares (source : SourceId) (value : Source) : Spares (putSource source value) :=
  .modify fun _ => ⟨rfl, rfl⟩

theorem checkStreamName_spares (leaf : LeafId) (name : String) :
    Spares (checkStreamName leaf name) := by
  refine .get fun world => ?_
  split
  · exact .pure
  · split
    · exact .pure
    · exact .throw

mutual

/-- Opening a stream for writing at most empties it. -/
theorem write?_spares (name : String) (store : StreamStore) : Spares (store.write? name) := by
  cases store with
  | leaf id =>
      rw [StreamStore.write?]
      refine .bind (checkStreamName_spares id name) fun _ => .get fun world => ?_
      split
      · exact .pure
      · exact .bind (putBuffer_spares id name .empty) fun _ => .pure
  | readOnly roots sink =>
      rw [StreamStore.write?]
      exact sinkWrite?_spares name sink
  | writable roots output =>
      rw [StreamStore.write?]
      exact write?_spares name output
termination_by structural store

theorem sinkWrite?_spares (name : String) (sink : Option StreamStore) :
    Spares (StreamStore.sinkWrite? name sink) := by
  have hlog (entry : LogEntry) : Spares (log entry) := .modify fun _ => ⟨rfl, rfl⟩
  cases sink with
  | none =>
      rw [StreamStore.sinkWrite?]
      exact .bind (hlog _) fun _ => .pure
  | some store =>
      rw [StreamStore.sinkWrite?]
      exact .bind (hlog _) fun _ => write?_spares name store
termination_by structural sink

end

/-- Saving a module changes no definition and no declaration, whether it succeeds or not. -/
theorem save_spares (source : SourceId) (module : DefId .module) : Spares (save source module) := by
  refine .get fun world => ?_
  dsimp only
  split
  · exact putSource_spares source _
  · refine .bind .ofExcept fun bytes => .bind (write?_spares _ _) fun writer => ?_
    split
    · exact .throw
    · exact putBuffer_spares _ _ _

end Task

end Graft
