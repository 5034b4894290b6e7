import Graft.Proofs.Source.Loading

/-!
# What loading a module fails with

A module that is not there, a name that cannot be that of a stream, or whatever the codec of a source
complains about (`load_fails`).
-/

namespace Graft

/-- Whether an operation fails only as expected. -/
def Task.FailsAs {α : Type} (expected : Error → Prop) (task : Task α) : Prop :=
  ∀ world error, (task.on world).1 = .error error → expected error

/-- Whether a source fails only as expected: one in streams fails with whatever its codec says. -/
def Source.FailsAs (expected : Error → Prop) : Source → Prop
  | .memory _ _ => True
  | .streamed _ codec => ∀ name bytes defs error,
      codec.decode name bytes defs = .error error → expected error

theorem Source.FailsAs.mono {expected expected' : Error → Prop} {source : Source}
    (h : source.FailsAs expected) (himp : ∀ error, expected error → expected' error) :
    source.FailsAs expected' := by
  cases source with
  | memory modules saves => trivial
  | streamed store codec =>
      exact fun name bytes defs error hdecode => himp error (h name bytes defs error hdecode)

/-- Whatever a source fails with is some error. -/
theorem Source.failsAs_true (source : Source) : source.FailsAs fun _ => True := by
  cases source with
  | memory modules saves => trivial
  | streamed store codec => exact fun _ _ _ _ _ => trivial

namespace Task

variable {α β : Type} {expected : Error → Prop}

theorem FailsAs.pure (value : α) : FailsAs expected (Pure.pure value) :=
  nofun

theorem FailsAs.throw {error : Error} (h : expected error) :
    FailsAs expected (MonadExcept.throw error : Task α) := by
  intro world failure hfailure
  cases hfailure
  exact h

theorem FailsAs.bind {task : Task α} {next : α → Task β} (htask : FailsAs expected task)
    (hnext : ∀ value, FailsAs expected (next value)) : FailsAs expected (task >>= next) := by
  intro world error herror
  rw [on_bind] at herror
  cases hon : task.on world with
  | mk outcome middle =>
      rw [hon] at herror
      cases outcome with
      | error failed =>
          cases herror
          exact htask world error (by rw [hon])
      | ok value => exact hnext value middle error herror

theorem FailsAs.get {next : World → Task α} (hnext : ∀ world, FailsAs expected (next world)) :
    FailsAs expected (MonadState.get >>= next) :=
  fun world error herror => hnext world world error herror

/-- The complaint that a name is not that of a stream. -/
def Misnamed (error : Error) : Prop :=
  ∃ name, error = .refused (.invalidStreamName name)

theorem checkStreamName_fails (leaf : LeafId) (name : String) :
    FailsAs Misnamed (checkStreamName leaf name) := by
  refine .get fun world => ?_
  split
  · exact .pure _
  · split
    · exact .pure _
    · exact .throw ⟨name, rfl⟩

end Task

namespace StreamStore

mutual

/-- Reading a stream fails at most because of its name. -/
theorem read?_fails (name : String) (store : StreamStore) :
    Task.FailsAs Task.Misnamed (store.read? name) := by
  cases store with
  | leaf id =>
      rw [read?]
      exact .bind (Task.checkStreamName_fails id name) fun _ => .get fun _ => .pure _
  | readOnly roots sink => rw [read?]; exact readFirst?_fails name roots
  | writable roots output => rw [read?]; exact readFirst?_fails name roots
termination_by structural store

theorem readFirst?_fails (name : String) (stores : List StreamStore) :
    Task.FailsAs Task.Misnamed (readFirst? name stores) := by
  cases stores with
  | nil => exact .pure _
  | cons store rest =>
      rw [readFirst?]
      refine .bind (read?_fails name store) fun bytes => ?_
      cases bytes with
      | some bytes => exact .pure _
      | none => exact readFirst?_fails name rest
termination_by structural stores

end

end StreamStore

namespace Task

variable {expected : Error → Prop} {source : SourceId} {name : String} {world : World}

/-- Loading a module fails because it is not there, because of its name, or as its source does. -/
theorem load_fails (hsource : (world.source source).FailsAs expected) {error : Error}
    (herror : ((load source name).on world).1 = .error error) :
    error = .moduleNotFound name ∨ Misnamed error ∨ expected error := by
  let fails (error : Error) : Prop :=
    error = .moduleNotFound name ∨ Misnamed error ∨ expected error
  cases hkind : world.source source with
  | memory modules saves =>
      rw [load_memory hkind] at herror
      cases hget : modules.get? name with
      | none =>
          rw [hget] at herror
          cases herror
          exact .inl rfl
      | some module =>
          rw [hget] at herror
          cases herror
  | streamed store codec =>
      rw [hkind] at hsource
      have hread : FailsAs fails (store.read? name) :=
        fun world error h => .inr (.inl (store.read?_fails name world error h))
      rw [load, on_bind, on_get] at herror
      dsimp only at herror
      rw [hkind] at herror
      refine FailsAs.bind hread (fun bytes => ?_) world error herror
      cases bytes with
      | none => exact .throw (.inl rfl)
      | some bytes =>
          -- All that is left to fail is the codec.
          refine .get fun world => .bind (fun world' error herror => ?_) fun _ _ _ h => by cases h
          rw [on_ofExcept] at herror
          exact .inr (.inr (hsource name bytes world.defs error herror))

/-- Loading a module changes nothing but the definitions. -/
theorem load_keeps : ∃ defs, ((load source name).on world).2 = { world with defs } := by
  cases hon : (load source name).on world with
  | mk outcome world' =>
      cases outcome with
      | error error => exact ⟨world.defs, load_error hon⟩
      | ok module =>
          cases hkind : world.source source with
          | memory modules saves =>
              rw [load_memory hkind] at hon
              exact ⟨world.defs, (congrArg Prod.snd hon).symm⟩
          | streamed store codec =>
              obtain ⟨bytes, defs, -, hworld⟩ := load_streamed hkind hon
              exact ⟨defs, hworld⟩

end Task

end Graft
