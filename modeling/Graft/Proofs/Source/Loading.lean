import Graft.Proofs.Definition.Growth
import Graft.Proofs.Session.Running
import Graft.Source.Access

/-!
# What loading a module changes

Nothing for a module that is kept in memory (`load_memory`); for one in a stream, what its codec
decodes (`load_streamed`). Reading a stream changes nothing (`read?_on`), and a module that cannot
be loaded leaves the world as it was (`load_error`).
-/

namespace Graft

/-- A codec that makes new definitions and leaves those alone that exist. -/
def Codec.Lawful (codec : Codec) : Prop :=
  ∀ name bytes (defs defs' : Definitions) module, defs.Held →
    codec.decode name bytes defs = .ok (module, defs') →
    defs.Extends defs' ∧ defs'.Held ∧ defs'.has (.module module) = true

/-- A codec that makes empty modules at most leaves alone what exists. -/
theorem Codec.lawful_of_makeModule {codec : Codec}
    (h : ∀ name bytes (defs defs' : Definitions) module,
      codec.decode name bytes defs = .ok (module, defs') →
        defs.makeModule { name } = (module, defs')) : codec.Lawful := by
  intro name bytes defs defs' module hheld hdecode
  have hmakes := Definitions.makeModule_makes defs { name }
  have hextends := Definitions.makeModule_extends defs { name }
  rw [h _ _ _ _ _ hdecode] at hmakes hextends
  exact ⟨hextends, hmakes.held (Definitions.members_new_module name) hheld,
    Definitions.has_iff.mpr ⟨_, hmakes.record_made⟩⟩

/-- Whether a source only ever hands out modules that exist. -/
def Source.Sound (defs : Definitions) : Source → Prop
  | .memory modules _ => ∀ name module, modules.get? name = some module →
      defs.has (.module module) = true
  | .streamed _ codec => codec.Lawful

theorem Source.sound_memory {defs : Definitions} {modules : Dictionary String (DefId .module)}
    {saves : Dictionary String Nat}
    (h : ∀ entry ∈ modules.entries, defs.has (.module entry.2) = true) :
    (Source.memory modules saves).Sound defs :=
  fun _ _ hmodule => h _ (Dictionary.mem_of_get? hmodule)

theorem Source.Sound.grows {defs defs' : Definitions} {source : Source}
    (h : source.Sound defs) (hgrows : defs.Grows defs') : source.Sound defs' := by
  cases source with
  | memory modules saves => exact fun name module hmodule => hgrows.has (h name module hmodule)
  | streamed store codec => exact h

/-- What comes after a task that leaves the world as it is starts from this world. -/
theorem Task.on_bind_still {α β : Type} {task : Task α} {world : World}
    (hstill : (task.on world).2 = world) (next : α → Task β) :
    (task >>= next).on world =
      match (task.on world).1 with
      | .ok value => (next value).on world
      | .error error => (.error error, world) := by
  rw [on_bind]
  cases hon : task.on world with
  | mk outcome after =>
      obtain rfl : after = world := by simpa [hon] using hstill
      cases outcome <;> rfl

namespace StreamStore

theorem checkStreamName_on (leaf : LeafId) (name : String) (world : World) :
    ((Task.checkStreamName leaf name).on world).2 = world := by
  rw [Task.checkStreamName, Task.on_bind, Task.on_get]
  dsimp only
  cases (world.leaf leaf).kind with
  | memory => rfl
  | files => dsimp only; split <;> rfl

mutual

/-- Reading a stream changes nothing. -/
theorem read?_on (name : String) (store : StreamStore) (world : World) :
    ((store.read? name).on world).2 = world := by
  cases store with
  | leaf id =>
      rw [read?, Task.on_bind_still (checkStreamName_on id name world)]
      split <;> rfl
  | readOnly roots sink => rw [read?]; exact readFirst?_on name roots world
  | writable roots output => rw [read?]; exact readFirst?_on name roots world
termination_by structural store

/-- Reading the first stream there is changes nothing. -/
theorem readFirst?_on (name : String) (stores : List StreamStore) (world : World) :
    ((readFirst? name stores).on world).2 = world := by
  cases stores with
  | nil => rfl
  | cons store rest =>
      rw [readFirst?, Task.on_bind_still (read?_on name store world)]
      split
      · rename_i bytes _
        cases bytes with
        | none => exact readFirst?_on name rest world
        | some bytes => rfl
      · rfl
termination_by structural stores

end

theorem checkStreamName_congr {world world' : World} (hleaves : world'.leaves = world.leaves)
    (leaf : LeafId) (name : String) : ((Task.checkStreamName leaf name).on world').1 =
      ((Task.checkStreamName leaf name).on world).1 := by
  have hleaf : world'.leaf leaf = world.leaf leaf := by rw [World.leaf, hleaves, World.leaf]
  rw [Task.checkStreamName, Task.on_bind, Task.on_bind, Task.on_get, Task.on_get]
  dsimp only
  rw [hleaf]
  cases (world.leaf leaf).kind with
  | memory => rfl
  | files => dsimp only; split <;> rfl

mutual

/-- What is read depends on the streams alone. -/
theorem read?_congr {world world' : World} (hleaves : world'.leaves = world.leaves) (name : String)
    (store : StreamStore) :
    ((store.read? name).on world').1 = ((store.read? name).on world).1 := by
  cases store with
  | leaf id =>
      have hleaf : world'.leaf id = world.leaf id := by rw [World.leaf, hleaves, World.leaf]
      rw [read?, Task.on_bind_still (checkStreamName_on id name world'),
        Task.on_bind_still (checkStreamName_on id name world), checkStreamName_congr hleaves id name]
      split
      · simp [hleaf]
      · rfl
  | readOnly roots sink => rw [read?]; exact readFirst?_congr hleaves name roots
  | writable roots output => rw [read?]; exact readFirst?_congr hleaves name roots
termination_by structural store

theorem readFirst?_congr {world world' : World} (hleaves : world'.leaves = world.leaves)
    (name : String) (stores : List StreamStore) :
    ((readFirst? name stores).on world').1 = ((readFirst? name stores).on world).1 := by
  cases stores with
  | nil => rfl
  | cons store rest =>
      rw [readFirst?, Task.on_bind_still (read?_on name store world'),
        Task.on_bind_still (read?_on name store world), read?_congr hleaves name store]
      split
      · rename_i bytes _
        cases bytes with
        | none => exact readFirst?_congr hleaves name rest
        | some bytes => rfl
      · rfl
termination_by structural stores

end

end StreamStore

namespace Task

variable {source : SourceId} {name : String} {world world' : World} {module : DefId .module}

/-- A module kept in memory is handed out itself. -/
theorem load_memory {modules : Dictionary String (DefId .module)} {saves : Dictionary String Nat}
    (hsource : world.source source = .memory modules saves) :
    (load source name).on world =
      ((modules.get? name).elim (.error (.moduleNotFound name)) .ok, world) := by
  rw [load, on_bind, on_get]
  dsimp only
  rw [hsource]
  dsimp only
  cases modules.get? name <;> rfl

/-- A module in a stream is read, which leaves the world as it is, and then decoded. -/
theorem load_of_streamed {store : StreamStore} {codec : Codec}
    (hsource : world.source source = .streamed store codec) :
    (load source name).on world =
      match ((store.read? name).on world).1 with
      | .error error => (.error error, world)
      | .ok none => (.error (.moduleNotFound name), world)
      | .ok (some bytes) =>
          match codec.decode name bytes world.defs with
          | .error error => (.error error, world)
          | .ok (module, defs) => (.ok module, { world with defs }) := by
  rw [load, on_bind, on_get]
  dsimp only
  rw [hsource]
  dsimp only
  rw [on_bind_still (store.read?_on name world)]
  cases ((store.read? name).on world).1 with
  | error error => rfl
  | ok bytes =>
      cases bytes with
      | none => rfl
      | some bytes => cases hdecode : codec.decode name bytes world.defs <;>
          simp [on_bind, hdecode, changeDefs]

/-- A module in a stream is decoded, and its codec alone says what is new. -/
theorem load_streamed {store : StreamStore} {codec : Codec}
    (hsource : world.source source = .streamed store codec)
    (hload : (load source name).on world = (.ok module, world')) :
    ∃ bytes defs, codec.decode name bytes world.defs = .ok (module, defs) ∧
      world' = { world with defs } := by
  rw [load_of_streamed hsource] at hload
  split at hload
  · cases hload
  · cases hload
  · rename_i bytes _
    split at hload
    · cases hload
    · rename_i hdecode
      cases hload
      exact ⟨bytes, _, hdecode, rfl⟩

/-- A module that cannot be loaded leaves the world as it was. -/
theorem load_error {error : Error} (hload : (load source name).on world = (.error error, world')) :
    world' = world := by
  cases hsource : world.source source with
  | memory modules saves =>
      rw [load_memory hsource] at hload
      exact (congrArg Prod.snd hload).symm
  | streamed store codec =>
      rw [load_of_streamed hsource] at hload
      split at hload
      · exact (congrArg Prod.snd hload).symm
      · exact (congrArg Prod.snd hload).symm
      · split at hload
        · exact (congrArg Prod.snd hload).symm
        · cases hload

/-- What loading does depends on the sources, their streams and the definitions alone. -/
theorem load_congr {again : World} (hsources : again.sources = world.sources)
    (hleaves : again.leaves = world.leaves) (hdefs : again.defs = world.defs) :
    (load source name).on again = (((load source name).on world).1,
      { again with defs := ((load source name).on world).2.defs }) := by
  have hsource : again.source source = world.source source := by
    rw [World.source, hsources, World.source]
  have hsame : { again with defs := world.defs } = again := by rw [← hdefs]
  cases hkind : world.source source with
  | memory modules saves => rw [load_memory hkind, load_memory (hsource.trans hkind), hsame]
  | streamed store codec =>
      rw [load_of_streamed hkind, load_of_streamed (hsource.trans hkind),
        store.read?_congr hleaves name, hdefs]
      split
      · rw [hsame]
      · rw [hsame]
      · split
        · rw [hsame]
        · rfl

/-- What loading a module from a sound source changes. -/
theorem load_ok (hsource : (world.source source).Sound world.defs) (hheld : world.defs.Held)
    (hload : (load source name).on world = (.ok module, world')) :
    world.defs.Extends world'.defs ∧ world'.defs.Held ∧ world'.defs.has (.module module) = true ∧
      world' = { world with defs := world'.defs } := by
  cases hkind : world.source source with
  | memory modules saves =>
      rw [hkind] at hsource
      rw [load_memory hkind] at hload
      obtain ⟨hmodule, rfl⟩ := Prod.ext_iff.mp hload
      refine ⟨.refl _, hheld, ?_, rfl⟩
      apply hsource name module
      cases hget : modules.get? name with
      | none => simp [hget] at hmodule
      | some found => simpa [hget] using hmodule
  | streamed store codec =>
      rw [hkind] at hsource
      obtain ⟨bytes, defs, hdecode, rfl⟩ := load_streamed hkind hload
      obtain ⟨hextends, hheld', hhas⟩ := hsource name bytes world.defs defs module hheld hdecode
      exact ⟨hextends, hheld', hhas, rfl⟩

end Task

end Graft
