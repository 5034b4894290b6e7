import Graft.Proofs.Session.Running
import Graft.Source.TypeList
import Mathlib

/-!
# Composed stores

However stores are composed, and whichever leaves they share, a composition reads from a list of
leaves (`readLeaves`) and writes to one leaf at most (`writeLeaf?`). Where these keep their streams
in memory, a stream is read from the first leaf of the list that has it (`read?_inMemory`), and a
module is saved all at once or not at all (`save_saves`): an encoder that gives up has written into
a buffer of its own, and a writer that is closed after it was flushed stores what is there already.
-/

namespace Graft

/-! ## Which leaves count -/

namespace StreamStore

mutual

/-- The leaves that a store reads from, in the order in which it asks them. -/
def readLeaves : StreamStore → List LeafId
  | .leaf id => [id]
  | .readOnly roots _ => readLeavesOf roots
  | .writable roots _ => readLeavesOf roots
termination_by structural store => store

/-- The leaves that several stores read from, one store after the other. -/
def readLeavesOf : List StreamStore → List LeafId
  | [] => []
  | store :: rest => store.readLeaves ++ readLeavesOf rest
termination_by structural stores => stores

end

mutual

/-- The leaf that a store writes to, unless it refuses. -/
def writeLeaf? : StreamStore → Option LeafId
  | .leaf id => some id
  | .readOnly _ sink => sinkLeaf? sink
  | .writable _ output => output.writeLeaf?
termination_by structural store => store

/-- The leaf that a sink writes to, if there is a sink. -/
def sinkLeaf? : Option StreamStore → Option LeafId
  | some sink => sink.writeLeaf?
  | none => none
termination_by structural sink => sink

end

/-- Whether the leaves that a store reads from and writes to exist and are in memory. -/
def InMemory (store : StreamStore) (world : World) : Prop :=
  ∀ id ∈ store.readLeaves ++ store.writeLeaf?.toList,
    world.leaves.has id.index = true ∧ (world.leaf id).kind = .memory

instance {store : StreamStore} {world : World} : Decidable (store.InMemory world) :=
  inferInstanceAs (Decidable (∀ _ ∈ _, _))

end StreamStore

/-! ## Reading -/

namespace Task

variable {world : World} {id : LeafId}

/-- A leaf in memory takes any name. -/
theorem checkStreamName_memory (hkind : (world.leaf id).kind = .memory) (name : String) :
    (checkStreamName id name).on world = (.ok (), world) := by
  rw [checkStreamName, on_bind, on_get]
  simp only [hkind]
  rfl

end Task

namespace StreamStore

mutual

/-- A stream is read from the first leaf that has it. -/
theorem read?_inMemory {world : World} (name : String) (store : StreamStore)
    (h : ∀ id ∈ store.readLeaves, (world.leaf id).kind = .memory) :
    (store.read? name).on world =
      (.ok (store.readLeaves.findSome? fun id => (world.leaf id).buffers.get? name), world) := by
  cases store with
  | leaf id =>
      have hkind := h id (by simp [readLeaves])
      rw [read?, Task.on_bind, Task.checkStreamName_memory hkind]
      simp [readLeaves]
  | readOnly roots sink =>
      simp only [read?, readLeaves] at h ⊢
      exact readFirst?_inMemory name roots h
  | writable roots output =>
      simp only [read?, readLeaves] at h ⊢
      exact readFirst?_inMemory name roots h
termination_by structural store

/-- The leaves of the first store come before those of the next. -/
theorem readFirst?_inMemory {world : World} (name : String) (stores : List StreamStore)
    (h : ∀ id ∈ readLeavesOf stores, (world.leaf id).kind = .memory) :
    (readFirst? name stores).on world =
      (.ok ((readLeavesOf stores).findSome? fun id => (world.leaf id).buffers.get? name),
        world) := by
  cases stores with
  | nil => rfl
  | cons store rest =>
      simp only [readLeavesOf, List.mem_append] at h
      have hstore := read?_inMemory name store fun id hmem => h id (.inl hmem)
      have hrest := readFirst?_inMemory name rest fun id hmem => h id (.inr hmem)
      rw [readFirst?, Task.on_bind, hstore, readLeavesOf, List.findSome?_append]
      cases store.readLeaves.findSome? fun id => (world.leaf id).buffers.get? name with
      | none => exact hrest
      | some bytes => rfl
termination_by structural stores

end

/-! ## Writing -/

mutual

/-- Opening a stream for writing gives a writer for one leaf, and changes nothing but the log. -/
theorem write?_inMemory (world : World) (name : String) (store : StreamStore)
    (h : ∀ id ∈ store.writeLeaf?, (world.leaf id).kind = .memory) :
    ∃ log, (store.write? name).on world =
      (.ok (store.writeLeaf?.map fun id => { leaf := id, name }), { world with log }) := by
  cases store with
  | leaf id =>
      have hkind := h id (by simp [writeLeaf?])
      refine ⟨world.log, ?_⟩
      rw [write?, Task.on_bind, Task.checkStreamName_memory hkind]
      simp [writeLeaf?, Task.on_bind, hkind]
  | readOnly roots sink =>
      simp only [write?, writeLeaf?] at h ⊢
      exact sinkWrite?_inMemory world name sink h
  | writable roots output =>
      simp only [write?, writeLeaf?] at h ⊢
      exact write?_inMemory world name output h
termination_by structural store

theorem sinkWrite?_inMemory (world : World) (name : String) (sink : Option StreamStore)
    (h : ∀ id ∈ sinkLeaf? sink, (world.leaf id).kind = .memory) :
    ∃ log, (sinkWrite? name sink).on world =
      (.ok ((sinkLeaf? sink).map fun id => { leaf := id, name }), { world with log }) := by
  cases sink with
  | none => exact ⟨world.log.push (.writeRefused name), rfl⟩
  | some sink =>
      simp only [sinkLeaf?] at h ⊢
      obtain ⟨log, hon⟩ :=
        write?_inMemory { world with log := world.log.push (.writeRedirected name) } name sink h
      refine ⟨log, ?_⟩
      rw [sinkWrite?, Task.on_bind]
      exact hon
termination_by structural sink

end

end StreamStore

/-! ## Saving -/

/-- A way to write a module, piece by piece. What was written before it gave up stays written. -/
abbrev Encoder := Definitions → DefId .module → ExceptT Error (StateM ByteArray) Unit

/-- What an encoder comes to, and all that it has written. -/
def Encoder.on (encoder : Encoder) (defs : Definitions) (module : DefId .module) :
    Except Error Unit × ByteArray :=
  (encoder defs module).run.run .empty

/-- The codec whose encoder writes into a new buffer. What is in the buffer counts only when the
encoder is done. -/
def Codec.buffered
    (decode : String → ByteArray → Definitions → Except Error (DefId .module × Definitions))
    (encoder : Encoder) : Codec where
  decode
  encode defs module := (encoder.on defs module).1.map fun _ => (encoder.on defs module).2

/-- Whether a world differs from another one in one entry of one leaf at most, and in the log. The
entry is there and has the given bytes. -/
structure World.Stores (world : World) (id : LeafId) (name : String) (bytes : ByteArray)
    (next : World) : Prop where
  rest : next = { world with leaves := next.leaves, log := next.log }
  leaves : ∀ other, next.leaves.has other = world.leaves.has other
  kinds : ∀ other, (next.leaf other).kind = (world.leaf other).kind
  entries : ∀ other key, (next.leaf other).buffers.get? key =
    if other = id ∧ key = name then some bytes else (world.leaf other).buffers.get? key

/-- What becomes of saving a module under a name, given what its encoder has written. Unless it
succeeds no leaf changes. -/
inductive World.Saves (world : World) (store : StreamStore) (name : String) :
    Except Error Unit × ByteArray → Except Error Unit × World → Prop
  /-- The encoder gave up. -/
  | unwritten {error : Error} {bytes : ByteArray} :
      world.Saves store name (.error error, bytes) (.error error, world)
  /-- The store refuses. -/
  | refused {bytes : ByteArray} {log : Array LogEntry} (hleaf : store.writeLeaf? = none) :
      world.Saves store name (.ok (), bytes)
        (.error (.readOnly ⟨.module, name⟩), { world with log })
  /-- The bytes are stored, and storing them again when the writer is closed changes nothing. -/
  | stored {bytes : ByteArray} {id : LeafId} {next : World} (hleaf : store.writeLeaf? = some id)
      (hstores : world.Stores id name bytes next)
      (hclosed : (Writer.commit { leaf := id, name, written := bytes }).on next = (.ok (), next)) :
      world.Saves store name (.ok (), bytes) (.ok (), next)

section Saving

variable {world : World} {store : StreamStore} {id : LeafId} {name : String} {bytes : ByteArray}

/-- The world with a stream of a leaf replaced. -/
def World.putBuffer (world : World) (id : LeafId) (name : String) (bytes : ByteArray) : World :=
  { world with leaves := world.leaves.update id.index fun record =>
      { record with buffers := record.buffers.insert name bytes } }

theorem World.leaf_putBuffer (hleaf : world.leaves.has id.index = true) (other : LeafId) :
    (world.putBuffer id name bytes).leaf other =
      if other = id then
        { world.leaf id with buffers := (world.leaf id).buffers.insert name bytes }
      else world.leaf other := by
  obtain ⟨record, hrecord⟩ := Option.isSome_iff_exists.mp hleaf
  simp only [World.leaf, World.putBuffer, Table.get?_update]
  by_cases heq : other = id
  · subst heq
    simp [hrecord]
  · have hindex : id.index ≠ other.index := fun h => heq (congrArg LeafId.mk h.symm)
    simp [heq, hindex]

/-- Putting the bytes of a stream into a leaf that exists changes the entry of the stream. -/
theorem World.stores_putBuffer (hleaf : world.leaves.has id.index = true) :
    world.Stores id name bytes (world.putBuffer id name bytes) where
  rest := rfl
  leaves other := by
    simp only [World.putBuffer, Table.has, Table.get?_update]
    split <;> simp
  kinds other := by
    rw [World.leaf_putBuffer hleaf]
    split
    · next heq => rw [heq]
    · rfl
  entries other key := by
    rw [World.leaf_putBuffer hleaf]
    by_cases heq : other = id
    · subst heq
      simp [eq_comm]
    · simp [heq]

theorem World.Stores.unlogged {next : World} {log : Array LogEntry}
    (h : World.Stores { world with log } id name bytes next) : world.Stores id name bytes next where
  rest := h.rest
  leaves := h.leaves
  kinds := h.kinds
  entries := h.entries

/-- Storing the same bytes again changes nothing. -/
theorem World.putBuffer_putBuffer :
    (world.putBuffer id name bytes).putBuffer id name bytes = world.putBuffer id name bytes := by
  simp only [World.putBuffer, Table.update_update, Function.comp_def, Dictionary.insert_insert]

/-- Saving a module either leaves every leaf as it is or stores all that the encoder has written, in
the one leaf that the store writes to. -/
theorem Task.save_saves {source : SourceId} {module : DefId .module} {decode} {encoder : Encoder}
    (hsource : world.source source = .streamed store (.buffered decode encoder))
    (hleaf : ∀ id ∈ store.writeLeaf?,
      world.leaves.has id.index = true ∧ (world.leaf id).kind = .memory) :
    world.Saves store (world.defs.module module).name (encoder.on world.defs module)
      ((save source module).on world) := by
  generalize hwritten : encoder.on world.defs module = written
  obtain ⟨outcome, bytes⟩ := written
  simp only [save, on_bind, on_get, hsource, Codec.buffered, hwritten, on_ofExcept]
  cases outcome with
  | error error => exact .unwritten
  | ok done =>
      obtain ⟨log, hopen⟩ := store.write?_inMemory world (world.defs.module module).name
        fun id hmem => (hleaf id hmem).2
      simp only [Except.map, hopen]
      cases hwrite : store.writeLeaf? with
      | none => exact .refused hwrite
      | some id =>
          obtain ⟨hhas, -⟩ := hleaf id hwrite
          have hempty : ByteArray.empty ++ bytes = bytes := by simp
          simp only [Option.map_some, Writer.append, hempty]
          have hstores : World.Stores { world with log } id (world.defs.module module).name bytes
              (World.putBuffer { world with log } id (world.defs.module module).name bytes) :=
            World.stores_putBuffer hhas
          exact .stored hwrite hstores.unlogged
            (congrArg (Except.ok (), ·) World.putBuffer_putBuffer)

end Saving

/-! ## Modules as lists of types -/

namespace TypeList

/-- Writes the lines of types, one after the other, up to the first that has none. -/
def writeTypes (defs : Definitions) : List (DefId .type) → ExceptT Error (StateM ByteArray) Unit
  | [] => pure ()
  | id :: rest => do
    let line ← ofExcept (renderType (defs.type id))
    modify (· ++ line.toUTF8)
    writeTypes defs rest

/-- Writes the lines of a module's top-level types. -/
def encoder : Encoder := fun defs module => writeTypes defs (defs.module module).types

/-- All lines are written if there are all, and else those before the first that is missing. -/
theorem writeTypes_on (defs : Definitions) (types : List (DefId .type)) (buffer : ByteArray) :
    match types.mapM fun id => renderType (defs.type id) with
    | .ok lines =>
      (writeTypes defs types).run.run buffer = (.ok (), buffer ++ (String.join lines).toUTF8)
    | .error error => ((writeTypes defs types).run.run buffer).1 = .error error := by
  induction types generalizing buffer with
  | nil =>
      have hempty : buffer ++ (String.join []).toUTF8 = buffer := by simp
      exact congrArg (Except.ok (), ·) hempty.symm
  | cons id rest ih =>
      rw [List.mapM_cons]
      cases hline : renderType (defs.type id) with
      | error error =>
          simp only [writeTypes, hline]
          rfl
      | ok line =>
          have hstep : (writeTypes defs (id :: rest)).run.run buffer =
              (writeTypes defs rest).run.run (buffer ++ line.toUTF8) := by
            simp only [writeTypes, hline]
            rfl
          have hrest := ih (buffer ++ line.toUTF8)
          rw [hstep]
          cases hlines : rest.mapM fun id => renderType (defs.type id) with
          | error error =>
              rw [hlines] at hrest
              exact hrest
          | ok lines =>
              rw [hlines] at hrest
              have hjoin : (String.join (line :: lines)).toUTF8 =
                  line.toUTF8 ++ (String.join lines).toUTF8 := by
                rw [String.join_cons]
                exact String.toByteArray_append
              refine hrest.trans ?_
              simp only [hjoin, ByteArray.append_assoc]

/-- Modules as lists of types are written line by line. -/
theorem codec_eq_buffered : codec = .buffered decode encoder := by
  refine congrArg (Codec.mk decode) (funext fun defs => funext fun module => ?_)
  have hwritten := writeTypes_on defs (defs.module module).types .empty
  simp only [encode, Encoder.on, encoder]
  cases hlines : (defs.module module).types.mapM fun id => renderType (defs.type id) with
  | error error =>
      rw [hlines] at hwritten
      rw [hwritten]
      rfl
  | ok lines =>
      rw [hlines] at hwritten
      rw [hwritten]
      simp [bind, Except.bind, Except.map, pure, Except.pure]

end TypeList

/-! ## What a composition does -/

/-- In every composition of stores in memory a stream is read from the first leaf that has it, in
the order in which the leaves are read, and a module is saved all at once or not at all, whatever
its encoder has written before it gave up. -/
theorem StreamStore.InMemory.reads_first_saves_whole {world : World} {store : StreamStore}
    (h : store.InMemory world) :
    (∀ name, (store.read? name).on world =
      (.ok (store.readLeaves.findSome? fun id => (world.leaf id).buffers.get? name), world)) ∧
    ∀ source decode encoder module,
      world.source source = .streamed store (.buffered decode encoder) →
      world.Saves store (world.defs.module module).name (encoder.on world.defs module)
        ((Task.save source module).on world) := by
  refine ⟨fun name => store.read?_inMemory name fun id hmem => ?_,
    fun source decode encoder module hsource => Task.save_saves hsource fun id hmem => ?_⟩
  · exact (h id (List.mem_append_left _ hmem)).2
  · exact h id (List.mem_append_right _ (Option.mem_toList.mpr hmem))

/-- A store that reads from two leaves, one of them twice, and writes into the sink of a store that
is only read from, which is a third leaf. -/
def StreamStore.shelves : StreamStore :=
  .writable [.readOnly [.leaf ⟨0⟩, .leaf ⟨1⟩] none, .leaf ⟨1⟩]
    (.readOnly [.leaf ⟨0⟩] (some (.leaf ⟨2⟩)))

/-- Three leaves of which the second one has a stream, and two modules: one that can be written, and
one of which the first type can be written and the second one cannot. -/
def World.shelves : World :=
  let (plain, defs) := ({} : Definitions).makeModule { name := "Plain" }
  let (_, defs) := defs.addType plain { namespaceName := "N", name := "C", flags := 1 }
  let (broken, defs) := defs.makeModule { name := "Broken" }
  let (_, defs) := defs.addType broken { namespaceName := "N", name := "C", flags := 1 }
  let (_, defs) := defs.addType broken { namespaceName := "N", name := "D\nE", flags := 1 }
  let kept : Dictionary String ByteArray := ⟨[("Plain", "old".toUTF8)]⟩
  let leaves := [{ kind := .memory }, { kind := .memory, buffers := kept }, { kind := .memory }]
  { defs
    leaves := leaves.foldl .push {}
    sources := ({} : Table Source).push (.streamed .shelves TypeList.codec) }

theorem reads_first_saves_whole_shelves :
    ∃ next, StreamStore.shelves.InMemory .shelves ∧
      World.shelves.source ⟨0⟩ = .streamed .shelves (.buffered TypeList.decode TypeList.encoder) ∧
      (StreamStore.shelves.read? "Plain").on .shelves = (.ok (some "old".toUTF8), .shelves) ∧
      (Task.save ⟨0⟩ ⟨0⟩).on .shelves = (.ok (), next) ∧
      World.shelves.Stores ⟨2⟩ "Plain" "N C\n".toUTF8 next ∧
      TypeList.encoder.on World.shelves.defs ⟨1⟩ =
        (.error (.refused (.custom "cannot encode")), "N C\n".toUTF8) ∧
      (Task.save ⟨0⟩ ⟨1⟩).on .shelves =
        (.error (.refused (.custom "cannot encode")), .shelves) := by
  have hmemory : StreamStore.shelves.InMemory .shelves := by decide +kernel
  have hsource : World.shelves.source ⟨0⟩ =
      .streamed .shelves (.buffered TypeList.decode TypeList.encoder) := by
    rw [← TypeList.codec_eq_buffered]
    rfl
  obtain ⟨hreads, hsaves⟩ := hmemory.reads_first_saves_whole
  have hplain := hsaves ⟨0⟩ _ _ ⟨0⟩ hsource
  have hbroken := hsaves ⟨0⟩ _ _ ⟨1⟩ hsource
  have hwritten : TypeList.encoder.on World.shelves.defs ⟨0⟩ = (.ok (), "N C\n".toUTF8) := by
    cbv
  have hpartly : TypeList.encoder.on World.shelves.defs ⟨1⟩ =
      (.error (.refused (.custom "cannot encode")), "N C\n".toUTF8) := by
    cbv
  rw [hwritten] at hplain
  rw [hpartly] at hbroken
  generalize hon : (Task.save ⟨0⟩ ⟨0⟩).on .shelves = saved at hplain
  generalize hon' : (Task.save ⟨0⟩ ⟨1⟩).on .shelves = saved' at hbroken
  cases hbroken with
  | unwritten =>
      cases hplain with
      | refused hleaf => cases hleaf
      | @stored _ id next hleaf hstores hclosed =>
          cases hleaf
          exact ⟨next, hmemory, hsource, hreads "Plain", rfl, hstores, hpartly, rfl⟩

end Graft
