import Graft.Stream.FilePath
import Graft.World

/-!
# Reading and writing streams

Opening streams of a store by name. A composition reads from the first of its stores that has the
stream, and passes a write on to exactly one store or refuses it. What is written shows in the
leaf when the writer is flushed or closed, all of it at once.
-/

namespace Graft

namespace World

/-- The leaf with an identity. -/
def leaf (world : World) (id : LeafId) : Leaf :=
  (world.leaves.get? id.index).getD default

end World

namespace Task

/-- A new leaf without streams. -/
def makeLeaf (kind : LeafKind) : Task LeafId :=
  modifyGet fun world =>
    (⟨world.leaves.next⟩, { world with leaves := world.leaves.push { kind } })

/-- Sets the bytes of a stream in a leaf. -/
def putBuffer (leaf : LeafId) (name : String) (bytes : ByteArray) : Task Unit :=
  modify fun world =>
    { world with leaves := world.leaves.update leaf.index fun record =>
        { record with buffers := record.buffers.insert name bytes } }

/-- Refuses a name that cannot be the name of a stream in the leaf. -/
def checkStreamName (leaf : LeafId) (name : String) : Task Unit := do
  match ((← get).leaf leaf).kind with
  | .memory => pure ()
  | .files => unless FilePath.isFileName name do throw (.refused (.invalidStreamName name))

end Task

namespace StreamStore

mutual

/-- The bytes of a stream, if the store has it. -/
def read? (name : String) : StreamStore → Task (Option ByteArray)
  | .leaf id => do
    Task.checkStreamName id name
    return ((← get).leaf id).buffers.get? name
  | .readOnly roots _ => readFirst? name roots
  | .writable roots _ => readFirst? name roots
termination_by structural store => store

/-- The bytes of a stream in the first of several stores that has it. -/
def readFirst? (name : String) : List StreamStore → Task (Option ByteArray)
  | [] => return none
  | store :: rest => do
    match ← store.read? name with
    | some bytes => return some bytes
    | none => readFirst? name rest
termination_by structural stores => stores

end

mutual

/-- A writer for a stream, unless the store refuses it. A file is emptied when it is opened. -/
def write? (name : String) : StreamStore → Task (Option Writer)
  | .leaf id => do
    Task.checkStreamName id name
    match ((← get).leaf id).kind with
    | .memory => pure ()
    | .files => Task.putBuffer id name .empty
    return some { leaf := id, name }
  | .readOnly _ sink => sinkWrite? name sink
  | .writable _ output => output.write? name
termination_by structural store => store

/-- A writer for a stream of a store that is only read from: the sink takes it if there is one. -/
def sinkWrite? (name : String) : Option StreamStore → Task (Option Writer)
  | some sink => do
    Task.log (.writeRedirected name)
    sink.write? name
  | none => do
    Task.log (.writeRefused name)
    return none
termination_by structural sink => sink

end

end StreamStore

namespace Writer

/-- The writer after some more bytes. -/
def append (writer : Writer) (bytes : ByteArray) : Writer :=
  { writer with written := writer.written ++ bytes }

/-- Makes what was written so far the content of the stream. -/
def commit (writer : Writer) : Task Unit :=
  Task.putBuffer writer.leaf writer.name writer.written

end Writer

end Graft
