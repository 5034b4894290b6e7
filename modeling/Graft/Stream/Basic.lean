import Graft.Dictionary

/-!
# Stream stores

Where named byte streams are kept, and how stores are composed. Bytes live in leaves only. A
composition reads from several stores in order; it writes to one of them, or into a sink, or not
at all. Compositions may share leaves.
-/

namespace Graft

/-- The identity of a leaf. -/
structure LeafId where
  index : Nat
  deriving DecidableEq, Repr, Hashable, Inhabited

/-- How a leaf keeps its streams. -/
inductive LeafKind where
  /-- In memory, under any name. -/
  | memory
  /-- One file for each stream, whose name has to be a file name. -/
  | files
  deriving DecidableEq, Repr, Inhabited

/-- A leaf: the streams kept in one place. -/
structure Leaf where
  kind : LeafKind
  buffers : Dictionary String ByteArray := {}
  deriving Inhabited

/-- A composition of stream stores. -/
inductive StreamStore where
  | leaf (id : LeafId)
  /-- Reads from the first store that has a stream; writes go into the sink if there is one. -/
  | readOnly (roots : List StreamStore) (sink : Option StreamStore)
  /-- Reads from the first store that has a stream, and writes to another store. -/
  | writable (roots : List StreamStore) (output : StreamStore)
  deriving Inhabited

/-- A stream being written: what was written so far, and where it goes. -/
structure Writer where
  leaf : LeafId
  name : String
  written : ByteArray := .empty
  deriving Inhabited

end Graft
