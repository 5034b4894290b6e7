import Graft.Dictionary
import Graft.Signature.Basic
import Graft.Token

/-!
# Importers

What is known while a patch module is turned into declarations: which of its definitions stand for
which declarations, and what waits for methods that stand for none yet.
-/

namespace Graft

/-- Work that waits until a method stands for a declaration. -/
inductive Continuation where
  /-- The method becomes the owner in a slot. -/
  | own (slot : SlotId)
  /-- A caller is told under a label of its own. -/
  | notify (label : String)
  deriving DecidableEq, Repr, Inhabited

/-- The state of an import. Definitions are known by their tokens in the patch module. -/
structure Importer where
  /-- The patch module. -/
  scope : DefId .module
  types : Dictionary Token (DeclId .type) := {}
  fields : Dictionary Token (DeclId .field) := {}
  methods : Dictionary Token (DeclId .method) := {}
  /-- The work that waits, for each method in the order in which it came. -/
  pending : Dictionary Token (List Continuation) := {}
  /-- The slots for owners of generic variables, one for each method. -/
  deferred : Dictionary Token SlotId := {}
  deriving Inhabited

/-- The number of methods for which work waits. -/
def Importer.pendingCount (importer : Importer) : Nat :=
  importer.pending.size

end Graft
