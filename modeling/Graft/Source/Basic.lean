import Graft.Definition.Basic
import Graft.Error
import Graft.Stream.Basic

/-!
# Module sources

Where modules come from and go to: kept as they are, or decoded from and encoded into streams.
-/

namespace Graft

/-- How modules are written as bytes. Decoding makes a new module with the given name. -/
structure Codec where
  decode : String → ByteArray → Definitions → Except Error (DefId .module × Definitions)
  encode : Definitions → DefId .module → Except Error ByteArray

/-- The identity of a source. -/
structure SourceId where
  index : Nat
  deriving DecidableEq, Repr, Hashable, Inhabited

/-- Where modules come from and go to. -/
inductive Source where
  /-- Modules by name, and how often each name was saved. -/
  | memory (modules : Dictionary String (DefId .module)) (saves : Dictionary String Nat)
  /-- Modules in streams named like them. -/
  | streamed (store : StreamStore) (codec : Codec)

instance : Inhabited Source := ⟨.memory {} {}⟩

end Graft
