import Graft.Naming
import Graft.Stream.Access

/-!
# Loading and saving modules

Getting modules from sources and giving them back. A module kept in memory is handed out itself,
and its saves are counted; one kept in a stream is decoded anew every time it is loaded.
-/

namespace Graft

/-- How often a source saved modules with a name. -/
def Source.saveCount (source : Source) (name : String) : Nat :=
  match source with
  | .memory _ saves => (saves.get? name).getD 0
  | .streamed .. => 0

/-- Whether a source keeps a module with a name. -/
def Source.keeps (source : Source) (name : String) : Bool :=
  match source with
  | .memory modules _ => modules.has name
  | .streamed .. => false

/-- How often a source saved any module. -/
def Source.totalSaves (source : Source) : Nat :=
  match source with
  | .memory _ saves => saves.values.foldr (· + ·) 0
  | .streamed .. => 0

namespace Task

/-- The module of a source with a name. -/
def load (source : SourceId) (name : String) : Task (DefId .module) := do
  match (← get).source source with
  | .memory modules _ =>
    match modules.get? name with
    | some module => return module
    | none => throw (.moduleNotFound name)
  | .streamed store codec =>
    match ← store.read? name with
    | none => throw (.moduleNotFound name)
    | some bytes =>
      let (module, defs) ← ofExcept (codec.decode name bytes (← get).defs)
      changeDefs fun _ => defs
      return module

/-- A new source. -/
def makeSource (source : Source) : Task SourceId :=
  modifyGet fun world =>
    (⟨world.sources.next⟩, { world with sources := world.sources.push source })

/-- Replaces a source. -/
def putSource (source : SourceId) (value : Source) : Task Unit :=
  modify fun world =>
    { world with sources := world.sources.update source.index fun _ => value }

/-- Puts a module into a source that keeps modules, under the module's name. The answer is the
module that had the name before. -/
def insertModule (source : SourceId) (module : DefId .module) : Task (Option (DefId .module)) := do
  let world ← get
  let name := (world.defs.module module).name
  match world.source source with
  | .memory modules saves =>
    putSource source (.memory (modules.insert name module) saves)
    return modules.get? name
  | .streamed .. => return none

/-- Saves a module. A stream is opened only after the whole module has been encoded. -/
def save (source : SourceId) (module : DefId .module) : Task Unit := do
  let world ← get
  let name := (world.defs.module module).name
  match world.source source with
  | .memory modules saves =>
    putSource source
      (.memory (modules.insert name module) (saves.insert name ((saves.get? name).getD 0 + 1)))
  | .streamed store codec =>
    let bytes ← ofExcept (codec.encode world.defs module)
    match ← store.write? name with
    | none => throw (.readOnly ⟨.module, name⟩)
    | some writer => (writer.append bytes).commit

end Task

end Graft
