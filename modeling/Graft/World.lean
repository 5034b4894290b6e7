import Graft.Declaration.Basic
import Graft.Import.Importer
import Graft.LogEntry
import Graft.Signature.Compare
import Graft.Source.Basic

/-!
# The world

Everything that operations look at and change, and the monad they run in. A task may fail, and
what it changed before it failed stays changed.
-/

namespace Graft

/-- Everything there is. -/
structure World where
  defs : Definitions := {}
  decls : Declarations := {}
  importers : Table Importer := {}
  sources : Table Source := {}
  leaves : Table Leaf := {}
  /-- The methods that own generic variables and are filled in late. -/
  slots : Array (Option (DeclId .method)) := #[]
  log : Array LogEntry := #[]
  /-- The callers told about methods, with the full names of the methods. -/
  notices : Array (String × String) := #[]
  deriving Inhabited

namespace World

/-- The importer with an identity. -/
def importer (world : World) (id : ImporterId) : Importer :=
  (world.importers.get? id.index).getD default

/-- The source with an identity. -/
def source (world : World) (id : SourceId) : Source :=
  (world.sources.get? id.index).getD default

/-- The declaration of the method in a slot, if it is filled. -/
def slot? (world : World) (id : SlotId) : Option (DeclId .method) :=
  (world.slots[id.index]?).join

/-- The names of all types that exist. -/
def typeNames (world : World) : TypeNames where
  definition id :=
    if world.defs.types.has id.index then some (world.defs.typeName id) else none
  declaration id :=
    if world.decls.types.has id.index then some (world.decls.typeName id) else none

end World

/-- An operation on the world that may fail. -/
abbrev Task := ExceptT Error (StateM World)

namespace Task

/-- Changes the definitions. -/
def changeDefs (change : Definitions → Definitions) : Task Unit :=
  modify fun world => { world with defs := change world.defs }

/-- Makes something in the definitions. -/
def makeDef {α : Type} (make : Definitions → α × Definitions) : Task α :=
  modifyGet fun world =>
    let (made, defs) := make world.defs
    (made, { world with defs })

/-- What the declarations say. -/
def onDecls {α : Type} (ask : Declarations → α) : Task α := do
  return ask (← get).decls

/-- Changes the declarations. -/
def changeDecls (change : Declarations → Declarations) : Task Unit :=
  modify fun world => { world with decls := change world.decls }

/-- Makes something in the declarations. -/
def makeDecl {α : Type} (make : Declarations → α × Declarations) : Task α :=
  modifyGet fun world =>
    let (made, decls) := make world.decls
    (made, { world with decls })

/-- Writes an entry into the log. -/
def log (entry : LogEntry) : Task Unit :=
  modify fun world => { world with log := world.log.push entry }

end Task

end Graft
