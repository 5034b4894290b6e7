import Graft.Definition.Basic
import Graft.Forest

/-!
# Members of definitions

Finding the members of modules and types, listing all types of a module, and the accessors of
properties and events.
-/

namespace Graft.Accessors

/-- Whether a method already plays a part. -/
def plays (accessors : Accessors) (role : AccessorRole) (method : DefId .method) : Bool :=
  accessors.contains (role, method)

/-- The accessors with one more, unless the method plays that part already. -/
def link (accessors : Accessors) (role : AccessorRole) (method : DefId .method) : Accessors :=
  if accessors.plays role method then accessors else accessors ++ [(role, method)]

/-- The accessors that still exist. -/
def living (accessors : Accessors) (defs : Definitions) : Accessors :=
  accessors.filter fun entry => defs.methods.has entry.2.index

/-- The methods that play a part. -/
def playing (accessors : Accessors) (defs : Definitions) (role : AccessorRole) :
    List (DefId .method) :=
  ((accessors.living defs).filter (·.1 == role)).map (·.2)

end Graft.Accessors

namespace Graft.Definitions

/-- The first top-level type of a module with a namespace and a name. -/
def findType? (defs : Definitions) (module : DefId .module) (namespaceName name : String) :
    Option (DefId .type) :=
  (defs.module module).types.find? fun id =>
    (defs.type id).namespaceName == namespaceName && (defs.type id).name == name

/-- What a module or a type holds of one kind: types at top level or nested, and members. -/
def members (defs : Definitions) : Definition → SymbolKind → List Definition
  | .module id, .type => (defs.module id).types.map .type
  | .type id, .type => (defs.type id).nested.map .type
  | .type id, .field => (defs.type id).fields.map .field
  | .type id, .method => (defs.type id).methods.map .method
  | .type id, .property => (defs.type id).properties.map .property
  | .type id, .event => (defs.type id).events.map .event
  | _, _ => []

/-- The name of a definition, without those of its namespace and its declaring type. -/
def simpleName (defs : Definitions) : Definition → String
  | .module id => (defs.module id).name
  | .type id => (defs.type id).name
  | .field id => (defs.field id).name
  | .method id => (defs.method id).name
  | .property id => (defs.property id).name
  | .event id => (defs.event id).name

/-- The type that a definition is declared in, if it still exists. -/
def declaringType? (defs : Definitions) : Definition → Option (DefId .type)
  | .module _ => none
  | .type id => defs.outer? id
  | .field id => defs.living? (defs.field id).owner
  | .method id => defs.living? (defs.method id).owner
  | .property id => defs.living? (defs.property id).owner
  | .event id => defs.living? (defs.event id).owner

/-- The definitions with the flags of one replaced. A module has none. -/
def setFlags (defs : Definitions) (definition : Definition) (flags : UInt32) : Definitions :=
  match definition with
  | .module _ => defs
  | .type id => defs.updateType id fun record => { record with flags }
  | .field id => defs.updateField id fun record => { record with flags }
  | .method id => defs.updateMethod id fun record => { record with flags }
  | .property id => defs.updateProperty id fun record => { record with flags }
  | .event id => defs.updateEvent id fun record => { record with flags }

/-- The accessors of a property or an event, the only definitions that have any. -/
def accessors (defs : Definitions) : Definition → Accessors
  | .property id => (defs.property id).accessors
  | .event id => (defs.event id).accessors
  | _ => []

/-- The definitions with one more accessor of a property or an event, unless the method plays that
part already. -/
def link (defs : Definitions) (definition : Definition) (role : AccessorRole)
    (method : DefId .method) : Definitions :=
  match definition with
  | .property id => defs.updateProperty id fun record =>
    { record with accessors := record.accessors.link role method }
  | .event id => defs.updateEvent id fun record =>
    { record with accessors := record.accessors.link role method }
  | _ => defs

/-- All types of a module, each before the types nested in it. No more types are below a
top-level one than there are types at all. -/
def allTypes (defs : Definitions) (module : DefId .module) : List (DefId .type) :=
  let roots := (defs.module module).types
  Forest.visit (fun id => (defs.type id).nested) (roots.length * defs.types.next) roots

end Graft.Definitions
