import Graft.Code.Body
import Graft.Dictionary
import Graft.Table
import Graft.Token

/-!
# Definitions

What loaded modules consist of. A module holds types, a type holds its members and nested types,
and each of them knows by identity what declares it. Tokens and links to the declaring scope are
given once; the first one stays.
-/

namespace Graft

/-- A module: its top-level types, and the symbols that its tokens name. -/
structure ModuleDef where
  name : String
  types : List (DefId .type) := []
  rows : RowCounts := {}
  tokens : Dictionary Token Definition := {}
  deriving Inhabited

/-- A type. -/
structure TypeDef where
  namespaceName : String := ""
  name : String
  flags : UInt32
  base : Option TypeRef := none
  interfaces : List TypeRef := []
  generics : List GenericParam := []
  token : Option Token := none
  module : Option (DefId .module) := none
  /-- The type that this one is nested in. -/
  owner : Option (DefId .type) := none
  nested : List (DefId .type) := []
  fields : List (DefId .field) := []
  methods : List (DefId .method) := []
  properties : List (DefId .property) := []
  events : List (DefId .event) := []
  deriving Inhabited

/-- A field. -/
structure FieldDef where
  name : String
  flags : UInt32
  signature : TypeSig
  token : Option Token := none
  owner : Option (DefId .type) := none
  deriving Inhabited

/-- A method. -/
structure MethodDef where
  name : String
  flags : UInt32
  signature : MethodSig
  overrides : List Override := []
  body : Option Body := none
  token : Option Token := none
  owner : Option (DefId .type) := none
  deriving Inhabited

/-- Methods with the parts they play. A method that is gone plays no part. -/
abbrev Accessors := List (AccessorRole × DefId .method)

/-- A property. -/
structure PropertyDef where
  name : String
  flags : UInt32
  signature : PropertySig
  accessors : Accessors := []
  token : Option Token := none
  owner : Option (DefId .type) := none
  deriving Inhabited

/-- An event. -/
structure EventDef where
  name : String
  flags : UInt32
  type : TypeRef
  accessors : Accessors := []
  token : Option Token := none
  owner : Option (DefId .type) := none
  deriving Inhabited

/-- Whether a method belongs to its type and not to an instance. -/
def MethodDef.isStatic (method : MethodDef) : Bool :=
  method.flags &&& 0x10 = 0x10

/-- Everything that is defined. -/
structure Definitions where
  modules : Table ModuleDef := {}
  types : Table TypeDef := {}
  fields : Table FieldDef := {}
  methods : Table MethodDef := {}
  properties : Table PropertyDef := {}
  events : Table EventDef := {}
  deriving Inhabited

namespace Definitions

/-! ## Looking up

A definition that is gone reads as a nameless one without members. -/

/-- The module with an identity. -/
def module (defs : Definitions) (id : DefId .module) : ModuleDef :=
  (defs.modules.get? id.index).getD default

/-- The type with an identity. -/
def type (defs : Definitions) (id : DefId .type) : TypeDef :=
  (defs.types.get? id.index).getD default

/-- The field with an identity. -/
def field (defs : Definitions) (id : DefId .field) : FieldDef :=
  (defs.fields.get? id.index).getD default

/-- The method with an identity. -/
def method (defs : Definitions) (id : DefId .method) : MethodDef :=
  (defs.methods.get? id.index).getD default

/-- The property with an identity. -/
def property (defs : Definitions) (id : DefId .property) : PropertyDef :=
  (defs.properties.get? id.index).getD default

/-- The event with an identity. -/
def event (defs : Definitions) (id : DefId .event) : EventDef :=
  (defs.events.get? id.index).getD default

/-- Whether a definition exists. -/
def has (defs : Definitions) : Definition → Bool
  | .module id => defs.modules.has id.index
  | .type id => defs.types.has id.index
  | .field id => defs.fields.has id.index
  | .method id => defs.methods.has id.index
  | .property id => defs.properties.has id.index
  | .event id => defs.events.has id.index

/-! ## Changing -/

/-- The definitions with a module changed. -/
def updateModule (defs : Definitions) (id : DefId .module) (change : ModuleDef → ModuleDef) :
    Definitions :=
  { defs with modules := defs.modules.update id.index change }

/-- The definitions with a type changed. -/
def updateType (defs : Definitions) (id : DefId .type) (change : TypeDef → TypeDef) :
    Definitions :=
  { defs with types := defs.types.update id.index change }

/-- The definitions with a field changed. -/
def updateField (defs : Definitions) (id : DefId .field) (change : FieldDef → FieldDef) :
    Definitions :=
  { defs with fields := defs.fields.update id.index change }

/-- The definitions with a method changed. -/
def updateMethod (defs : Definitions) (id : DefId .method) (change : MethodDef → MethodDef) :
    Definitions :=
  { defs with methods := defs.methods.update id.index change }

/-- The definitions with a property changed. -/
def updateProperty (defs : Definitions) (id : DefId .property)
    (change : PropertyDef → PropertyDef) : Definitions :=
  { defs with properties := defs.properties.update id.index change }

/-- The definitions with an event changed. -/
def updateEvent (defs : Definitions) (id : DefId .event) (change : EventDef → EventDef) :
    Definitions :=
  { defs with events := defs.events.update id.index change }

/-! ## Making

Each answers the identity of the new definition, which belongs to nothing yet. -/

/-- A new module. -/
def makeModule (defs : Definitions) (module : ModuleDef) : DefId .module × Definitions :=
  (⟨defs.modules.next⟩, { defs with modules := defs.modules.push module })

/-- A new type. -/
def makeType (defs : Definitions) (type : TypeDef) : DefId .type × Definitions :=
  (⟨defs.types.next⟩, { defs with types := defs.types.push type })

/-- A new field. -/
def makeField (defs : Definitions) (field : FieldDef) : DefId .field × Definitions :=
  (⟨defs.fields.next⟩, { defs with fields := defs.fields.push field })

/-- A new method. -/
def makeMethod (defs : Definitions) (method : MethodDef) : DefId .method × Definitions :=
  (⟨defs.methods.next⟩, { defs with methods := defs.methods.push method })

/-- A new property. -/
def makeProperty (defs : Definitions) (property : PropertyDef) :
    DefId .property × Definitions :=
  (⟨defs.properties.next⟩, { defs with properties := defs.properties.push property })

/-- A new event. -/
def makeEvent (defs : Definitions) (event : EventDef) : DefId .event × Definitions :=
  (⟨defs.events.next⟩, { defs with events := defs.events.push event })

/-! ## Dangling identities

Each answers an identity that no definition has or will ever have. -/

/-- The identity of a type that never was. -/
def skipType (defs : Definitions) : DefId .type × Definitions :=
  (⟨defs.types.next⟩, { defs with types := defs.types.skip })

/-- The identity of a field that never was. -/
def skipField (defs : Definitions) : DefId .field × Definitions :=
  (⟨defs.fields.next⟩, { defs with fields := defs.fields.skip })

/-- The identity of a method that never was. -/
def skipMethod (defs : Definitions) : DefId .method × Definitions :=
  (⟨defs.methods.next⟩, { defs with methods := defs.methods.skip })

/-! ## Scopes and names -/

/-- What declares a type, if it is nested and its declaring type still exists. -/
def outer? (defs : Definitions) (id : DefId .type) : Option (DefId .type) :=
  (defs.type id).owner.filter fun owner => defs.types.has owner.index

/-- The type around a member, if it still exists. -/
def living? (defs : Definitions) (owner : Option (DefId .type)) : Option (DefId .type) :=
  owner.filter fun id => defs.types.has id.index

/-- The module of a type, if it still exists. -/
def moduleOf? (defs : Definitions) (id : DefId .type) : Option (DefId .module) :=
  (defs.type id).module.filter fun module => defs.modules.has module.index

/-- The full name of a type that is nested at most `depth` times. -/
def typeNameWithin (defs : Definitions) : Nat → DefId .type → String
  | 0, id => (defs.type id).name
  | depth + 1, id =>
    match defs.outer? id with
    | some outer => defs.typeNameWithin depth outer ++ "/" ++ (defs.type id).name
    | none => Text.qualify (defs.type id).namespaceName (defs.type id).name

/-- The full name of a type: namespace and name, or the name of the declaring type and the own
name. No type is nested more often than there are types. -/
def typeName (defs : Definitions) (id : DefId .type) : String :=
  defs.typeNameWithin defs.types.next id

/-- A member's name, after the name of its declaring type if that still exists. -/
def memberName (defs : Definitions) (owner : Option (DefId .type)) (name : String) : String :=
  match defs.living? owner with
  | some outer => defs.typeName outer ++ "::" ++ name
  | none => name

/-- The token of a definition; a module has none, and neither has a definition that belongs to no
module. -/
def token (defs : Definitions) : Definition → Token
  | .module _ => .null
  | .type id => (defs.type id).token.getD .null
  | .field id => (defs.field id).token.getD .null
  | .method id => (defs.method id).token.getD .null
  | .property id => (defs.property id).token.getD .null
  | .event id => (defs.event id).token.getD .null

end Definitions

end Graft
