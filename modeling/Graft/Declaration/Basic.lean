import Graft.Code.Body
import Graft.Dictionary
import Graft.Table

/-!
# Declarations

What a patch asks for: a tree of modules, types and members, each with the policy under which it
is to be found or made, and whether it may be changed. Links to the declaring scope are
identities; a declaration whose scope is gone is detached.
-/

namespace Graft

/-- The identity of an importer. -/
structure ImporterId where
  index : Nat
  deriving DecidableEq, Repr, Hashable, Inhabited

/-- How the operands of a body are carried over to the method that receives it. -/
inductive Transformer where
  /-- Every reference is resolved. -/
  | plain
  /-- Calls to the given methods are redirected to the base body; tokens name symbols of the
  given module. -/
  | redirecting (bases : List MethodRef) (scope : Option (DefId .module))
  /-- References into a patch module are imported first; calls to the methods with the given
  tokens are redirected to the base body. -/
  | importing (importer : ImporterId) (bases : List Token)
  deriving Inhabited

/-- A body that replaces the body of the method it is declared for. -/
structure Transplant where
  body : Body
  transformer : Transformer
  deriving Inhabited

/-- What every declaration states. -/
structure Terms where
  policy : Policy
  readOnly : Bool
  deriving DecidableEq, Repr, Inhabited

/-- A module that is asked for. -/
structure ModuleDecl where
  terms : Terms
  name : String
  types : List (DeclId .type) := []
  deriving Inhabited

/-- Where a type is declared: at top level, in a namespace of a module, or inside a type. -/
inductive TypePlace where
  | topLevel (module : DeclId .module) (namespaceName : String)
  | nested (owner : DeclId .type)
  deriving DecidableEq, Repr, Inhabited

/-- A type that is asked for. -/
structure TypeDecl where
  terms : Terms
  place : TypePlace
  name : String
  flags : Option UInt32 := none
  base : Option TypeRef := none
  interfaces : List TypeRef := []
  generics : Option (List GenericParam) := none
  nested : List (DeclId .type) := []
  fields : List (DeclId .field) := []
  methods : List (DeclId .method) := []
  properties : List (DeclId .property) := []
  events : List (DeclId .event) := []
  deriving Inhabited

/-- A field that is asked for. -/
structure FieldDecl where
  terms : Terms
  owner : DeclId .type
  name : String
  signature : TypeSig
  flags : Option UInt32 := none
  deriving Inhabited

/-- A method that is asked for. -/
structure MethodDecl where
  terms : Terms
  owner : DeclId .type
  name : String
  signature : MethodSig
  flags : Option UInt32 := none
  overrides : List Override := []
  body : Option Transplant := none
  deriving Inhabited

/-- Declared methods with the parts they play. -/
abbrev DeclaredAccessors := List (AccessorRole × DeclId .method)

/-- A property that is asked for. -/
structure PropertyDecl where
  terms : Terms
  owner : DeclId .type
  name : String
  signature : PropertySig
  flags : Option UInt32 := none
  accessors : DeclaredAccessors := []
  deriving Inhabited

/-- An event that is asked for. -/
structure EventDecl where
  terms : Terms
  owner : DeclId .type
  name : String
  type : TypeRef
  flags : Option UInt32 := none
  accessors : DeclaredAccessors := []
  deriving Inhabited

/-- The namespace of a type at top level; a nested type has none. -/
def TypeDecl.namespaceName? (decl : TypeDecl) : Option String :=
  match decl.place with
  | .topLevel _ namespaceName => some namespaceName
  | .nested _ => none

/-- Whether a type is declared inside another one. -/
def TypeDecl.isNested (decl : TypeDecl) : Bool :=
  decl.namespaceName?.isNone

/-- Everything that is declared. -/
structure Declarations where
  modules : Table ModuleDecl := {}
  types : Table TypeDecl := {}
  fields : Table FieldDecl := {}
  methods : Table MethodDecl := {}
  properties : Table PropertyDecl := {}
  events : Table EventDecl := {}
  deriving Inhabited

namespace Declarations

/-! ## Looking up

A declaration that is gone reads as a nameless one without members. -/

/-- The declaration of a module. -/
def module (decls : Declarations) (id : DeclId .module) : ModuleDecl :=
  (decls.modules.get? id.index).getD default

/-- The declaration of a type. -/
def type (decls : Declarations) (id : DeclId .type) : TypeDecl :=
  (decls.types.get? id.index).getD default

/-- The declaration of a field. -/
def field (decls : Declarations) (id : DeclId .field) : FieldDecl :=
  (decls.fields.get? id.index).getD default

/-- The declaration of a method. -/
def method (decls : Declarations) (id : DeclId .method) : MethodDecl :=
  (decls.methods.get? id.index).getD default

/-- The declaration of a property. -/
def property (decls : Declarations) (id : DeclId .property) : PropertyDecl :=
  (decls.properties.get? id.index).getD default

/-- The declaration of an event. -/
def event (decls : Declarations) (id : DeclId .event) : EventDecl :=
  (decls.events.get? id.index).getD default

/-- Whether a declaration exists. -/
def has (decls : Declarations) : Declaration → Bool
  | .module id => decls.modules.has id.index
  | .type id => decls.types.has id.index
  | .field id => decls.fields.has id.index
  | .method id => decls.methods.has id.index
  | .property id => decls.properties.has id.index
  | .event id => decls.events.has id.index

/-- The number of declarations ever made. -/
def count (decls : Declarations) : Nat :=
  decls.modules.next + decls.types.next + decls.fields.next + decls.methods.next
    + decls.properties.next + decls.events.next

/-- What a declaration states. -/
def terms (decls : Declarations) : Declaration → Terms
  | .module id => (decls.module id).terms
  | .type id => (decls.type id).terms
  | .field id => (decls.field id).terms
  | .method id => (decls.method id).terms
  | .property id => (decls.property id).terms
  | .event id => (decls.event id).terms

/-! ## Changing -/

/-- The declarations with a module changed. -/
def updateModule (decls : Declarations) (id : DeclId .module)
    (change : ModuleDecl → ModuleDecl) : Declarations :=
  { decls with modules := decls.modules.update id.index change }

/-- The declarations with a type changed. -/
def updateType (decls : Declarations) (id : DeclId .type) (change : TypeDecl → TypeDecl) :
    Declarations :=
  { decls with types := decls.types.update id.index change }

/-- The declarations with a field changed. -/
def updateField (decls : Declarations) (id : DeclId .field) (change : FieldDecl → FieldDecl) :
    Declarations :=
  { decls with fields := decls.fields.update id.index change }

/-- The declarations with a method changed. -/
def updateMethod (decls : Declarations) (id : DeclId .method)
    (change : MethodDecl → MethodDecl) : Declarations :=
  { decls with methods := decls.methods.update id.index change }

/-- The declarations with a property changed. -/
def updateProperty (decls : Declarations) (id : DeclId .property)
    (change : PropertyDecl → PropertyDecl) : Declarations :=
  { decls with properties := decls.properties.update id.index change }

/-- The declarations with an event changed. -/
def updateEvent (decls : Declarations) (id : DeclId .event) (change : EventDecl → EventDecl) :
    Declarations :=
  { decls with events := decls.events.update id.index change }

/-! ## Making -/

/-- A new declaration of a module. -/
def makeModule (decls : Declarations) (module : ModuleDecl) : DeclId .module × Declarations :=
  (⟨decls.modules.next⟩, { decls with modules := decls.modules.push module })

/-- A new declaration of a type. -/
def makeType (decls : Declarations) (type : TypeDecl) : DeclId .type × Declarations :=
  (⟨decls.types.next⟩, { decls with types := decls.types.push type })

/-- A new declaration of a field. -/
def makeField (decls : Declarations) (field : FieldDecl) : DeclId .field × Declarations :=
  (⟨decls.fields.next⟩, { decls with fields := decls.fields.push field })

/-- A new declaration of a method. -/
def makeMethod (decls : Declarations) (method : MethodDecl) : DeclId .method × Declarations :=
  (⟨decls.methods.next⟩, { decls with methods := decls.methods.push method })

/-- A new declaration of a property. -/
def makeProperty (decls : Declarations) (property : PropertyDecl) :
    DeclId .property × Declarations :=
  (⟨decls.properties.next⟩, { decls with properties := decls.properties.push property })

/-- A new declaration of an event. -/
def makeEvent (decls : Declarations) (event : EventDecl) : DeclId .event × Declarations :=
  (⟨decls.events.next⟩, { decls with events := decls.events.push event })

/-! ## Dangling identities

Each answers an identity that no declaration has or will ever have. -/

/-- The identity of a type declaration that never was. -/
def skipType (decls : Declarations) : DeclId .type × Declarations :=
  (⟨decls.types.next⟩, { decls with types := decls.types.skip })

/-- The identity of a field declaration that never was. -/
def skipField (decls : Declarations) : DeclId .field × Declarations :=
  (⟨decls.fields.next⟩, { decls with fields := decls.fields.skip })

/-- The identity of a method declaration that never was. -/
def skipMethod (decls : Declarations) : DeclId .method × Declarations :=
  (⟨decls.methods.next⟩, { decls with methods := decls.methods.skip })

/-! ## Scopes and names -/

/-- The declaring type of a nested type, if it still exists. -/
def outer? (decls : Declarations) (id : DeclId .type) : Option (DeclId .type) :=
  match (decls.type id).place with
  | .topLevel .. => none
  | .nested owner => if decls.types.has owner.index then some owner else none

/-- The declaring type of a member, if it still exists. -/
def living? (decls : Declarations) (owner : DeclId .type) : Option (DeclId .type) :=
  if decls.types.has owner.index then some owner else none

/-- The module of a type that is nested at most `depth` times. -/
def moduleWithin (decls : Declarations) : Nat → DeclId .type → Option (DeclId .module)
  | 0, _ => none
  | depth + 1, id =>
    match (decls.type id).place with
    | .topLevel module _ => if decls.modules.has module.index then some module else none
    | .nested owner =>
      if decls.types.has owner.index then decls.moduleWithin depth owner else none

/-- The module of a type, if it and all types around the type still exist. -/
def moduleOf? (decls : Declarations) (id : DeclId .type) : Option (DeclId .module) :=
  decls.moduleWithin decls.types.next id

/-- The full name of a type that is nested at most `depth` times. -/
def typeNameWithin (decls : Declarations) : Nat → DeclId .type → String
  | 0, id => (decls.type id).name
  | depth + 1, id =>
    match (decls.type id).place with
    | .topLevel _ namespaceName => Text.qualify namespaceName (decls.type id).name
    | .nested owner =>
      if decls.types.has owner.index then
        decls.typeNameWithin depth owner ++ "/" ++ (decls.type id).name
      else (decls.type id).name

/-- The full name of a type: namespace and name, or the name of the declaring type and the own
name. No type is nested more often than there are types. -/
def typeName (decls : Declarations) (id : DeclId .type) : String :=
  decls.typeNameWithin decls.types.next id

/-- The first top-level type of a module declared with a namespace and a name. -/
def findType? (decls : Declarations) (module : DeclId .module) (namespaceName name : String) :
    Option (DeclId .type) :=
  (decls.module module).types.find? fun id =>
    (decls.type id).namespaceName? == some namespaceName && (decls.type id).name == name

/-- A member's name, after the name of its declaring type if that still exists. -/
def memberName (decls : Declarations) (owner : DeclId .type) (name : String) : String :=
  if decls.types.has owner.index then decls.typeName owner ++ "::" ++ name else name

end Declarations

end Graft
