import Graft.Definition.Members
import Graft.Document.Code

/-!
# Documents of definitions

How definitions look to other programs: in short, by kind, name and token, or in full, with
everything that they hold.
-/

namespace Graft.Document

variable (world : World)

/-- The fields that a definition has in short. -/
def shortFields (definition : Definition) : List (String × Document) :=
  [("kind", definition.kind.word), ("name", world.defName definition),
   ("token", ofToken (world.defs.token definition))]

/-- A definition in short. -/
def short (definition : Definition) : Document :=
  record (shortFields world definition)

/-- The fields that all definitions but modules have in full. -/
def commonFields (definition : Definition) (flags : UInt32) : List (String × Document) :=
  [("name", world.defName definition), ("token", ofToken (world.defs.token definition)),
   ("flags", flags)]

/-- Accessors that still exist: the part, the name and the token of each. -/
def ofAccessors (accessors : Accessors) : Document :=
  (accessors.living world.defs) |> ofList fun (role, method) =>
    list [role.word, world.methodName method, ofToken (world.defs.token (.method method))]

/-- A field in full. -/
def ofField (id : DefId .field) : Document :=
  let field := world.defs.field id
  record (commonFields world (.field id) field.flags
    ++ [("sig", ofTypeSig world field.signature)])

/-- A method in full. -/
def ofMethod (id : DefId .method) : Document :=
  let method := world.defs.method id
  record (commonFields world (.method id) method.flags
    ++ [("sig", ofMethodSig world method.signature),
        ("overrides", ofList (ofOverride world) method.overrides),
        ("body", ofOption (ofBody world) method.body)])

/-- A property in full. -/
def ofProperty (id : DefId .property) : Document :=
  let property := world.defs.property id
  record (commonFields world (.property id) property.flags
    ++ [("sig", ofPropertySig world property.signature),
        ("accessors", ofAccessors world property.accessors)])

/-- An event in full. -/
def ofEvent (id : DefId .event) : Document :=
  let event := world.defs.event id
  record (commonFields world (.event id) event.flags
    ++ [("type", ofTypeRef world event.type), ("accessors", ofAccessors world event.accessors)])

/-- A type in full, with the types nested in it as far as `depth` levels go. -/
def ofTypeWithin : Nat → DefId .type → Document
  | 0, _ => nothing
  | depth + 1, id =>
    let type := world.defs.type id
    let module := world.defs.moduleOf? id
    record (commonFields world (.type id) type.flags
      ++ [("namespace", text type.namespaceName), ("nested_flag", type.owner.isSome),
          ("module", ofOption (fun id => (world.defs.module id).name) module),
          ("base", ofOption (ofTypeRef world) type.base),
          ("interfaces", ofList (ofTypeRef world) type.interfaces),
          ("generics", ofList (ofGenericParam world) type.generics),
          ("fields", ofList (ofField world) type.fields),
          ("methods", ofList (ofMethod world) type.methods),
          ("properties", ofList (ofProperty world) type.properties),
          ("events", ofList (ofEvent world) type.events),
          ("nested", ofList (ofTypeWithin depth) type.nested)])

/-- A type in full. No type is nested more often than there are types. -/
def ofType (id : DefId .type) : Document :=
  ofTypeWithin world (world.defs.types.next + 1) id

/-- A module in full. -/
def ofModule (id : DefId .module) : Document :=
  let module := world.defs.module id
  record [("name", module.name), ("definitions", module.tokens.size),
    ("types", ofList (ofType world) module.types)]

/-- A definition in full. -/
def ofDefinition : Definition → Document
  | .module id => ofModule world id
  | .type id => ofType world id
  | .field id => ofField world id
  | .method id => ofMethod world id
  | .property id => ofProperty world id
  | .event id => ofEvent world id

end Graft.Document
