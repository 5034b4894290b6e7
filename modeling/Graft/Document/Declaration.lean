import Graft.Declaration.Declare
import Graft.Document.Definition

/-!
# Documents of declarations

How declarations look to other programs: in brief, by what every declaration states, alone with
all its details, or as a tree with everything declared inside it.
-/

namespace Graft.Document

variable (world : World)

/-- The fields that a declaration has in brief. -/
def briefFields (declaration : Declaration) : List (String × Document) :=
  let terms := world.decls.terms declaration
  [("symbol", declaration.kind.word), ("name", world.declName declaration),
   ("kind", terms.policy.word), ("read_only", terms.readOnly)]

/-- A declaration in brief. -/
def brief (declaration : Declaration) : Document :=
  record (briefFields world declaration)

/-- Declared accessors: the part and the name of each. -/
def ofDeclaredAccessors (accessors : DeclaredAccessors) : Document :=
  accessors |> ofList fun (role, method) => list [role.word, world.methodDeclName method]

/-- The details of the declaration of a type. -/
def typeDetails (id : DeclId .type) : List (String × Document) :=
  let decl := world.decls.type id
  let module := world.decls.moduleOf? id
  [("flags", ofOption ofUInt32 decl.flags), ("namespace", ofOption text decl.namespaceName?),
   ("nested_flag", decl.isNested),
   ("module", ofOption (fun id => (world.decls.module id).name) module),
   ("declaring", ofOption (fun id => world.decls.typeName id) (world.decls.outer? id)),
   ("base", ofOption (ofTypeRef world) decl.base),
   ("interfaces", ofList (ofTypeRef world) decl.interfaces),
   ("generics", ofOption (ofList (ofGenericParam world)) decl.generics)]

/-- The details of a declaration: what it states beyond policy and access. -/
def details : Declaration → List (String × Document)
  | .module _ => []
  | .type id => typeDetails world id
  | .field id =>
    let decl := world.decls.field id
    [("flags", ofOption ofUInt32 decl.flags), ("sig", ofTypeSig world decl.signature)]
  | .method id =>
    let decl := world.decls.method id
    [("flags", ofOption ofUInt32 decl.flags), ("sig", ofMethodSig world decl.signature),
     ("overrides", ofList (ofOverride world) decl.overrides),
     ("instructions", ofOption (fun graft => graft.body.code.length) decl.body)]
  | .property id =>
    let decl := world.decls.property id
    [("flags", ofOption ofUInt32 decl.flags), ("sig", ofPropertySig world decl.signature),
     ("accessors", ofDeclaredAccessors world decl.accessors)]
  | .event id =>
    let decl := world.decls.event id
    [("flags", ofOption ofUInt32 decl.flags), ("type", ofTypeRef world decl.type),
     ("accessors", ofDeclaredAccessors world decl.accessors)]

/-- The fields of a declaration with all its details. -/
def declarationFields (declaration : Declaration) : List (String × Document) :=
  briefFields world declaration ++ details world declaration

/-- A declaration with all its details, but without what is declared inside it. -/
def ofDeclaration (declaration : Declaration) : Document :=
  record (declarationFields world declaration)

/-- A type and everything declared in it, with nested types as far as `depth` levels go. -/
def typeTreeWithin : Nat → DeclId .type → Document
  | 0, _ => nothing
  | depth + 1, id =>
    let decl := world.decls.type id
    record (declarationFields world (.type id)
      ++ [("fields", ofList (fun id => ofDeclaration world (.field id)) decl.fields),
          ("methods", ofList (fun id => ofDeclaration world (.method id)) decl.methods),
          ("properties", ofList (fun id => ofDeclaration world (.property id)) decl.properties),
          ("events", ofList (fun id => ofDeclaration world (.event id)) decl.events),
          ("nested", ofList (typeTreeWithin depth) decl.nested)])

/-- A module and everything declared in it. No type is nested more often than there are types. -/
def moduleTree (id : DeclId .module) : Document :=
  record (declarationFields world (.module id)
    ++ [("types",
        ofList (typeTreeWithin world (world.decls.types.next + 1)) (world.decls.module id).types)])

/-- A patch and everything declared in it. -/
def patchTree (patch : Patch) : Document :=
  record [("name", patch.name), ("modules", ofList (moduleTree world) patch.modules)]

end Graft.Document
