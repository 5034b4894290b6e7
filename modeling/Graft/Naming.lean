import Graft.World

/-!
# Full names

The full names of definitions, declarations and references in the world as it is now.
-/

namespace Graft.World

/-- The full name of a method definition. -/
def methodName (world : World) (id : DefId .method) : String :=
  let method := world.defs.method id
  let owner := (world.defs.living? method.owner).elim "" world.defs.typeName
  method.signature.memberText world.typeNames owner method.name

/-- The full name of a definition. -/
def defName (world : World) : Definition → String
  | .module id => (world.defs.module id).name
  | .type id => world.defs.typeName id
  | .field id => let field := world.defs.field id; world.defs.memberName field.owner field.name
  | .method id => world.methodName id
  | .property id =>
    let property := world.defs.property id
    world.defs.memberName property.owner property.name
  | .event id => let event := world.defs.event id; world.defs.memberName event.owner event.name

/-- The full name of the declaration of a method. -/
def methodDeclName (world : World) (id : DeclId .method) : String :=
  let method := world.decls.method id
  let owner := (world.decls.living? method.owner).elim "" world.decls.typeName
  method.signature.memberText world.typeNames owner method.name

/-- The full name of a declaration. -/
def declName (world : World) : Declaration → String
  | .module id => (world.decls.module id).name
  | .type id => world.decls.typeName id
  | .field id => let field := world.decls.field id; world.decls.memberName field.owner field.name
  | .method id => world.methodDeclName id
  | .property id =>
    let property := world.decls.property id
    world.decls.memberName property.owner property.name
  | .event id => let event := world.decls.event id; world.decls.memberName event.owner event.name

/-- A definition as messages name it. -/
def defSymbol (world : World) (definition : Definition) : Symbol :=
  ⟨definition.kind, world.defName definition⟩

/-- A declaration as messages name it. -/
def declSymbol (world : World) (declaration : Declaration) : Symbol :=
  ⟨declaration.kind, world.declName declaration⟩

/-- The full name of a referenced type. -/
def typeRefName (world : World) (ref : TypeRef) : String :=
  ref.fullName world.typeNames

/-- The full name of a referenced field. -/
def fieldRefName (world : World) : FieldRef → String
  | .definition id =>
    if world.defs.fields.has id.index then world.defName (.field id) else goneName
  | .declared id =>
    if world.decls.fields.has id.index then world.declName (.field id) else goneName
  | .external owner name _ => world.typeRefName owner ++ "::" ++ name

/-- The full name of a referenced method. -/
def methodRefName (world : World) : MethodRef → String
  | .definition id =>
    if world.defs.methods.has id.index then world.methodName id else goneName
  | .declared id =>
    if world.decls.methods.has id.index then world.methodDeclName id else goneName
  | .external owner name signature =>
    signature.memberText world.typeNames (world.typeRefName owner) name
  | .instantiated method args =>
    world.methodRefName method ++ "<" ++ commaSeparated (TypeSig.textList world.typeNames args)
      ++ ">"

/-- The names that a listing of instructions shows. -/
def operandNames (world : World) : OperandNames where
  types := world.typeNames
  field := world.fieldRefName
  method := world.methodRefName

end Graft.World
