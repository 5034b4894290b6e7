import Graft.Document.Basic
import Graft.Naming

/-!
# Documents of references and signatures

How references and signatures look to other programs. A reference to a definition or to a
declaration shows its full name, and nothing when it is gone.
-/

namespace Graft.Document

variable (world : World)

/-- A metadata token. -/
def ofToken (token : Token) : Document :=
  token.text

/-- A reference to a definition. -/
def ofDefinitionRef (definition : Definition) : Document :=
  if world.defs.has definition then
    record [("def", world.defName definition), ("token", ofToken (world.defs.token definition))]
  else record [("def", nothing)]

/-- A reference to a declaration. -/
def ofDeclarationRef (declaration : Declaration) : Document :=
  if world.decls.has declaration then record [("tracked", world.declName declaration)]
  else record [("tracked", nothing)]

/-- The scope, the namespace and the names of an external type, outermost first. -/
def externalNames : ExternalType → List String
  | .topLevel scope namespaceName name => [scope, namespaceName, name]
  | .nested outer name => externalNames outer ++ [name]

mutual

/-- A type reference. -/
def ofTypeRef : TypeRef → Document
  | .definition id => ofDefinitionRef world (.type id)
  | .declared id => ofDeclarationRef world (.type id)
  | .external type => record [("ext", ofWords (externalNames type))]
  | .constructed signature => record [("spec", ofTypeSig signature)]
termination_by structural ref => ref

/-- A method reference. -/
def ofMethodRef : MethodRef → Document
  | .definition id => ofDefinitionRef world (.method id)
  | .declared id => ofDeclarationRef world (.method id)
  | .external owner name signature =>
    record [("ext", ofTypeRef owner), ("name", name), ("sig", ofMethodSig signature)]
  | .instantiated method args =>
    record [("inst", ofMethodRef method), ("args", list (ofTypeSigs args))]
termination_by structural ref => ref

/-- The owner of a generic variable, as a field of the variable. An unknown owner is left out. -/
def ownerFields : VarOwner → List (String × Document)
  | .unbound => []
  | .type owner => [("owner", record [("type", ofTypeRef owner)])]
  | .method owner => [("owner", record [("method", ofMethodRef owner)])]
  | .deferred slot =>
    match world.slot? slot with
    | some method => [("owner", record [("deferred", ofDeclarationRef world (.method method))])]
    | none => [("owner", "pending")]
termination_by structural owner => owner

/-- A type signature. -/
def ofTypeSig : TypeSig → Document
  | .unknown => "unknown"
  | .sentinel => "sentinel"
  | .primitive type => type.name
  | .classType type => record [("class", ofTypeRef type)]
  | .valueType type => record [("valuetype", ofTypeRef type)]
  | .genericVar .type index owner => record (("var", index) :: ownerFields owner)
  | .genericVar .method index owner => record (("mvar", index) :: ownerFields owner)
  | .function signature => record [("fnptr", ofMethodSig signature)]
  | .applied generic args => record [("inst", ofTypeSig generic), ("args", list (ofTypeSigs args))]
  | .pointer inner => record [("ptr", ofTypeSig inner)]
  | .byRef inner => record [("byref", ofTypeSig inner)]
  | .vector inner => record [("szarray", ofTypeSig inner)]
  | .pinned inner => record [("pinned", ofTypeSig inner)]
  | .array inner shape =>
    record [("array", ofTypeSig inner), ("rank", shape.rank),
      ("sizes", ofList ofUInt32 shape.sizes),
      ("lower_bounds", ofList (fun bound => number bound.toInt) shape.lowerBounds)]
  | .required modifier inner => record [("modreq", ofTypeRef modifier), ("of", ofTypeSig inner)]
  | .optional modifier inner => record [("modopt", ofTypeRef modifier), ("of", ofTypeSig inner)]
  | .inModule index inner => record [("module", index), ("of", ofTypeSig inner)]
termination_by structural signature => signature

/-- A method signature. -/
def ofMethodSig : MethodSig → Document
  | ⟨callConv, genericCount, result, params, varargs⟩ =>
    record [("cc", callConv), ("generic", genericCount), ("ret", ofTypeSig result),
      ("params", list (ofTypeSigs params)), ("vararg", list (ofTypeSigs varargs))]
termination_by structural signature => signature

/-- Several type signatures. -/
def ofTypeSigs : List TypeSig → List Document
  | [] => []
  | signature :: rest => ofTypeSig signature :: ofTypeSigs rest
termination_by structural signatures => signatures

end

/-- A field reference. -/
def ofFieldRef : FieldRef → Document
  | .definition id => ofDefinitionRef world (.field id)
  | .declared id => ofDeclarationRef world (.field id)
  | .external owner name signature =>
    record [("ext", ofTypeRef world owner), ("name", name), ("sig", ofTypeSig world signature)]

/-- A property signature. -/
def ofPropertySig (signature : PropertySig) : Document :=
  record [("this", signature.hasThis), ("type", ofTypeSig world signature.type),
    ("params", ofList (ofTypeSig world) signature.params)]

/-- A generic parameter. -/
def ofGenericParam (param : GenericParam) : Document :=
  record [("n", param.number), ("name", param.name), ("flags", param.flags),
    ("constraints", ofList (ofTypeRef world) param.constraints)]

/-- An override. -/
def ofOverride (override : Override) : Document :=
  record [("body", ofMethodRef world override.body),
    ("decl", ofMethodRef world override.declaration)]

end Graft.Document
