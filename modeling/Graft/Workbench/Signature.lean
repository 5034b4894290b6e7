import Graft.Import.Signature
import Graft.Workbench.Reading

/-!
# Reading references and signatures

References and signatures from the documents that show them, with names of the workbench in place
of full names. A signature that the workbench holds may be used again by its name; a reference may
also be to something that never was.
-/

namespace Graft.Document

/-- A token: the name of a definition that has it, or its number. -/
def asToken (document : Document) : Work Token := do
  if let .text name := document then
    if let some (.definition definition) := (← get).objects.get? name then
      return (← Work.world).defs.token definition
  return ⟨← document.asUInt32⟩

/-- An external type: the scope, the namespace and the names, outermost first. -/
def asExternal : List String → Work ExternalType
  | scope :: namespaceName :: name :: nested =>
    return nested.foldl .nested (.topLevel scope namespaceName name)
  | _ => throw .malformed

/-- A reference to something that never was: a definition or a declaration. -/
def asDangling {α : Type} (document : Document) (definition declaration : Work α) : Work α := do
  match ← document.str "dropped" with
  | "def" => definition
  | "tracked" => declaration
  | _ => throw .malformed

/-- A built-in type, by its name or its short name. -/
def asPrimitive (name : String) : Work Primitive :=
  Work.demand (Primitive.all.find? fun type => type.name == name || type.shortName == name)

/-- A type signature of one word. -/
def asLeaf : String → Work TypeSig
  | "unknown" => return .unknown
  | "sentinel" => return .sentinel
  | name => return .primitive (← asPrimitive name)

/-- A signature wrapped as each of several words says, the first word innermost. -/
def wrap (words : List String) (signature : TypeSig) : Work TypeSig :=
  words.foldlM (fun inner word =>
    match word with
    | "ptr" => return .pointer inner
    | "szarray" => return .vector inner
    | "byref" => return .byRef inner
    | "pinned" => return .pinned inner
    | _ => throw .malformed) signature

/-- The words of a text. -/
def wordsOf (text : String) : List String :=
  (text.splitOn " ").filter (· ≠ "")

mutual

/-- A type reference. -/
def asTypeRef (document : Document) : Work TypeRef := do
  if document.has "def" then
    return .definition (← document.named "def" Work.typeDef)
  if document.has "tracked" then
    return .declared (← document.named "tracked" Work.typeDecl)
  if document.has "ext" then
    return .external (← asExternal (← document.every "ext" asText))
  if let some ⟨part, _⟩ := document.field? "spec" then
    return .constructed (← asTypeSig part)
  document.asDangling
    (return .definition (← Work.makeDef Definitions.skipType))
    (return .declared (← Work.makeDecl Declarations.skipType))
termination_by sizeOf document
decreasing_by all_goals assumption

/-- A method reference. -/
def asMethodRef (document : Document) : Work MethodRef := do
  if document.has "def" then
    return .definition (← document.named "def" Work.methodDef)
  if document.has "tracked" then
    return .declared (← document.named "tracked" Work.methodDecl)
  if let some ⟨part, _⟩ := document.field? "ext" then
    let ⟨signature, _⟩ ← document.part "sig"
    return .external (← asTypeRef part) (← document.strD "name" "") (← asMethodSig signature)
  if let some ⟨part, _⟩ := document.field? "inst" then
    let args ← (document.itemsOf "args").mapM fun ⟨part, _⟩ => asTypeSig part
    return .instantiated (← asMethodRef part) args
  document.asDangling
    (return .definition (← Work.makeDef Definitions.skipMethod))
    (return .declared (← Work.makeDecl Declarations.skipMethod))
termination_by sizeOf document
decreasing_by all_goals assumption

/-- The owner of a generic variable. A text says that the owner is not known yet. -/
def asOwner (document : Document) : Work VarOwner := do
  if document.text?.isSome then
    return .deferred (← Work.ofTask Task.makeSlot)
  if let some ⟨part, _⟩ := document.field? "type" then
    return .type (← asTypeRef part)
  let ⟨part, _⟩ ← document.part "method"
  return .method (← asMethodRef part)
termination_by sizeOf document
decreasing_by all_goals assumption

/-- A type signature. -/
def asTypeSig (document : Document) : Work TypeSig := do
  if let some name := document.text? then
    asLeaf name
  else if document.has "use" then
    document.named "use" Work.typeSig
  else if let some ⟨part, _⟩ := document.field? "class" then
    return .classType (← asTypeRef part)
  else if let some ⟨part, _⟩ := document.field? "valuetype" then
    return .valueType (← asTypeRef part)
  else if document.has "var" || document.has "mvar" then
    let owner ← match document.field? "owner" with
      | some ⟨part, _⟩ => asOwner part
      | none => pure .unbound
    if document.has "var" then return .genericVar .type (← document.uint32 "var") owner
    else return .genericVar .method (← document.uint32 "mvar") owner
  else if let some ⟨part, _⟩ := document.field? "fnptr" then
    return .function (← asMethodSig part)
  else if let some ⟨part, _⟩ := document.field? "inst" then
    let args ← (document.itemsOf "args").mapM fun ⟨part, _⟩ => asTypeSig part
    return .applied (← asTypeSig part) args
  else if let some ⟨part, _⟩ := document.field? "ptr" then
    return .pointer (← asTypeSig part)
  else if let some ⟨part, _⟩ := document.field? "byref" then
    return .byRef (← asTypeSig part)
  else if let some ⟨part, _⟩ := document.field? "szarray" then
    return .vector (← asTypeSig part)
  else if let some ⟨part, _⟩ := document.field? "pinned" then
    return .pinned (← asTypeSig part)
  else if let some ⟨part, _⟩ := document.field? "array" then
    let lowerBounds ← document.every "lower_bounds" asInt
    return .array (← asTypeSig part)
      ⟨← document.uint32 "rank", ← document.every "sizes" asUInt32, lowerBounds.map .ofInt⟩
  else
    let ⟨part, _⟩ ← document.part "of"
    let inner ← asTypeSig part
    if let some ⟨part, _⟩ := document.field? "modreq" then
      return .required (← asTypeRef part) inner
    else if let some ⟨part, _⟩ := document.field? "modopt" then
      return .optional (← asTypeRef part) inner
    else if document.has "module" then
      return .inModule (← document.uint32 "module") inner
    else wrap (wordsOf (← document.str "chain")) inner
termination_by sizeOf document
decreasing_by all_goals assumption

/-- A method signature. Fields that are missing are zero, empty, or the result of no value. -/
def asMethodSig (document : Document) : Work MethodSig := do
  if document.has "use" then
    document.named "use" Work.methodSig
  else
    let result ← match document.field? "ret" with
      | some ⟨part, _⟩ => asTypeSig part
      | none => pure (.primitive .void)
    let params ← (document.itemsOf "params").mapM fun ⟨part, _⟩ => asTypeSig part
    let varargs ← (document.itemsOf "vararg").mapM fun ⟨part, _⟩ => asTypeSig part
    return ⟨← document.uint8 "cc", ← document.uint32 "generic", result, params, varargs⟩
termination_by sizeOf document
decreasing_by all_goals assumption

end

/-- A field reference. -/
def asFieldRef (document : Document) : Work FieldRef := do
  if document.has "def" then
    return .definition (← document.named "def" Work.fieldDef)
  if document.has "tracked" then
    return .declared (← document.named "tracked" Work.fieldDecl)
  if document.has "ext" then
    return .external (← document.require "ext" asTypeRef) (← document.strD "name" "")
      (← document.require "sig" asTypeSig)
  document.asDangling
    (return .definition (← Work.makeDef Definitions.skipField))
    (return .declared (← Work.makeDecl Declarations.skipField))

/-- A property signature. -/
def asPropertySig (document : Document) : Work PropertySig := do
  return ⟨document.isSet "this", ← document.require "type" asTypeSig,
    ← document.every "params" asTypeSig⟩

/-- A generic parameter. -/
def asGenericParam (document : Document) : Work GenericParam := do
  return ⟨← document.uint16 "n", ← document.uint32 "flags", ← document.strD "name" "",
    ← document.every "constraints" asTypeRef⟩

/-- An override. -/
def asOverride (document : Document) : Work Override := do
  return ⟨← document.require "body" asMethodRef, ← document.require "decl" asMethodRef⟩

end Graft.Document
