import Graft.Session.Basic

/-!
# Resolving references and signatures

A reference to a declaration becomes a reference to the definition that the declaration stands
for; a signature is resolved by resolving the references in it, and keeps its shape. How a
declaration is resolved is a parameter, the `Search`. Owners of generic variables stay as they
are, but an owner that is still to be filled in makes a signature unusable.
-/

namespace Graft

/-- A way to find the definition that a declaration stands for. -/
abbrev Search := Declaration → SessionTask Definition

/-- The complaint that a declaration was resolved to a definition of another kind. -/
def kindMismatch (world : World) (declaration : Declaration) (found : Definition) : Error :=
  .refused (.kindMismatch (world.declSymbol declaration) found.kind)

namespace Search

variable (search : Search)

/-- The definition of a declaration, which has to be of the declaration's kind. -/
def sameKind (declaration : Declaration) : SessionTask Definition := do
  let found ← search declaration
  if found.kind = declaration.kind then return found
  else throw (kindMismatch (← SessionTask.world) declaration found)

/-- The module that a declaration stands for. -/
def module (id : DeclId .module) : SessionTask (DefId .module) := do
  match ← search (.module id) with
  | .module found => return found
  | other => throw (kindMismatch (← SessionTask.world) (.module id) other)

/-- The type that a declaration stands for. -/
def type (id : DeclId .type) : SessionTask (DefId .type) := do
  match ← search (.type id) with
  | .type found => return found
  | other => throw (kindMismatch (← SessionTask.world) (.type id) other)

/-- The field that a declaration stands for. -/
def field (id : DeclId .field) : SessionTask (DefId .field) := do
  match ← search (.field id) with
  | .field found => return found
  | other => throw (kindMismatch (← SessionTask.world) (.field id) other)

/-- The method that a declaration stands for. -/
def method (id : DeclId .method) : SessionTask (DefId .method) := do
  match ← search (.method id) with
  | .method found => return found
  | other => throw (kindMismatch (← SessionTask.world) (.method id) other)

/-- Refuses a reference to a declaration that is gone. -/
def checkLiving (declaration : Declaration) : SessionTask Unit := do
  unless (← SessionTask.world).decls.has declaration do
    throw (.unresolved (.gone declaration.kind))

/-- Refuses an owner that is still to be filled in. -/
def checkOwner (kind : VarKind) (index : UInt32) : VarOwner → SessionTask Unit
  | .deferred slot => do
    if ((← SessionTask.world).slot? slot).isNone then
      throw (.badSignature (.unowned kind index))
  | _ => pure ()

mutual

/-- A type reference resolved. -/
def resolveTypeRef : TypeRef → SessionTask TypeRef
  | .definition id => return .definition id
  | .external type => return .external type
  | .declared id => do
    checkLiving (.type id)
    return .definition (← search.type id)
  | .constructed signature => do
    return .constructed (← resolveTypeSig signature)
termination_by structural ref => ref

/-- A type signature resolved. -/
def resolveTypeSig : TypeSig → SessionTask TypeSig
  | .unknown => throw (.badSignature .resolveUnknown)
  | .sentinel => return .sentinel
  | .primitive type => return .primitive type
  | .classType type => do return .classType (← resolveTypeRef type)
  | .valueType type => do return .valueType (← resolveTypeRef type)
  | .genericVar kind index owner => do
    checkOwner kind index owner
    return .genericVar kind index owner
  | .function signature => do return .function (← resolveMethodSig signature)
  | .applied generic args => do
    let generic ← resolveTypeSig generic
    return .applied generic (← resolveTypeSigs args)
  | .pointer inner => do return .pointer (← resolveTypeSig inner)
  | .byRef inner => do return .byRef (← resolveTypeSig inner)
  | .vector inner => do return .vector (← resolveTypeSig inner)
  | .pinned inner => do return .pinned (← resolveTypeSig inner)
  | .array inner shape => do return .array (← resolveTypeSig inner) shape
  | .required modifier inner => do
    let modifier ← resolveTypeRef modifier
    return .required modifier (← resolveTypeSig inner)
  | .optional modifier inner => do
    let modifier ← resolveTypeRef modifier
    return .optional modifier (← resolveTypeSig inner)
  | .inModule index inner => do return .inModule index (← resolveTypeSig inner)
termination_by structural signature => signature

/-- A method signature resolved. -/
def resolveMethodSig : MethodSig → SessionTask MethodSig
  | ⟨callConv, genericCount, result, params, varargs⟩ => do
    let result ← resolveTypeSig result
    let params ← resolveTypeSigs params
    return ⟨callConv, genericCount, result, params, ← resolveTypeSigs varargs⟩
termination_by structural signature => signature

/-- Type signatures resolved, from left to right. -/
def resolveTypeSigs : List TypeSig → SessionTask (List TypeSig)
  | [] => return []
  | signature :: rest => do
    let signature ← resolveTypeSig signature
    return signature :: (← resolveTypeSigs rest)
termination_by structural signatures => signatures

end

/-- A field reference resolved. -/
def resolveFieldRef : FieldRef → SessionTask FieldRef
  | .definition id => return .definition id
  | .declared id => do
    checkLiving (.field id)
    return .definition (← search.field id)
  | .external owner name signature => do
    let owner ← search.resolveTypeRef owner
    return .external owner name (← search.resolveTypeSig signature)

/-- A method reference resolved. -/
def resolveMethodRef : MethodRef → SessionTask MethodRef
  | .definition id => return .definition id
  | .declared id => do
    checkLiving (.method id)
    return .definition (← search.method id)
  | .external owner name signature => do
    let owner ← search.resolveTypeRef owner
    return .external owner name (← search.resolveMethodSig signature)
  | .instantiated method args => do
    let method ← resolveMethodRef method
    return .instantiated method (← search.resolveTypeSigs args)
termination_by structural ref => ref

/-- A property signature resolved. -/
def resolvePropertySig (signature : PropertySig) : SessionTask PropertySig := do
  let type ← search.resolveTypeSig signature.type
  return { signature with type, params := ← search.resolveTypeSigs signature.params }

/-- A generic parameter with its constraints resolved. -/
def resolveGenericParam (param : GenericParam) : SessionTask GenericParam := do
  return { param with constraints := ← param.constraints.mapM search.resolveTypeRef }

/-- An override with both methods resolved. -/
def resolveOverride (override : Override) : SessionTask Override := do
  let body ← search.resolveMethodRef override.body
  return { body, declaration := ← search.resolveMethodRef override.declaration }

end Search

end Graft
