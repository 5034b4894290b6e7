import Graft.Definition.Attach
import Graft.Naming

/-!
# Importing references and signatures

Turning references to definitions of a patch module into references to the declarations they stand
for. References to anything else pass through unchanged, and a definition of the patch module that
stands for no declaration is refused. The method that owns a generic variable may still be without
a declaration; its variables then get a slot that is filled when the method gets one.
-/

namespace Graft

namespace Task

/-- Changes an importer. -/
def changeImporter (id : ImporterId) (change : Importer → Importer) : Task Unit :=
  modify fun world => { world with importers := world.importers.update id.index change }

/-- A new slot that is still empty. -/
def makeSlot : Task SlotId :=
  modifyGet fun world => (⟨world.slots.size⟩, { world with slots := world.slots.push none })

/-- Fills a slot, unless it is filled already. -/
def fillSlot (slot : SlotId) (owner : DeclId .method) : Task Unit :=
  modify fun world =>
    { world with slots := world.slots.modify slot.index fun held => held.or (some owner) }

/-- Does the work that waited for a method. -/
def continueWith (method : DeclId .method) : Continuation → Task Unit
  | .own slot => fillSlot slot method
  | .notify label => modify fun world =>
    { world with notices := world.notices.push (label, world.methodDeclName method) }

end Task

namespace ImporterId

variable (importer : ImporterId)

/-- The importer as it is now. -/
def state : Task Importer := do
  return (← get).importer importer

/-! ## Binding -/

/-- Lets the patch type with a token stand for a declaration. -/
def bindType (token : Token) (declaration : DeclId .type) : Task Unit :=
  Task.changeImporter importer fun state =>
    { state with types := state.types.insert token declaration }

/-- Lets the patch field with a token stand for a declaration. -/
def bindField (token : Token) (declaration : DeclId .field) : Task Unit :=
  Task.changeImporter importer fun state =>
    { state with fields := state.fields.insert token declaration }

/-- Lets the patch method with a token stand for a declaration, and does the work that waited for
the method, in the order in which it came. -/
def bindMethod (token : Token) (declaration : DeclId .method) : Task Unit := do
  let queued := ((← importer.state).pending.get? token).getD []
  Task.changeImporter importer fun state =>
    { state with
      methods := state.methods.insert token declaration
      pending := state.pending.erase token }
  unless queued.isEmpty do
    Task.log (.replaying queued.length ((← get).methodDeclName declaration))
  queued.forM (Task.continueWith declaration)

/-- The declaration that a patch method stands for, if there is one and it still exists. -/
def livingMethod? (token : Token) : Task (Option (DeclId .method)) := do
  let world ← get
  return ((world.importer importer).methods.get? token).filter fun declaration =>
    world.decls.methods.has declaration.index

/-- Does some work as soon as the patch method with a token stands for a declaration: at once if
it does already. -/
def defer (token : Token) (work : Continuation) : Task Unit := do
  match ← importer.livingMethod? token with
  | some declaration => Task.continueWith declaration work
  | none =>
    Task.changeImporter importer fun state =>
      { state with
        pending := state.pending.insert token ((state.pending.get? token).getD [] ++ [work]) }

/-! ## References -/

/-- Whether a type belongs to the patch module. -/
def ownsType (world : World) (type : DefId .type) : Bool :=
  world.defs.moduleOf? type == some (world.importer importer).scope

/-- Whether a member whose declaring type is `owner` belongs to the patch module. -/
def ownsMember (world : World) (owner : Option (DefId .type)) : Bool :=
  (world.defs.living? owner).any (importer.ownsType world)

/-- The complaint about a definition of the patch module that stands for nothing. -/
def undeclared (world : World) (definition : Definition) : Error :=
  .unresolved (.undeclared (world.defName definition))

/-- A reference to a type definition imported. -/
def importTypeDef (id : DefId .type) : Task TypeRef := do
  let world ← get
  if world.defs.types.has id.index && importer.ownsType world id then
    match (world.importer importer).types.get? (world.defs.token (.type id)) with
    | some declaration => return .declared declaration
    | none => throw (undeclared world (.type id))
  else return .definition id

/-- Whether a method definition exists and belongs to the patch module. -/
def ownsMethod (world : World) (id : DefId .method) : Bool :=
  world.defs.methods.has id.index && importer.ownsMember world (world.defs.method id).owner

/-- A reference to a method definition imported. -/
def importMethodDef (id : DefId .method) : Task MethodRef := do
  let world ← get
  if importer.ownsMethod world id then
    match (world.importer importer).methods.get? (world.defs.token (.method id)) with
    | some declaration => return .declared declaration
    | none => throw (undeclared world (.method id))
  else return .definition id

/-- The slot for a method that stands for no declaration yet. All variables of a method share
one. -/
def slotFor (token : Token) : Task SlotId := do
  match (← importer.state).deferred.get? token with
  | some slot => return slot
  | none =>
    let slot ← Task.makeSlot
    importer.defer token (.own slot)
    Task.changeImporter importer fun state =>
      { state with deferred := state.deferred.insert token slot }
    return slot

/-- A method definition as the owner of a generic variable. -/
def importOwnerDef (id : DefId .method) : Task VarOwner := do
  let world ← get
  if importer.ownsMethod world id then
    let token := world.defs.token (.method id)
    match (world.importer importer).methods.get? token with
    | some declaration => return .method (.declared declaration)
    | none => return .deferred (← importer.slotFor token)
  else return .method (.definition id)

mutual

/-- A type reference imported. -/
def importTypeRef : TypeRef → Task TypeRef
  | .definition id => importer.importTypeDef id
  | .constructed signature => do return .constructed (← importTypeSig signature)
  | .external type => return .external type
  | .declared id => return .declared id
termination_by structural ref => ref

/-- A method reference imported. -/
def importMethodRef : MethodRef → Task MethodRef
  | .definition id => importer.importMethodDef id
  | .external owner name signature => do
    let owner ← importTypeRef owner
    return .external owner name (← importMethodSig signature)
  | .instantiated method args => do
    let method ← importMethodRef method
    return .instantiated method (← importTypeSigs args)
  | .declared id => return .declared id
termination_by structural ref => ref

/-- The owner of a generic variable imported. -/
def importOwner : VarOwner → Task VarOwner
  | .unbound => return .unbound
  | .deferred slot => return .deferred slot
  | .type owner => do return .type (← importTypeRef owner)
  | .method owner =>
    match owner with
    | .definition id => importer.importOwnerDef id
    | .external type name signature => do
      let type ← importTypeRef type
      return .method (.external type name (← importMethodSig signature))
    | .instantiated method args => do
      let method ← importMethodRef method
      return .method (.instantiated method (← importTypeSigs args))
    | .declared id => return .method (.declared id)
termination_by structural owner => owner

/-- A type signature imported. -/
def importTypeSig : TypeSig → Task TypeSig
  | .unknown => throw (.badSignature .importUnknown)
  | .sentinel => return .sentinel
  | .primitive type => return .primitive type
  | .classType type => do return .classType (← importTypeRef type)
  | .valueType type => do return .valueType (← importTypeRef type)
  | .genericVar kind index owner => do return .genericVar kind index (← importOwner owner)
  | .function signature => do return .function (← importMethodSig signature)
  | .applied generic args => do
    let generic ← importTypeSig generic
    return .applied generic (← importTypeSigs args)
  | .pointer inner => do return .pointer (← importTypeSig inner)
  | .byRef inner => do return .byRef (← importTypeSig inner)
  | .vector inner => do return .vector (← importTypeSig inner)
  | .pinned inner => do return .pinned (← importTypeSig inner)
  | .array inner shape => do return .array (← importTypeSig inner) shape
  | .required modifier inner => do
    let modifier ← importTypeRef modifier
    return .required modifier (← importTypeSig inner)
  | .optional modifier inner => do
    let modifier ← importTypeRef modifier
    return .optional modifier (← importTypeSig inner)
  | .inModule index inner => do return .inModule index (← importTypeSig inner)
termination_by structural signature => signature

/-- A method signature imported. -/
def importMethodSig : MethodSig → Task MethodSig
  | ⟨callConv, genericCount, result, params, varargs⟩ => do
    let result ← importTypeSig result
    let params ← importTypeSigs params
    return ⟨callConv, genericCount, result, params, ← importTypeSigs varargs⟩
termination_by structural signature => signature

/-- Type signatures imported, from left to right. -/
def importTypeSigs : List TypeSig → Task (List TypeSig)
  | [] => return []
  | signature :: rest => do
    let signature ← importTypeSig signature
    return signature :: (← importTypeSigs rest)
termination_by structural signatures => signatures

end

/-- A field reference imported. -/
def importFieldRef : FieldRef → Task FieldRef
  | .definition id => do
    let world ← get
    if world.defs.fields.has id.index
        && importer.ownsMember world (world.defs.field id).owner then
      match (world.importer importer).fields.get? (world.defs.token (.field id)) with
      | some declaration => return .declared declaration
      | none => throw (undeclared world (.field id))
    else return .definition id
  | .external owner name signature => do
    let owner ← importer.importTypeRef owner
    return .external owner name (← importer.importTypeSig signature)
  | .declared id => return .declared id

/-- A property signature imported. -/
def importPropertySig (signature : PropertySig) : Task PropertySig := do
  let type ← importer.importTypeSig signature.type
  return { signature with type, params := ← importer.importTypeSigs signature.params }

/-- A generic parameter with its constraints imported. -/
def importGenericParam (param : GenericParam) : Task GenericParam := do
  return { param with constraints := ← param.constraints.mapM importer.importTypeRef }

/-- An override with both methods imported. -/
def importOverride (override : Override) : Task Override := do
  let body ← importer.importMethodRef override.body
  return { body, declaration := ← importer.importMethodRef override.declaration }

end ImporterId

end Graft
