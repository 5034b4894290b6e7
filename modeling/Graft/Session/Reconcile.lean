import Graft.Flags.Merge
import Graft.Session.Locate

/-!
# Reconciling definitions

Making a located definition agree with its declaration. What a patch may change is changed: flags,
missing interfaces, overrides and accessors. What it may not change has to agree already:
signatures, the base type and the number of generic parameters. A definition that was just made
has all of its details from the declaration.
-/

namespace Graft.Search

open SessionTask

variable (search : Search)

/-- Merges declared flags into the flags of a definition. -/
def reconcileFlags (scheme : FlagScheme) (declaration : Declaration) (nested : Bool)
    (existing : UInt32) (declared : Option UInt32) (store : UInt32 → SessionTask Unit) :
    SessionTask Unit := do
  let some declared := declared | return
  let world ← world
  let merged := scheme.merge nested (world.decls.terms declaration).policy existing declared
  if merged = existing then return
  checkWritable declaration
  log (.flagsChanged (world.declSymbol declaration) (scheme.describe existing)
    (scheme.describe merged))
  store merged

/-- Makes the base type agree. -/
def reconcileBase (id : DeclId .type) (type : DefId .type) (made : Bool) : SessionTask Unit := do
  let some declared := ((← world).decls.type id).base | return
  let declared ← search.resolveTypeRef declared
  let world ← world
  let agrees := (world.defs.type type).base.any fun existing =>
    existing.same world.typeNames .declared declared
  if agrees then return
  if made then
    changeDefs (·.updateType type fun record => { record with base := some declared })
  else throw (.incompatible (world.declSymbol (.type id)) .baseType)

/-- Adds an interface that is missing. -/
def reconcileInterface (id : DeclId .type) (type : DefId .type) (declared : TypeRef) :
    SessionTask Unit := do
  let declared ← search.resolveTypeRef declared
  let world ← world
  let present := (world.defs.type type).interfaces.any fun existing =>
    existing.same world.typeNames .declared declared
  if present then return
  checkWritable (.type id)
  log (.interfaceAdded (world.defs.typeName type) (world.typeRefName declared))
  changeDefs (·.updateType type fun record =>
    { record with interfaces := record.interfaces ++ [declared] })

/-- Makes the generic parameters agree. -/
def reconcileGenerics (id : DeclId .type) (type : DefId .type) (made : Bool) :
    SessionTask Unit := do
  let some declared := ((← world).decls.type id).generics | return
  let declared ← declared.mapM search.resolveGenericParam
  if made then
    changeDefs (·.updateType type fun record => { record with generics := declared })
  else
    let world ← world
    let existing := (world.defs.type type).generics.length
    if existing ≠ declared.length then
      throw (.incompatible (world.declSymbol (.type id))
        (.genericCount existing declared.length))

/-- Makes a type agree with its declaration. -/
def reconcileType (id : DeclId .type) (type : DefId .type) (made : Bool) : SessionTask Unit := do
  unless made do
    let world ← world
    let record := world.defs.type type
    reconcileFlags .type (.type id) record.owner.isSome record.flags (world.decls.type id).flags
      fun flags => changeDefs (·.updateType type fun record => { record with flags })
  search.reconcileBase id type made
  ((← world).decls.type id).interfaces.forM (search.reconcileInterface id type)
  search.reconcileGenerics id type made

/-- Makes a field agree with its declaration. -/
def reconcileField (id : DeclId .field) (field : DefId .field) (made : Bool) :
    SessionTask Unit := do
  unless made do
    let declared ← search.resolveTypeSig ((← world).decls.field id).signature
    let world ← world
    let record := world.defs.field field
    unless record.signature.same world.typeNames .declared declared do
      throw (.incompatible (world.declSymbol (.field id)) .fieldSignature)
    reconcileFlags .field (.field id) false record.flags (world.decls.field id).flags
      fun flags => changeDefs (·.updateField field fun record => { record with flags })

/-- Adds an override that is missing. -/
def reconcileOverride (id : DeclId .method) (method : DefId .method) (declared : Override) :
    SessionTask Unit := do
  let declared ← search.resolveOverride declared
  let world ← world
  let present := (world.defs.method method).overrides.any fun existing =>
    existing.body.same world.typeNames .strict declared.body
      && existing.declaration.same world.typeNames .strict declared.declaration
  if present then return
  checkWritable (.method id)
  log (.overrideAdded (world.methodName method) (world.methodRefName declared.declaration))
  changeDefs (·.updateMethod method fun record =>
    { record with overrides := record.overrides ++ [declared] })

/-- Makes a method agree with its declaration. -/
def reconcileMethod (id : DeclId .method) (method : DefId .method) (made : Bool) :
    SessionTask Unit := do
  unless made do
    let declared ← search.resolveMethodSig ((← world).decls.method id).signature
    let world ← world
    let record := world.defs.method method
    unless record.signature.result.same world.typeNames .declared declared.result do
      throw (.incompatible (world.declSymbol (.method id)) .resultType)
    reconcileFlags .method (.method id) false record.flags (world.decls.method id).flags
      fun flags => changeDefs (·.updateMethod method fun record => { record with flags })
  ((← world).decls.method id).overrides.forM (search.reconcileOverride id method)

/-- Links an accessor that is missing. -/
def reconcileAccessor (declaration : Declaration) (definition : Definition)
    (present : World → Accessors) (store : (Accessors → Accessors) → SessionTask Unit)
    (role : AccessorRole) (declared : DeclId .method) : SessionTask Unit := do
  let method ← search.method declared
  let world ← world
  if (present world).plays role method then return
  checkWritable declaration
  log (.accessorLinked (world.defName definition) role (world.methodName method))
  store fun accessors => accessors.link role method

/-- Makes a property agree with its declaration. -/
def reconcileProperty (id : DeclId .property) (property : DefId .property) (made : Bool) :
    SessionTask Unit := do
  unless made do
    let declared ← search.resolvePropertySig ((← world).decls.property id).signature
    let world ← world
    let record := world.defs.property property
    unless record.signature.same world.typeNames .declared declared do
      throw (.incompatible (world.declSymbol (.property id)) .propertySignature)
    reconcileFlags .property (.property id) false record.flags (world.decls.property id).flags
      fun flags => changeDefs (·.updateProperty property fun record => { record with flags })
  ((← world).decls.property id).accessors.forM fun (role, declared) =>
    search.reconcileAccessor (.property id) (.property property)
      (fun world => (world.defs.property property).accessors)
      (fun change => changeDefs (·.updateProperty property fun record =>
        { record with accessors := change record.accessors }))
      role declared

/-- Makes an event agree with its declaration. -/
def reconcileEvent (id : DeclId .event) (event : DefId .event) (made : Bool) :
    SessionTask Unit := do
  unless made do
    let declared ← search.resolveTypeRef ((← world).decls.event id).type
    let world ← world
    let record := world.defs.event event
    unless record.type.same world.typeNames .declared declared do
      throw (.incompatible (world.declSymbol (.event id)) .eventType)
    reconcileFlags .event (.event id) false record.flags (world.decls.event id).flags
      fun flags => changeDefs (·.updateEvent event fun record => { record with flags })
  ((← world).decls.event id).accessors.forM fun (role, declared) =>
    search.reconcileAccessor (.event id) (.event event)
      (fun world => (world.defs.event event).accessors)
      (fun change => changeDefs (·.updateEvent event fun record =>
        { record with accessors := change record.accessors }))
      role declared

/-- Makes a located definition agree with its declaration. A module has nothing to agree on. -/
def reconcile (declaration : Declaration) (definition : Definition) (made : Bool) :
    SessionTask Unit :=
  match declaration, definition with
  | .type id, .type type => search.reconcileType id type made
  | .field id, .field field => search.reconcileField id field made
  | .method id, .method method => search.reconcileMethod id method made
  | .property id, .property property => search.reconcileProperty id property made
  | .event id, .event event => search.reconcileEvent id event made
  | _, _ => pure ()

end Graft.Search
