import Graft.Declaration.Declare
import Graft.Definition.Members
import Graft.Import.Manifest
import Graft.Import.Signature

/-!
# Importing patch modules

Turning a patch module and its manifest into a patch. Types are declared first, each before the
types nested in it; then the members of all types, with their signatures imported; and last the
details, which may refer to any of them: flags, interfaces, generic parameters, overrides,
accessors and bodies.
-/

namespace Graft

/-- A definition of a patch module and the declaration that it stands for. -/
structure Imported (kind : SymbolKind) where
  definition : DefId kind
  intent : Intent
  declaration : DeclId kind

/-- What an import works with. -/
structure ImportJob where
  importer : ImporterId
  module : DefId .module
  manifest : Manifest
  /-- The required modules by name. -/
  targets : Dictionary String (DeclId .module)

namespace ImportJob

variable (job : ImportJob)

/-! ## Types -/

/-- The types of the patch module in the order in which they are declared, each with the intent
of the type around it. No more types are below a top-level one than there are types at all. -/
def typesToDeclare (defs : Definitions) : List (DefId .type × Option Intent) :=
  let roots := (defs.module job.module).types.map (·, none)
  let children := fun (id, outer) =>
    (defs.type id).nested.map
      (·, job.manifest.intentOf (defs.token (.type id)) outer)
  Forest.visit children (roots.length * defs.types.next) roots

/-- The module in which a top-level type lands: the one that the manifest names for it, or else
the only one that is required. -/
def targetModule (world : World) (id : DefId .type) : Except Error (DeclId .module) :=
  let mapping := job.manifest.mappings.get? (world.defs.token (.type id))
  let name? := (mapping.bind (·.targetModule)).or <|
    match job.manifest.required with
    | [(name, _)] => some name
    | _ => none
  match name? with
  | none => .error (.refused (.noTargetModule (world.defs.typeName id)))
  | some name =>
    match job.targets.get? name with
    | some module => .ok module
    | none => .error (.refused (.targetNotRequired (world.defs.typeName id) name))

/-- Declares the type that a patch type stands for. -/
def declareType (id : DefId .type) (intent : Intent) : Task (DeclId .type) := do
  let world ← get
  let token := world.defs.token (.type id)
  let record := world.defs.type id
  match world.defs.outer? id with
  | some outer =>
    match (world.importer job.importer).types.get? (world.defs.token (.type outer)) with
    | none => throw (.unresolved (.undeclaredOuter (world.defs.typeName outer) record.name))
    | some owner =>
      Task.declareNested owner (job.manifest.targetName token record.name) intent.policy
  | none =>
    let fullName := job.manifest.targetName token (world.defs.typeName id)
    let (namespaceName, name) := Text.unqualify fullName
    let module ← ofExcept (job.targetModule world id)
    Task.declareType module namespaceName name intent.policy false

/-- Declares the types that have an intent. -/
def declareTypes : Task (List (Imported .type)) := do
  let types := job.typesToDeclare (← get).defs
  let declared ← types.mapM fun (id, outer) => do
    let token := (← get).defs.token (.type id)
    match job.manifest.intentOf token outer with
    | none => return none
    | some intent =>
      let declaration ← job.declareType id intent
      job.importer.bindType token declaration
      return some ⟨id, intent, declaration⟩
  return declared.filterMap id

/-! ## Members -/

/-- Declares the members that have an intent, with what `declare` does for one of them. -/
def declareMembers {kind : SymbolKind} (members : List (DefId kind))
    (toDefinition : DefId kind → Definition) (outer : Intent)
    (declare : DefId kind → Token → Intent → Task (DeclId kind)) :
    Task (List (Imported kind)) := do
  let declared ← members.mapM fun id => do
    let token := (← get).defs.token (toDefinition id)
    match job.manifest.intentOf token (some outer) with
    | none => return none
    | some intent =>
      let declaration ← declare id token intent
      return some ⟨id, intent, declaration⟩
  return declared.filterMap id

/-- Declares a field and lets the patch field stand for it. -/
def declareField (owner : DeclId .type) (id : DefId .field) (token : Token) (intent : Intent) :
    Task (DeclId .field) := do
  let record := (← get).defs.field id
  let signature ← job.importer.importTypeSig record.signature
  let declaration ← Task.declareField owner (job.manifest.targetName token record.name) signature
    intent.policy
  job.importer.bindField token declaration
  return declaration

/-- Declares a method and lets the patch method stand for it. -/
def declareMethod (owner : DeclId .type) (id : DefId .method) (token : Token) (intent : Intent) :
    Task (DeclId .method) := do
  let record := (← get).defs.method id
  let signature ← job.importer.importMethodSig record.signature
  let declaration ← Task.declareMethod owner (job.manifest.targetName token record.name) signature
    intent.policy
  job.importer.bindMethod token declaration
  return declaration

/-- Declares a property. -/
def declareProperty (owner : DeclId .type) (id : DefId .property) (token : Token)
    (intent : Intent) : Task (DeclId .property) := do
  let record := (← get).defs.property id
  let signature ← job.importer.importPropertySig record.signature
  Task.declareProperty owner (job.manifest.targetName token record.name) signature intent.policy

/-- Declares an event. -/
def declareEvent (owner : DeclId .type) (id : DefId .event) (token : Token) (intent : Intent) :
    Task (DeclId .event) := do
  let record := (← get).defs.event id
  let type ← job.importer.importTypeRef record.type
  Task.declareEvent owner (job.manifest.targetName token record.name) type intent.policy

/-- Everything that is declared for members of types. -/
structure Members where
  fields : List (Imported .field) := []
  methods : List (Imported .method) := []
  properties : List (Imported .property) := []
  events : List (Imported .event) := []

/-- Declares the members of one type, after those declared before. -/
def declareMembersOf (before : Members) (type : Imported .type) : Task Members := do
  let record := (← get).defs.type type.definition
  let owner := type.declaration
  let fields ← job.declareMembers record.fields .field type.intent (job.declareField owner)
  let methods ← job.declareMembers record.methods .method type.intent (job.declareMethod owner)
  let properties ←
    job.declareMembers record.properties .property type.intent (job.declareProperty owner)
  let events ← job.declareMembers record.events .event type.intent (job.declareEvent owner)
  return {
    fields := before.fields ++ fields
    methods := before.methods ++ methods
    properties := before.properties ++ properties
    events := before.events ++ events }

/-! ## Details -/

/-- Declares the details of a type. -/
def detailType (type : Imported .type) : Task Unit := do
  let record := (← get).defs.type type.definition
  Task.changeDecls (·.updateType type.declaration fun decl =>
    { decl with flags := some record.flags })
  record.interfaces.forM fun interface => do
    Task.declareInterface type.declaration (← job.importer.importTypeRef interface)
  unless record.generics.isEmpty do
    let generics ← record.generics.mapM job.importer.importGenericParam
    Task.changeDecls (·.updateType type.declaration fun decl =>
      { decl with generics := some generics })

/-- Declares the details of a field. -/
def detailField (field : Imported .field) : Task Unit := do
  let record := (← get).defs.field field.definition
  Task.changeDecls (·.updateField field.declaration fun decl =>
    { decl with flags := some record.flags })

/-- Declares the details of a method. -/
def detailMethod (method : Imported .method) : Task Unit := do
  let record := (← get).defs.method method.definition
  Task.changeDecls (·.updateMethod method.declaration fun decl =>
    { decl with flags := some record.flags })
  record.overrides.forM fun override => do
    Task.declareOverride method.declaration (← job.importer.importOverride override)
  match record.body, method.intent.carriesBody with
  | some body, true =>
    let transformer := .importing job.importer job.manifest.bases
    Task.changeDecls (·.updateMethod method.declaration fun decl =>
      { decl with body := some { body, transformer } })
  | _, _ => pure ()

/-- The accessors of a patch member that stand for declared methods. -/
def declaredAccessors (world : World) (accessors : Accessors) : DeclaredAccessors :=
  (accessors.living world.defs).filterMap fun (role, method) =>
    ((world.importer job.importer).methods.get? (world.defs.token (.method method))).map (role, ·)

/-- Declares the details of a property. -/
def detailProperty (property : Imported .property) : Task Unit := do
  let world ← get
  let record := world.defs.property property.definition
  let accessors := job.declaredAccessors world record.accessors
  Task.changeDecls (·.updateProperty property.declaration fun decl =>
    { decl with
      flags := some record.flags
      accessors := accessors.foldl (fun held (role, method) => held.add role method)
        decl.accessors })

/-- Declares the details of an event. -/
def detailEvent (event : Imported .event) : Task Unit := do
  let world ← get
  let record := world.defs.event event.definition
  let accessors := job.declaredAccessors world record.accessors
  Task.changeDecls (·.updateEvent event.declaration fun decl =>
    { decl with
      flags := some record.flags
      accessors := accessors.foldl (fun held (role, method) => held.add role method)
        decl.accessors })

end ImportJob

namespace Task

/-- A new importer for a patch module. -/
def makeImporter (scope : DefId .module) : Task ImporterId :=
  modifyGet fun world =>
    (⟨world.importers.next⟩, { world with importers := world.importers.push { scope } })

/-- Declares the modules that a patch needs. -/
def requireModules (patch : Patch) (required : List (String × Bool)) :
    Task (Patch × Dictionary String (DeclId .module)) :=
  required.foldlM (fun (patch, targets) (name, readOnly) => do
    let (module, patch) ← requireModule patch name .failIfMissing readOnly
    return (patch, targets.insert name module)) (patch, {})

/-- The patch that a patch module and its manifest describe. -/
def importPatch (module : DefId .module) (manifest : Manifest) : Task Patch := do
  let importer ← makeImporter module
  let moduleName := ((← get).defs.module module).name
  let (patch, targets) ←
    requireModules { name := manifest.name.getD moduleName } manifest.required
  let job : ImportJob := { importer, module, manifest, targets }
  let types ← job.declareTypes
  let members ← types.foldlM job.declareMembersOf {}
  types.forM job.detailType
  members.fields.forM ImportJob.detailField
  members.methods.forM job.detailMethod
  members.properties.forM job.detailProperty
  members.events.forM job.detailEvent
  log (.patchImported types.length members.methods.length moduleName)
  return patch

end Task

end Graft
