import Graft.Naming

/-!
# Declaring

Building the tree of declarations. Declaring something again answers the declaration that is
there; it is a conflict when the policy, or what may be done to the module or type, differs.
-/

namespace Graft

/-- The declarations that a patch consists of. -/
structure Patch where
  name : String
  modules : List (DeclId .module) := []
  deriving Inhabited, DecidableEq

namespace Declaration

/-- Whether a definition has to be made, given whether one was found; an error when the policy
forbids what was found. -/
def mustCreate (world : World) (declaration : Declaration) (found : Bool) : Except Error Bool :=
  match (world.decls.terms declaration).policy, found with
  | .failIfPresent, true => .error (.alreadyExists (world.declSymbol declaration))
  | .failIfPresent, false => .ok true
  | .failIfMissing, true => .ok false
  | .failIfMissing, false => .error (.notFound (world.declSymbol declaration))
  | .createIfMissing, found => .ok !found

/-- Refuses to change what is declared read-only. -/
def checkWritable (world : World) (declaration : Declaration) : Except Error Unit :=
  if (world.decls.terms declaration).readOnly then
    .error (.readOnly (world.declSymbol declaration))
  else .ok ()

end Declaration

namespace Task

/-- The declaration that is there, if its policy is the requested one, or else a new one. -/
def declareOnce {ι : Type} (policy : Policy) (existing : Option ι) (declaration : ι → Declaration)
    (make : Task ι) : Task ι := do
  match existing with
  | some id =>
    let world ← get
    let found := (world.decls.terms (declaration id)).policy
    if found ≠ policy then
      throw (.conflict (world.declSymbol (declaration id)) (.symbolPolicy found policy))
    return id
  | none => make

/-- Declares a module that belongs to no patch. -/
def declareModule (name : String) (policy : Policy) (readOnly : Bool) : Task (DeclId .module) :=
  makeDecl (·.makeModule { terms := ⟨policy, readOnly⟩, name })

/-- Declares a module of a patch. -/
def requireModule (patch : Patch) (name : String) (policy : Policy) (readOnly : Bool) :
    Task (DeclId .module × Patch) := do
  let decls ← onDecls id
  match patch.modules.find? fun id => (decls.module id).name == name with
  | some id =>
    let terms := (decls.module id).terms
    if terms.policy ≠ policy then
      throw (.conflict ⟨.module, name⟩ (.modulePolicy name terms.policy policy))
    if terms.readOnly ≠ readOnly then
      throw (.conflict ⟨.module, name⟩ (.moduleAccess name terms.readOnly readOnly))
    return (id, patch)
  | none =>
    let id ← declareModule name policy readOnly
    return (id, { patch with modules := patch.modules ++ [id] })

/-- Declares a top-level type. In a read-only module every type is read-only. -/
def declareType (module : DeclId .module) (namespaceName name : String) (policy : Policy)
    (readOnly : Bool) : Task (DeclId .type) := do
  let decls ← onDecls id
  let readOnly := readOnly || (decls.module module).terms.readOnly
  let existing := decls.findType? module namespaceName name
  let id ← declareOnce policy existing .type do
    let id ← makeDecl (·.makeType
      { terms := ⟨policy, readOnly⟩, place := .topLevel module namespaceName, name })
    changeDecls (·.updateModule module fun record => { record with types := record.types ++ [id] })
    return id
  let world ← get
  let found := (world.decls.type id).terms.readOnly
  if found ≠ readOnly then
    throw (.conflict (world.declSymbol (.type id)) (.typeAccess found readOnly))
  return id

/-- The terms of a new member of a type: the type's own access under the requested policy. -/
def memberTerms (owner : DeclId .type) (policy : Policy) : Task Terms := do
  return ⟨policy, (← onDecls (·.type owner)).terms.readOnly⟩

/-- Declares a nested type. -/
def declareNested (owner : DeclId .type) (name : String) (policy : Policy) :
    Task (DeclId .type) := do
  let decls ← onDecls id
  let existing := (decls.type owner).nested.find? fun id => (decls.type id).name == name
  declareOnce policy existing .type do
    let id ← makeDecl (·.makeType
      { terms := ← memberTerms owner policy, place := .nested owner, name })
    changeDecls (·.updateType owner fun record => { record with nested := record.nested ++ [id] })
    return id

/-- Declares a field. -/
def declareField (owner : DeclId .type) (name : String) (signature : TypeSig) (policy : Policy) :
    Task (DeclId .field) := do
  let decls ← onDecls id
  let existing := (decls.type owner).fields.find? fun id => (decls.field id).name == name
  declareOnce policy existing .field do
    let id ← makeDecl (·.makeField { terms := ← memberTerms owner policy, owner, name, signature })
    changeDecls (·.updateType owner fun record => { record with fields := record.fields ++ [id] })
    return id

/-- Declares a method. Methods of one name are told apart as overloads are. -/
def declareMethod (owner : DeclId .type) (name : String) (signature : MethodSig)
    (policy : Policy) : Task (DeclId .method) := do
  let world ← get
  let existing := (world.decls.type owner).methods.find? fun id =>
    (world.decls.method id).name == name
      && (world.decls.method id).signature.same world.typeNames .overload signature
  declareOnce policy existing .method do
    let id ← makeDecl (·.makeMethod { terms := ← memberTerms owner policy, owner, name, signature })
    changeDecls (·.updateType owner fun record => { record with methods := record.methods ++ [id] })
    return id

/-- Declares a property. -/
def declareProperty (owner : DeclId .type) (name : String) (signature : PropertySig)
    (policy : Policy) : Task (DeclId .property) := do
  let decls ← onDecls id
  let existing := (decls.type owner).properties.find? fun id => (decls.property id).name == name
  declareOnce policy existing .property do
    let id ← makeDecl (·.makeProperty
      { terms := ← memberTerms owner policy, owner, name, signature })
    changeDecls (·.updateType owner fun record =>
      { record with properties := record.properties ++ [id] })
    return id

/-- Declares an event. -/
def declareEvent (owner : DeclId .type) (name : String) (type : TypeRef) (policy : Policy) :
    Task (DeclId .event) := do
  let decls ← onDecls id
  let existing := (decls.type owner).events.find? fun id => (decls.event id).name == name
  declareOnce policy existing .event do
    let id ← makeDecl (·.makeEvent { terms := ← memberTerms owner policy, owner, name, type })
    changeDecls (·.updateType owner fun record => { record with events := record.events ++ [id] })
    return id

/-! ## Details -/

/-- Declares one more interface of a type, unless the very same one is declared already. -/
def declareInterface (type : DeclId .type) (interface : TypeRef) : Task Unit := do
  let world ← get
  let declared := (world.decls.type type).interfaces
  unless declared.any fun existing => existing.same world.typeNames .strict interface do
    changeDecls (·.updateType type fun record =>
      { record with interfaces := record.interfaces ++ [interface] })

/-- Declares one more override of a method. -/
def declareOverride (method : DeclId .method) (override : Override) : Task Unit :=
  changeDecls (·.updateMethod method fun record =>
    { record with overrides := record.overrides ++ [override] })

end Task

/-- The declared accessors with one more, unless the method plays that part already. -/
def DeclaredAccessors.add (accessors : DeclaredAccessors) (role : AccessorRole)
    (method : DeclId .method) : DeclaredAccessors :=
  if accessors.contains (role, method) then accessors else accessors ++ [(role, method)]

end Graft
