import Graft.Liveness

/-!
# Workbenches

A workbench holds objects under names. Callers outside the library know objects by name only, and
a name is what keeps an object alive: when work is settled, everything that no name holds, directly
or through other things, is released.
-/

namespace Graft

/-- What a name stands for. -/
inductive Object where
  | definition (definition : Definition)
  | declaration (declaration : Declaration)
  | patch (patch : Patch)
  | source (id : SourceId)
  | session (session : Session)
  | importer (id : ImporterId)
  | store (store : StreamStore)
  | typeSig (signature : TypeSig)
  | methodSig (signature : MethodSig)

/-- What an object holds. Signatures hold nothing, and stores keep no definitions. -/
def Object.held : Object → List Holder
  | .definition it => [.definition it]
  | .declaration it => [.declaration it]
  | .patch it => it.held
  | .source id => [.source id]
  | .session it => it.held
  | .importer id => [.importer id]
  | .store _ | .typeSig _ | .methodSig _ => []

/-- Named objects in a world. -/
structure Workbench where
  world : World := {}
  objects : Dictionary String Object := {}

/-- The workbench without what no name holds. -/
def Workbench.settle (bench : Workbench) : Workbench :=
  { bench with world := bench.world.release (bench.objects.values.flatMap Object.held) }

/-- Why a request to a workbench was not met. -/
inductive Complaint where
  /-- The request makes no sense: a name or a value is not what was asked for. -/
  | malformed
  /-- The operation failed. -/
  | failed (error : Error)

/-- Work at a workbench. What was changed before a complaint stays changed. -/
abbrev Work := ExceptT Complaint (StateM Workbench)

namespace Work

/-- The world of the workbench. -/
def world : Work World := do
  return (← get).world

/-- A value that has to be there. -/
def demand {α : Type} (value : Option α) : Work α :=
  match value with
  | some value => return value
  | none => throw .malformed

/-- An outcome, whose failure is a complaint. -/
def ofResult {α : Type} (outcome : Except Error α) : Work α :=
  match outcome with
  | .ok value => return value
  | .error error => throw (.failed error)

/-- An operation on the world. -/
def ofTask {α : Type} (task : Task α) : Work α := do
  let (outcome, world) := task.run.run (← get).world
  modify fun bench => { bench with world }
  ofResult outcome

/-- Something new in the definitions. -/
def makeDef {α : Type} (make : Definitions → α × Definitions) : Work α :=
  ofTask (Task.makeDef make)

/-- A change of the definitions. -/
def changeDefs (change : Definitions → Definitions) : Work Unit :=
  ofTask (Task.changeDefs change)

/-- Something new in the declarations. -/
def makeDecl {α : Type} (make : Declarations → α × Declarations) : Work α :=
  ofTask (Task.makeDecl make)

/-- A change of the declarations. -/
def changeDecls (change : Declarations → Declarations) : Work Unit :=
  ofTask (Task.changeDecls change)

/-! ## Names -/

/-- The object that a name stands for. -/
def object (name : String) : Work Object := do
  demand ((← get).objects.get? name)

/-- Lets a name stand for an object, whatever it stood for before. -/
def put (name : String) (object : Object) : Work Unit :=
  modify fun bench => { bench with objects := bench.objects.insert name object }

/-- Takes a name off the workbench. The answer says whether it stood for anything. -/
def drop (name : String) : Work Bool :=
  modifyGet fun bench =>
    (bench.objects.has name, { bench with objects := bench.objects.erase name })

/-- The object that a name stands for, seen as one of a kind. -/
def pick {α : Type} (view : Object → Option α) (name : String) : Work α := do
  demand (view (← object name))

/-- The definition with a name. -/
def definition : String → Work Definition :=
  pick fun | .definition it => some it | _ => none

/-- The declaration with a name. -/
def declaration : String → Work Declaration :=
  pick fun | .declaration it => some it | _ => none

/-- The module definition with a name. -/
def moduleDef : String → Work (DefId .module) :=
  pick fun | .definition (.module id) => some id | _ => none

/-- The type definition with a name. -/
def typeDef : String → Work (DefId .type) :=
  pick fun | .definition (.type id) => some id | _ => none

/-- The field definition with a name. -/
def fieldDef : String → Work (DefId .field) :=
  pick fun | .definition (.field id) => some id | _ => none

/-- The method definition with a name. -/
def methodDef : String → Work (DefId .method) :=
  pick fun | .definition (.method id) => some id | _ => none

/-- The declaration of a module with a name. -/
def moduleDecl : String → Work (DeclId .module) :=
  pick fun | .declaration (.module id) => some id | _ => none

/-- The declaration of a type with a name. -/
def typeDecl : String → Work (DeclId .type) :=
  pick fun | .declaration (.type id) => some id | _ => none

/-- The declaration of a field with a name. -/
def fieldDecl : String → Work (DeclId .field) :=
  pick fun | .declaration (.field id) => some id | _ => none

/-- The declaration of a method with a name. -/
def methodDecl : String → Work (DeclId .method) :=
  pick fun | .declaration (.method id) => some id | _ => none

/-- The patch with a name. -/
def patch : String → Work Patch :=
  pick fun | .patch it => some it | _ => none

/-- The source with a name. -/
def source : String → Work SourceId :=
  pick fun | .source id => some id | _ => none

/-- The session with a name. -/
def session : String → Work Session :=
  pick fun | .session it => some it | _ => none

/-- The importer with a name. -/
def importer : String → Work ImporterId :=
  pick fun | .importer id => some id | _ => none

/-- The stream store with a name. -/
def store : String → Work StreamStore :=
  pick fun | .store it => some it | _ => none

/-- The leaf with a name. -/
def leaf : String → Work LeafId :=
  pick fun | .store (.leaf id) => some id | _ => none

/-- The type signature with a name. -/
def typeSig : String → Work TypeSig :=
  pick fun | .typeSig it => some it | _ => none

/-- The method signature with a name. -/
def methodSig : String → Work MethodSig :=
  pick fun | .methodSig it => some it | _ => none

/-- An operation in the session with a name, which keeps what the session learned. -/
def inSession {α : Type} (name : String) (task : SessionTask α) : Work α := do
  let (outcome, session) ← ofTask (Task.inSession (← session name) task)
  put name (.session session)
  ofResult outcome

end Work

end Graft
