import Graft.Declaration.Walk
import Graft.Transplant.Body

/-!
# Installing patches

Applying patches to the modules of a source. All patches share one session. Of each patch the
read-only declarations may be resolved first, so that a missing dependency is noticed before
anything is changed; then modules and types are resolved, then members, and last the bodies are
replaced. When all patches have been applied the modules they touched are saved.
-/

namespace Graft

/-- How patches are installed. -/
structure InstallConfig where
  /-- Members of a patch need not be resolved one after another. The outcome is the same. -/
  parallel : Bool := false
  /-- Read-only declarations are resolved before all others. -/
  verifyDependencies : Bool := true
  /-- Touched modules are saved. -/
  persist : Bool := true
  /-- What the names of hidden methods add to the names of the methods. -/
  hiddenSuffix : String := TransplantContext.defaultSuffix
  deriving DecidableEq, Repr, Inhabited

namespace InstallConfig

/-- Everything one after another; the default. -/
def sequential : InstallConfig := {}

/-- Members need not be resolved one after another. -/
def concurrent : InstallConfig := { parallel := true }

/-- Nothing is saved. -/
def dryRun : InstallConfig := { persist := false }

end InstallConfig

/-- What an installation did. -/
structure InstallReport where
  /-- The patches, in the order in which they were installed. -/
  patches : List String := []
  /-- The saved modules, in the order of their names. -/
  saved : List String := []
  /-- How many declarations were resolved. -/
  resolved : Nat := 0
  /-- The full names of the hidden methods that were made. -/
  hidden : List String := []
  deriving DecidableEq, Repr, Inhabited

/-- Modules that were touched, in the order of their names. -/
abbrev Touched := List (String × DefId .module)

/-- The touched modules with one more, unless its name is there already. -/
def Touched.add (name : String) (module : DefId .module) : Touched → Touched
  | [] => [(name, module)]
  | entry :: rest =>
    if entry.1 = name then entry :: rest
    else if name < entry.1 then (name, module) :: entry :: rest
    else entry :: Touched.add name module rest

/-- Whether a declaration is of a module or a type, in which others are declared. -/
def Declaration.isContainer : Declaration → Bool
  | .module _ | .type _ => true
  | _ => false

/-- The declared method, if it is one. -/
def Declaration.method? : Declaration → Option (DeclId .method)
  | .method id => some id
  | _ => none

namespace SessionTask

/-- Resolves declarations one after another. -/
def resolveAll (declarations : List Declaration) : SessionTask Unit :=
  declarations.forM fun declaration => discard (resolve declaration)

/-- Replaces the bodies that are declared. The answer holds the full names of the hidden methods
that were made. -/
def transplantAll (declarations : List Declaration) (suffix : String) :
    SessionTask (List String) := do
  let hidden ← (declarations.filterMap (·.method?)).mapM fun id => do
    match ← transplant id suffix with
    | some hidden => return some ((← world).methodName hidden)
    | none => return none
  return hidden.filterMap id

/-- Notes the modules that a patch may have changed. -/
def touch (modules : List (DeclId .module)) (touched : Touched) : SessionTask Touched := do
  let decls := (← world).decls
  let writable := modules.filter fun id => !(decls.module id).terms.readOnly
  writable.foldlM (fun touched id => do
    return touched.add (decls.module id).name (← Search.module resolve id)) touched

/-- Installs one patch. The answer holds the names of the hidden methods that were made and the
modules touched so far. -/
def installPatch (config : InstallConfig) (patch : Patch) (touched : Touched) :
    SessionTask (List String × Touched) := do
  let decls := (← world).decls
  let declarations := patch.modules.flatMap decls.walk
  if config.verifyDependencies then
    resolveAll (declarations.filter fun declaration => (decls.terms declaration).readOnly)
  resolveAll (declarations.filter (·.isContainer))
  resolveAll (declarations.filter fun declaration => !declaration.isContainer)
  let hidden ← transplantAll declarations config.hiddenSuffix
  return (hidden, ← touch patch.modules touched)

/-- An operation whose failure is a failure of the patch. -/
def within {α : Type} (patch : String) (task : SessionTask α) : SessionTask α :=
  tryCatch task fun error => throw (.patchFailed patch error)

/-- Installs patches one after another. -/
def installAll (config : InstallConfig) (patches : List Patch) :
    SessionTask (InstallReport × Touched) :=
  patches.foldlM (fun (report, touched) patch => do
    let (hidden, touched) ← within patch.name (installPatch config patch touched)
    log (.patchInstalled patch.name)
    return ({ report with
      patches := report.patches ++ [patch.name]
      hidden := report.hidden ++ hidden }, touched)) ({}, [])

/-- Saves touched modules in the order of their names. -/
def saveAll (source : SourceId) (touched : Touched) : SessionTask Unit :=
  touched.forM fun (name, module) => do
    ofTask (Task.save source module)
    log (.moduleSaved name)

/-- Installs patches and saves what they touched. -/
def install (config : InstallConfig) (patches : List Patch) : SessionTask InstallReport := do
  let (report, touched) ← installAll config patches
  let report ←
    if config.persist then do
      saveAll (← get).session.source touched
      pure { report with saved := touched.map (·.1) }
    else pure report
  return { report with resolved := (← get).session.resolved.size }

end SessionTask

namespace Task

/-- An operation in a session, with what the session remembers afterwards. The session keeps what
it learned when the operation fails. -/
def inSession {α : Type} (session : Session) (task : SessionTask α) :
    Task (Except Error α × Session) :=
  modifyGet fun world =>
    let (outcome, state) := task.run.run { session, world }
    ((outcome, state.session), state.world)

/-- Installs patches into the modules of a source, in a session of their own. -/
def install (source : SourceId) (config : InstallConfig) (patches : List Patch) :
    Task InstallReport := do
  let (outcome, _) ← inSession { source } (SessionTask.install config patches)
  ofExcept outcome

end Task

end Graft
