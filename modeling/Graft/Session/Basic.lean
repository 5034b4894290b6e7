import Graft.Source.Access

/-!
# Resolution sessions

A session remembers which modules it works on and what every declaration was resolved to, so that
a declaration means one definition for as long as the session lasts.
-/

namespace Graft

/-- What a session remembers. -/
structure Session where
  source : SourceId
  modules : Dictionary String (DefId .module) := {}
  /-- The definitions that declarations turned out to stand for. -/
  resolved : Dictionary Declaration Definition := {}
  /-- How often a declaration was asked for that was resolved before. -/
  hits : Nat := 0
  deriving Inhabited

/-- The world and the session at work in it. -/
structure SessionState where
  session : Session
  world : World
  deriving Inhabited

/-- An operation within a session. What it changed before it failed stays changed. -/
abbrev SessionTask := ExceptT Error (StateM SessionState)

namespace SessionTask

/-- The outcome of an operation on the world alone, which may be a failure. -/
def attempt {α : Type} (task : Task α) : SessionTask (Except Error α) :=
  modifyGet fun state =>
    let (outcome, world) := task.run.run state.world
    (outcome, { state with world })

/-- An operation on the world alone. -/
def ofTask {α : Type} (task : Task α) : SessionTask α := do
  match ← attempt task with
  | .ok value => return value
  | .error error => throw error

/-- The world as it is now. -/
def world : SessionTask World := do
  return (← get).world

/-- Changes the definitions. -/
def changeDefs (change : Definitions → Definitions) : SessionTask Unit :=
  ofTask (Task.changeDefs change)

/-- Makes something in the definitions. -/
def makeDef {α : Type} (make : Definitions → α × Definitions) : SessionTask α :=
  ofTask (Task.makeDef make)

/-- Writes an entry into the log. -/
def log (entry : LogEntry) : SessionTask Unit :=
  ofTask (Task.log entry)

/-- Changes what the session remembers. -/
def changeSession (change : Session → Session) : SessionTask Unit :=
  modify fun state => { state with session := change state.session }

/-- The module with a name: the one the session works on already, or else the one its source
has. A source without such a module is no failure. -/
def module? (name : String) : SessionTask (Option (DefId .module)) := do
  let session := (← get).session
  match session.modules.get? name with
  | some module => return some module
  | none =>
    match ← attempt (Task.load session.source name) with
    | .ok module =>
      changeSession fun session => { session with modules := session.modules.insert name module }
      return some module
    | .error (.moduleNotFound _) => return none
    | .error error => throw error

/-- The module with a name, which has to exist. -/
def module (name : String) : SessionTask (DefId .module) := do
  match ← module? name with
  | some module => return module
  | none => throw (.moduleNotFound name)

end SessionTask

end Graft
