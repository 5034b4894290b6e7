import Graft.Roster
import Graft.Session.Resolve

/-!
# Transplant contexts

The method whose body is being replaced, with its base body: the one that it had when the
replacement began. The first call to the base body makes a hidden method that holds it; later calls
go to the same hidden method.
-/

namespace Graft

/-- A replacement in progress. -/
structure TransplantContext where
  method : DefId .method
  /-- The body that the method had when the replacement began. -/
  base : Option Body
  suffix : String
  hidden : Option (DefId .method) := none
  deriving Inhabited

/-- An operation during a replacement. -/
abbrev TransplantTask := StateT TransplantContext SessionTask

namespace TransplantContext

/-- The suffix of hidden methods, unless another one is asked for. -/
def defaultSuffix : String := "<Base>$"

/-- The beginning of a replacement of a method's body. -/
def start (world : World) (method : DefId .method) (suffix : String) : TransplantContext where
  method
  base := (world.defs.method method).body
  suffix

end TransplantContext

/-- The first name made of `stem` and a number from `index` on that is not taken, among `tries`
numbers. -/
def firstUnusedName (stem : String) (taken : List String) : Nat → Nat → Option String
  | 0, _ => none
  | tries + 1, index =>
    let candidate := stem ++ toString index
    if taken.contains candidate then firstUnusedName stem taken tries (index + 1)
    else some candidate

/-- The name of a new hidden method: `stem` followed by the least number that makes it a name no
method has. Of one name more than there are methods, one is not taken. -/
def hiddenName (stem : String) (taken : List String) : Except Error String :=
  match firstUnusedName stem taken (taken.length + 1) 0 with
  | some name => .ok name
  | none => .error (.refused (.noUnusedName stem))

namespace TransplantTask

open SessionTask

/-- The hidden method that holds the base body. It is made on the first call: with the name
and the signature of the method, out of reach by name, and as static as the method. -/
def baseMethod : TransplantTask (DefId .method) := do
  let context ← get
  if let some hidden := context.hidden then
    return hidden
  let world ← world
  let record := world.defs.method context.method
  match world.defs.living? record.owner with
  | none => throw (.unresolved (.unattached (world.methodName context.method)))
  | some owner =>
    let taken := (world.defs.type owner).methods.map fun id => (world.defs.method id).name
    let name ← ofExcept (hiddenName (record.name ++ context.suffix) taken)
    let hidden ← makeDef (·.addMethod owner
      { name
        flags := record.flags &&& Flags.static
        signature := record.signature
        body := context.base })
    let world ← SessionTask.world
    log (.baseSynthesized (world.methodName hidden) (world.methodName context.method))
    set { context with hidden := some hidden }
    return hidden

end TransplantTask

end Graft
