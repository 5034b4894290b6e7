import Graft.Session.Reconcile

/-!
# Resolving declarations

A declaration is located, then reconciled, then remembered. While this goes on it may be asked for
again: once it is located the answer is its definition, before that it is a cycle. A failed
resolution is not remembered, and what it changed stays.
-/

namespace Graft

/-- The declarations that are being resolved, innermost first, each with its definition once that
is located. -/
abbrev InFlight := List (Declaration × Option Definition)

namespace SessionTask

/-- The definition that a declaration was resolved to before. -/
def remembered? (declaration : Declaration) : SessionTask (Option Definition) := do
  match (← get).session.resolved.get? declaration with
  | none => return none
  | some definition =>
    changeSession fun session => { session with hits := session.hits + 1 }
    log (.memoHit ((← world).declSymbol declaration))
    return some definition

/-- Remembers what a declaration was resolved to. -/
def remember (declaration : Declaration) (definition : Definition) : SessionTask Unit :=
  changeSession fun session =>
    { session with resolved := session.resolved.insert declaration definition }

/-- Resolves a declaration while others are being resolved. At most `depth` resolutions run
inside each other; a longer chain would have to repeat one. -/
def resolveWithin : Nat → InFlight → Search
  | 0, _, declaration => do throw (.cyclic ((← world).declSymbol declaration))
  | depth + 1, inFlight, declaration => do
    if let some definition ← remembered? declaration then
      return definition
    match inFlight.lookup declaration with
    | some (some definition) => return definition
    | some none => throw (.cyclic ((← world).declSymbol declaration))
    | none =>
      let (definition, made) ←
        Search.locate (resolveWithin depth ((declaration, none) :: inFlight)) declaration
      Search.reconcile (resolveWithin depth ((declaration, some definition) :: inFlight))
        declaration definition made
      remember declaration definition
      return definition

/-- Resolves a declaration. -/
def resolve : Search := fun declaration => do
  resolveWithin ((← world).decls.count + 1) [] declaration

end SessionTask

end Graft
