/-!
# Rosters

A roster is a list that only grows at its end, and whose entries are looked up before a new one is
made. Every definition keeps its members in rosters, so the position of an entry never changes.
-/

namespace Graft.Roster

variable {α : Type} {m : Type → Type} [Monad m]

/-- The first entry that satisfies `accepts`, or else the entry made by `create`, appended. The
result holds the entry, whether it is new, and the roster afterwards. When `create` fails, so does
the whole. -/
def findOrInsert (entries : List α) (accepts : α → Bool) (create : m α) :
    m (α × Bool × List α) :=
  match entries.find? accepts with
  | some entry => pure (entry, false, entries)
  | none => do
    let entry ← create
    pure (entry, true, entries ++ [entry])

/-- Appends the entry that `create` makes from the present entries. -/
def insertWith (entries : List α) (create : List α → m α) : m (α × List α) := do
  let entry ← create entries
  pure (entry, entries ++ [entry])

end Graft.Roster
