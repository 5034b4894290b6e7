import Graft.Symbol

/-!
# Log entries

What operations report while they run: how important an entry is and how it reads. Names are
those that the symbols had when the entry was made.
-/

namespace Graft

/-- How important an entry is. -/
inductive LogLevel where
  | trace | debug | info | warn
  deriving DecidableEq, Repr, Inhabited

/-- The word for a level. -/
def LogLevel.word : LogLevel → String
  | trace => "TRACE"
  | debug => "DEBUG"
  | info => "INFO"
  | warn => "WARN"

/-- Something that happened. -/
inductive LogEntry where
  | memoHit (symbol : Symbol)
  | created (symbol : Symbol)
  | flagsChanged (symbol : Symbol) (before after : String)
  | interfaceAdded (type interface : String)
  | overrideAdded (method declaration : String)
  | accessorLinked (owner : String) (role : AccessorRole) (method : String)
  | bodyReplaced (method : String)
  | baseSynthesized (hidden method : String)
  | replaying (count : Nat) (method : String)
  | patchImported (types methods : Nat) (module : String)
  | patchInstalled (patch : String)
  | moduleSaved (module : String)
  | writeRedirected (name : String)
  | writeRefused (name : String)
  deriving DecidableEq, Repr, Inhabited

namespace LogEntry

/-- How important an entry is. -/
def level : LogEntry → LogLevel
  | memoHit _ | replaying .. => .trace
  | created _ | flagsChanged .. | interfaceAdded .. | overrideAdded .. | accessorLinked ..
  | bodyReplaced _ | baseSynthesized .. | patchImported .. => .debug
  | patchInstalled _ | moduleSaved _ => .info
  | writeRedirected _ | writeRefused _ => .warn

/-- How an entry reads. -/
def text : LogEntry → String
  | memoHit symbol => "memo hit for " ++ symbol.text
  | created symbol => "created " ++ symbol.text
  | flagsChanged symbol before after =>
    symbol.text ++ ": attributes " ++ before ++ " -> " ++ after
  | interfaceAdded type interface => type ++ ": added interface " ++ interface
  | overrideAdded method declaration => method ++ ": added override of " ++ declaration
  | accessorLinked owner role method => owner ++ ": linked " ++ role.word ++ " " ++ method
  | bodyReplaced method => "replaced body of " ++ method
  | baseSynthesized hidden method =>
    "synthesized " ++ hidden ++ " with the original body of " ++ method
  | replaying count method =>
    "replaying " ++ toString count ++ " continuations for " ++ method
  | patchImported types methods module =>
    "imported " ++ toString types ++ " types and " ++ toString methods ++ " methods from "
      ++ module
  | patchInstalled patch => "installed patch " ++ patch
  | moduleSaved module => "saved module " ++ module
  | writeRedirected name => "write to " ++ name ++ " redirected to a memory sink"
  | writeRefused name => "write to " ++ name ++ " refused by a read-only stream source"

/-- The level and the text of an entry. -/
def line (entry : LogEntry) : String :=
  entry.level.word ++ " " ++ entry.text

end LogEntry

end Graft
