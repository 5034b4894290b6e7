import Graft.Definition.Attach
import Graft.Flags
import Graft.Source.Basic

/-!
# Modules as lists of types

The plainest form of a module: one line for each top-level type, with its namespace and its name
separated by a space. Nothing else of the module is kept. A name with a line break in it cannot be
written.
-/

namespace Graft.TypeList

/-- The lines of a text. A line ends with a line feed, and a carriage return right before it
belongs to the end; the last line may lack its end. -/
def lines : List Char → List (List Char)
  | [] => []
  | '\r' :: '\n' :: rest => [] :: lines rest
  | '\n' :: rest => [] :: lines rest
  | c :: rest =>
    match lines rest with
    | [] => [[c]]
    | line :: more => (c :: line) :: more

/-- The namespace and the name on a line: what stands before and after the first space. Without
a space there is no namespace. -/
def parseLine (line : List Char) : String × String :=
  match line.span (· ≠ ' ') with
  | (name, []) => ("", String.ofList name)
  | (namespaceName, _ :: name) => (String.ofList namespaceName, String.ofList name)

/-- A new module with the types that the bytes list. -/
def decode (name : String) (bytes : ByteArray) (defs : Definitions) :
    Except Error (DefId .module × Definitions) :=
  match String.fromUTF8? bytes with
  | none => .error .invalidEncoding
  | some text =>
    let (module, defs) := defs.makeModule { name }
    .ok (module, (lines text.toList).foldl (fun defs line =>
      let (namespaceName, name) := parseLine line
      (defs.addType module { namespaceName, name, flags := Flags.publicType }).2) defs)

/-- The line of a type. -/
def renderType (type : TypeDef) : Except Error String :=
  if type.name.contains '\n' then .error (.refused (.custom "cannot encode"))
  else .ok (type.namespaceName ++ " " ++ type.name ++ "\n")

/-- The lines of a module's top-level types. -/
def encode (defs : Definitions) (module : DefId .module) : Except Error ByteArray := do
  let lines ← (defs.module module).types.mapM fun id => renderType (defs.type id)
  return (String.join lines).toUTF8

/-- Modules as lists of types. -/
def codec : Codec := ⟨decode, encode⟩

end Graft.TypeList
