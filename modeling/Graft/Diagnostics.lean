import Graft.Install

/-!
# Diagnostics

Short descriptions of objects for people who look into a running program.
-/

namespace Graft

/-- A description of named parts. A description that leaves parts out ends in two dots. -/
def describeParts (name : String) (parts : List (String × String)) (complete : Bool) : String :=
  let fields := parts.map fun (label, value) => label ++ ": " ++ value
  name ++ " \x7b " ++ ", ".intercalate (if complete then fields else fields ++ [".."]) ++ " \x7d"

/-- A description of something that may be missing. -/
def describeOption : Option String → String
  | none => "None"
  | some text => "Some(" ++ text ++ ")"

namespace World

variable (world : World)

/-- A type reference, by its kind and its name. -/
def describeTypeRef (ref : TypeRef) : String :=
  let kind := match ref with
    | .definition _ => "Def"
    | .external _ => "External"
    | .declared _ => "Tracked"
    | .constructed _ => "Spec"
  "TypeRef::" ++ kind ++ "(" ++ world.typeRefName ref ++ ")"

/-- A field reference, by its kind and its name. -/
def describeFieldRef (ref : FieldRef) : String :=
  let kind := match ref with
    | .definition _ => "Def"
    | .external .. => "External"
    | .declared _ => "Tracked"
  "FieldRef::" ++ kind ++ "(" ++ world.fieldRefName ref ++ ")"

/-- A method reference, by its kind and its name. -/
def describeMethodRef (ref : MethodRef) : String :=
  let kind := match ref with
    | .definition _ => "Def"
    | .external .. => "External"
    | .declared _ => "Tracked"
    | .instantiated .. => "Spec"
  "MethodRef::" ++ kind ++ "(" ++ world.methodRefName ref ++ ")"

/-- A definition: its kind and name, and for modules, types and methods some more. -/
def describeDefinition (definition : Definition) : List String :=
  let name := world.defName definition
  let token := (world.defs.token definition).describe
  let details := match definition with
    | .module id =>
      [describeParts "ModuleDef"
        [("name", Text.quoted name), ("types", toString (world.defs.module id).types.length)]
        false]
    | .type id =>
      [describeParts "TypeDef"
        [("token", token), ("name", Text.quoted name),
         ("flags", FlagScheme.type.describe (world.defs.type id).flags)] false]
    | .method id =>
      [describeParts "MethodDef"
        [("token", token), ("name", Text.quoted name),
         ("flags", FlagScheme.method.describe (world.defs.method id).flags)] false]
    | _ => []
  (definition.kind.word ++ "(" ++ name ++ ")") :: details

/-- A declaration on one line: kind, name and policy. -/
def declarationLine (declaration : Declaration) : String :=
  (world.declSymbol declaration).text ++ " ("
    ++ (world.decls.terms declaration).policy.word ++ ")"

/-- The name of the record that a declaration is. -/
def recordName : Declaration → String
  | .module _ => "ModuleModification"
  | .type _ => "TypeModification"
  | .field _ => "FieldModification"
  | .method _ => "MethodModification"
  | .property _ => "PropertyModification"
  | .event _ => "EventModification"

/-- A declaration with what it states. -/
def describeTerms (declaration : Declaration) : String :=
  let terms := world.decls.terms declaration
  describeParts (recordName declaration)
    [("name", Text.quoted (world.declName declaration)), ("kind", terms.policy.word),
     ("read_only", toString terms.readOnly)] false

/-- A body to be transplanted, by its number of instructions. -/
def describeTransplant (graft : Transplant) : String :=
  describeParts "TransplantBody" [("instructions", toString graft.body.code.length)] false

/-- A declaration: on one line, with what it states, and for methods the body to be
transplanted. -/
def describeDeclaration (declaration : Declaration) : List String :=
  let details := match declaration with
    | .method id => [describeOption ((world.decls.method id).body.map describeTransplant)]
    | _ => []
  world.declarationLine declaration :: world.describeTerms declaration :: details

/-- A patch with its modules. -/
def describePatch (patch : Patch) : String :=
  let modules := patch.modules.map fun id => world.describeTerms (.module id)
  describeParts "StandardPatch"
    [("name", Text.quoted patch.name), ("modules", "[" ++ commaSeparated modules ++ "]")] true

/-- An importer with the numbers of its bindings. -/
def describeImporter (importer : Importer) : String :=
  describeParts "SignatureImporter"
    [("scope", Text.quoted (world.defs.module importer.scope).name),
     ("types", toString importer.types.size), ("fields", toString importer.fields.size),
     ("methods", toString importer.methods.size)] false

/-- A replacement in progress: the method, and the hidden method once it is made. -/
def describeContext (context : TransplantContext) : String :=
  let hidden := context.hidden.map fun id => Text.quoted (world.defs.method id).name
  describeParts "TransformContext"
    [("method", Text.quoted (world.methodName context.method)),
     ("hidden", describeOption hidden)] false

end World

/-- A session with the numbers of its modules and resolved declarations. -/
def Session.describe (session : Session) : String :=
  describeParts "ResolutionSession"
    [("modules", toString session.modules.size), ("resolved", toString session.resolved.size)]
    false

/-- A composition of stores with the number of its roots. -/
def StreamStore.describe : StreamStore → String
  | .leaf _ => "StreamLeaf"
  | .readOnly roots sink =>
    describeParts "ReadOnlyStreamSource"
      [("roots", toString roots.length), ("sink", toString sink.isSome)] true
  | .writable roots _ =>
    describeParts "WritableStreamSource" [("roots", toString roots.length)] false

end Graft
