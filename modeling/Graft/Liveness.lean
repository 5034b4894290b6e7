import Graft.Install
import Std.Data.HashSet

/-!
# Liveness

An object exists as long as someone holds it. Modules hold their types, types their members, and
so on downwards; links upwards and references in signatures and bodies hold nothing. What is held
neither by the given roots nor by anything they hold, directly or indirectly, is released, and
references to it lead nowhere from then on.
-/

namespace Graft

/-- Something that may hold other things. -/
inductive Holder where
  | definition (definition : Definition)
  | declaration (declaration : Declaration)
  | source (id : SourceId)
  | importer (id : ImporterId)
  deriving DecidableEq, Hashable

namespace World

variable (world : World)

/-- What a transformer holds. -/
def heldByTransformer : Transformer → List Holder
  | .plain => []
  | .redirecting _ scope => scope.toList.map fun id => .definition (.module id)
  | .importing importer _ => [.importer importer]

/-- What a type definition holds. -/
def heldByType (type : TypeDef) : List Definition :=
  type.nested.map .type ++ type.fields.map .field ++ type.methods.map .method
    ++ type.properties.map .property ++ type.events.map .event

/-- What a declaration of a type holds. -/
def heldByTypeDecl (type : TypeDecl) : List Declaration :=
  type.nested.map .type ++ type.fields.map .field ++ type.methods.map .method
    ++ type.properties.map .property ++ type.events.map .event

/-- What something holds directly. -/
def held : Holder → List Holder
  | .definition (.module id) =>
    ((world.defs.module id).types.map Definition.type
      ++ (world.defs.module id).tokens.values).map .definition
  | .definition (.type id) => (heldByType (world.defs.type id)).map .definition
  | .definition _ => []
  | .declaration (.module id) =>
    (world.decls.module id).types.map fun type => .declaration (.type type)
  | .declaration (.type id) => (heldByTypeDecl (world.decls.type id)).map .declaration
  | .declaration (.field _) => []
  | .declaration (.method id) =>
    ((world.decls.method id).body.map (·.transformer)).elim [] heldByTransformer
  | .declaration (.property id) =>
    (world.decls.property id).accessors.map fun entry => .declaration (.method entry.2)
  | .declaration (.event id) =>
    (world.decls.event id).accessors.map fun entry => .declaration (.method entry.2)
  | .source id =>
    match world.source id with
    | .memory modules _ => modules.values.map fun module => .definition (.module module)
    | .streamed .. => []
  | .importer id => [.definition (.module (world.importer id).scope)]

/-- The things in `seen` and everything that is held by those in `frontier` through at most
`rounds` others. -/
def spread : Nat → List Holder → Std.HashSet Holder → Std.HashSet Holder
  | 0, _, seen => seen
  | rounds + 1, frontier, seen =>
    if frontier.isEmpty then seen
    else
      let (seen, next) := (frontier.flatMap world.held).foldl
        (fun (seen, next) holder =>
          if seen.contains holder then (seen, next)
          else (seen.insert holder, holder :: next)) (seen, [])
      spread rounds next seen

/-- The number of things that can hold others. -/
def holderCount : Nat :=
  world.defs.modules.next + world.defs.types.next + world.defs.fields.next
    + world.defs.methods.next + world.defs.properties.next + world.defs.events.next
    + world.decls.count + world.sources.next + world.importers.next

/-- Everything that the roots hold, directly or indirectly, and the roots. -/
def reachable (roots : List Holder) : Std.HashSet Holder :=
  world.spread (world.holderCount + 1) roots (.ofList roots)

/-- The world without the definitions and declarations that the roots do not hold. -/
def release (roots : List Holder) : World :=
  let kept := world.reachable roots
  let keepsDef (definition : Definition) := kept.contains (.definition definition)
  let keepsDecl (declaration : Declaration) := kept.contains (.declaration declaration)
  { world with
    defs := {
      modules := world.defs.modules.retain fun index => keepsDef (.module ⟨index⟩)
      types := world.defs.types.retain fun index => keepsDef (.type ⟨index⟩)
      fields := world.defs.fields.retain fun index => keepsDef (.field ⟨index⟩)
      methods := world.defs.methods.retain fun index => keepsDef (.method ⟨index⟩)
      properties := world.defs.properties.retain fun index => keepsDef (.property ⟨index⟩)
      events := world.defs.events.retain fun index => keepsDef (.event ⟨index⟩) }
    decls := {
      modules := world.decls.modules.retain fun index => keepsDecl (.module ⟨index⟩)
      types := world.decls.types.retain fun index => keepsDecl (.type ⟨index⟩)
      fields := world.decls.fields.retain fun index => keepsDecl (.field ⟨index⟩)
      methods := world.decls.methods.retain fun index => keepsDecl (.method ⟨index⟩)
      properties := world.decls.properties.retain fun index => keepsDecl (.property ⟨index⟩)
      events := world.decls.events.retain fun index => keepsDecl (.event ⟨index⟩) } }

end World

/-- What a patch holds. -/
def Patch.held (patch : Patch) : List Holder :=
  patch.modules.map fun id => .declaration (.module id)

/-- What a session holds: its source, the modules it works on and all it resolved. -/
def Session.held (session : Session) : List Holder :=
  .source session.source
    :: (session.modules.values.map Definition.module ++ session.resolved.values).map .definition

end Graft
