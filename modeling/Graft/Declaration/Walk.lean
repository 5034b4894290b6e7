import Graft.Declaration.Basic
import Graft.Forest

/-!
# Walking through declarations

All declarations of a module in the order in which they are installed: the module, then each type
followed by its fields, methods, properties and events, and after these its nested types.
-/

namespace Graft.Declarations

/-- A type and its members. -/
def withMembers (decls : Declarations) (id : DeclId .type) : List Declaration :=
  let record := decls.type id
  .type id :: record.fields.map .field ++ record.methods.map .method
    ++ record.properties.map .property ++ record.events.map .event

/-- All types of a module, each before the types nested in it. No more types are below a
top-level one than there are types at all. -/
def allTypes (decls : Declarations) (module : DeclId .module) : List (DeclId .type) :=
  let roots := (decls.module module).types
  Forest.visit (fun id => (decls.type id).nested) (roots.length * decls.types.next) roots

/-- A module and everything in it. -/
def walk (decls : Declarations) (module : DeclId .module) : List Declaration :=
  .module module :: (decls.allTypes module).flatMap decls.withMembers

end Graft.Declarations
