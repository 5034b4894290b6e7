import Graft.Declaration.Declare

/-!
# Members of declarations

What a declared module or type holds, and what declarations of different kinds have in common.
-/

namespace Graft.Declarations

/-- What a module or a type declares of one kind: types at top level or nested, and members. -/
def members (decls : Declarations) : Declaration → SymbolKind → List Declaration
  | .module id, .type => (decls.module id).types.map .type
  | .type id, .type => (decls.type id).nested.map .type
  | .type id, .field => (decls.type id).fields.map .field
  | .type id, .method => (decls.type id).methods.map .method
  | .type id, .property => (decls.type id).properties.map .property
  | .type id, .event => (decls.type id).events.map .event
  | _, _ => []

/-- The declarations with the flags declared by one replaced. A module declares none. -/
def setFlags (decls : Declarations) (declaration : Declaration) (flags : UInt32) : Declarations :=
  match declaration with
  | .module _ => decls
  | .type id => decls.updateType id fun record => { record with flags := some flags }
  | .field id => decls.updateField id fun record => { record with flags := some flags }
  | .method id => decls.updateMethod id fun record => { record with flags := some flags }
  | .property id => decls.updateProperty id fun record => { record with flags := some flags }
  | .event id => decls.updateEvent id fun record => { record with flags := some flags }

/-- The declared accessors of a property or an event, the only declarations that have any. -/
def accessors (decls : Declarations) : Declaration → DeclaredAccessors
  | .property id => (decls.property id).accessors
  | .event id => (decls.event id).accessors
  | _ => []

/-- The declarations with one more accessor of a property or an event, unless the method plays
that part already. -/
def addAccessor (decls : Declarations) (declaration : Declaration) (role : AccessorRole)
    (method : DeclId .method) : Declarations :=
  match declaration with
  | .property id => decls.updateProperty id fun record =>
    { record with accessors := record.accessors.add role method }
  | .event id => decls.updateEvent id fun record =>
    { record with accessors := record.accessors.add role method }
  | _ => decls

end Graft.Declarations
