import Graft.Declaration.Declare
import Graft.Definition.Attach
import Graft.Definition.Members
import Graft.Flags
import Graft.Session.Reference

/-!
# Locating definitions

Finding the definition that a declaration stands for, or making it where the policy allows. The
declaring scope is located first, then the references in the declared signature are resolved, and
only then the members of the scope are looked at.
-/

namespace Graft

/-- The complaint about a declaration whose declaring scope is gone. -/
def detached (world : World) (declaration : Declaration) : Error :=
  .unresolved (.detached (world.declSymbol declaration))

namespace SessionTask

/-- Refuses to change what is declared read-only. -/
def checkWritable (declaration : Declaration) : SessionTask Unit := do
  ofExcept (declaration.checkWritable (← world))

/-- The definition found, or the one made by `create` where the policy allows. The answer also
says whether it was made. -/
def findOrCreate {ι : Type} (declaration : Declaration) (found : Option ι)
    (create : SessionTask ι) : SessionTask (ι × Bool) := do
  let create? ← ofExcept (declaration.mustCreate (← world) found.isSome)
  match found, create? with
  | some existing, false => return (existing, false)
  | _, _ =>
    checkWritable declaration
    let made ← create
    log (.created ((← world).declSymbol declaration))
    return (made, true)

end SessionTask

namespace Search

open SessionTask

variable (search : Search)

/-- The definition of the type around a declared member. -/
def ownerOf (declaration : Declaration) (owner : DeclId .type) : SessionTask (DefId .type) := do
  let world ← world
  match world.decls.living? owner with
  | some owner => search.type owner
  | none => throw (detached world declaration)

/-- Locates a module. A new module belongs to the session until it is saved. -/
def locateModule (id : DeclId .module) : SessionTask (DefId .module × Bool) := do
  let name := ((← world).decls.module id).name
  let found ← module? name
  findOrCreate (.module id) found do
    let made ← makeDef (·.makeModule { name })
    changeSession fun session => { session with modules := session.modules.insert name made }
    return made

/-- Locates a type by its name, and at top level by its namespace. -/
def locateType (id : DeclId .type) : SessionTask (DefId .type × Bool) := do
  let start ← world
  match start.decls.outer? id with
  | some outer =>
    let owner ← search.type outer
    let world ← world
    let decl := world.decls.type id
    let found := (world.defs.type owner).nested.find? fun other =>
      (world.defs.type other).name == decl.name
    findOrCreate (.type id) found
      (makeDef (·.addNested owner
        { name := decl.name, flags := decl.flags.getD Flags.nestedPrivate }))
  | none =>
    match start.decls.moduleOf? id with
    | none => throw (detached start (.type id))
    | some module =>
      let module ← search.module module
      let world ← world
      let decl := world.decls.type id
      let namespaceName := decl.namespaceName?.getD ""
      findOrCreate (.type id) (world.defs.findType? module namespaceName decl.name)
        (makeDef (·.addType module
          { namespaceName, name := decl.name, flags := decl.flags.getD 0 }))

/-- Locates a field by its name. -/
def locateField (id : DeclId .field) : SessionTask (DefId .field × Bool) := do
  let decl := (← world).decls.field id
  let owner ← search.ownerOf (.field id) decl.owner
  let signature ← search.resolveTypeSig decl.signature
  let world ← world
  let found := (world.defs.type owner).fields.find? fun other =>
    (world.defs.field other).name == decl.name
  findOrCreate (.field id) found
    (makeDef (·.addField owner
      { name := decl.name, flags := decl.flags.getD Flags.privateMember, signature }))

/-- The flags of a new method for which none are declared. -/
def defaultMethodFlags (signature : MethodSig) : UInt32 :=
  Flags.privateMember ||| Flags.hideBySig ||| (if signature.hasThis then 0 else Flags.static)

/-- Locates a method by its name and its signature as overloads are told apart. -/
def locateMethod (id : DeclId .method) : SessionTask (DefId .method × Bool) := do
  let decl := (← world).decls.method id
  let owner ← search.ownerOf (.method id) decl.owner
  let signature ← search.resolveMethodSig decl.signature
  let world ← world
  let found := (world.defs.type owner).methods.find? fun other =>
    let method := world.defs.method other
    method.name == decl.name && Comparison.overload.admits method.flags
      && method.signature.same world.typeNames .overload signature
  findOrCreate (.method id) found
    (makeDef (·.addMethod owner
      { name := decl.name, flags := decl.flags.getD (defaultMethodFlags signature), signature }))

/-- Locates a property by its name. -/
def locateProperty (id : DeclId .property) : SessionTask (DefId .property × Bool) := do
  let decl := (← world).decls.property id
  let owner ← search.ownerOf (.property id) decl.owner
  let signature ← search.resolvePropertySig decl.signature
  let world ← world
  let found := (world.defs.type owner).properties.find? fun other =>
    (world.defs.property other).name == decl.name
  findOrCreate (.property id) found
    (makeDef (·.addProperty owner { name := decl.name, flags := decl.flags.getD 0, signature }))

/-- Locates an event by its name. -/
def locateEvent (id : DeclId .event) : SessionTask (DefId .event × Bool) := do
  let decl := (← world).decls.event id
  let owner ← search.ownerOf (.event id) decl.owner
  let type ← search.resolveTypeRef decl.type
  let world ← world
  let found := (world.defs.type owner).events.find? fun other =>
    (world.defs.event other).name == decl.name
  findOrCreate (.event id) found
    (makeDef (·.addEvent owner { name := decl.name, flags := decl.flags.getD 0, type }))

/-- Locates whatever a declaration stands for. The answer also says whether it was made. -/
def locate : Declaration → SessionTask (Definition × Bool)
  | .module id => do let (found, made) ← locateModule id; return (.module found, made)
  | .type id => do let (found, made) ← search.locateType id; return (.type found, made)
  | .field id => do let (found, made) ← search.locateField id; return (.field found, made)
  | .method id => do let (found, made) ← search.locateMethod id; return (.method found, made)
  | .property id => do
    let (found, made) ← search.locateProperty id
    return (.property found, made)
  | .event id => do let (found, made) ← search.locateEvent id; return (.event found, made)

end Search

end Graft
