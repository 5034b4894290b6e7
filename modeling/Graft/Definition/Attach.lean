import Graft.Definition.Basic

/-!
# Attaching definitions

How a definition becomes part of a module: it learns what declares it, and it gets a token by
which the module finds it. A definition that was attached before keeps its first token and its
first declaring scope; the module gives out a row for it all the same.
-/

namespace Graft.Definitions

/-! ## Tokens -/

/-- The next token of a module's table. -/
def allocate (defs : Definitions) (module : DefId .module) (table : TableId) :
    Token × Definitions :=
  let rows := (defs.module module).rows.bump table
  (Token.ofParts table (rows.count table),
    defs.updateModule module fun record => { record with rows })

/-- The next token of a module's table, which from now on names the definition. -/
def register (defs : Definitions) (module : DefId .module) (table : TableId)
    (definition : Definition) : Token × Definitions :=
  let (token, defs) := defs.allocate module table
  (token, defs.updateModule module fun record =>
    { record with tokens := record.tokens.insert token definition })

/-- The definition that a token of a module names. -/
def lookup (defs : Definitions) (module : DefId .module) (token : Token) : Option Definition :=
  (defs.module module).tokens.get? token

/-- Gives a field a token of a module. -/
def enterField (defs : Definitions) (module : DefId .module) (id : DefId .field) : Definitions :=
  let (token, defs) := defs.register module .field (.field id)
  defs.updateField id fun record => { record with token := record.token.or (some token) }

/-- Gives a method a token of a module. -/
def enterMethod (defs : Definitions) (module : DefId .module) (id : DefId .method) :
    Definitions :=
  let (token, defs) := defs.register module .methodDef (.method id)
  defs.updateMethod id fun record => { record with token := record.token.or (some token) }

/-- Gives a property a token of a module. -/
def enterProperty (defs : Definitions) (module : DefId .module) (id : DefId .property) :
    Definitions :=
  let (token, defs) := defs.register module .property (.property id)
  defs.updateProperty id fun record => { record with token := record.token.or (some token) }

/-- Gives an event a token of a module. -/
def enterEvent (defs : Definitions) (module : DefId .module) (id : DefId .event) : Definitions :=
  let (token, defs) := defs.register module .event (.event id)
  defs.updateEvent id fun record => { record with token := record.token.or (some token) }

/-- Gives tokens of a module to a type, then to its members, and then to its nested types in the
same way, as far as `depth` levels go. -/
def enterTypeWithin (module : DefId .module) : Nat → Definitions → DefId .type → Definitions
  | 0, defs, _ => defs
  | depth + 1, defs, id =>
    let (token, defs) := defs.register module .typeDef (.type id)
    let defs := defs.updateType id fun record =>
      { record with
        token := record.token.or (some token)
        module := record.module.or (some module) }
    let record := defs.type id
    let defs := record.fields.foldl (enterField · module ·) defs
    let defs := record.methods.foldl (enterMethod · module ·) defs
    let defs := record.properties.foldl (enterProperty · module ·) defs
    let defs := record.events.foldl (enterEvent · module ·) defs
    record.nested.foldl (enterTypeWithin module depth) defs

/-- Gives tokens of a module to a type and everything in it. -/
def enterType (defs : Definitions) (module : DefId .module) (id : DefId .type) : Definitions :=
  enterTypeWithin module (defs.types.next + 1) defs id

/-! ## Declaring scopes -/

/-- Makes a type nested in another one, without listing it there. -/
def attachNested (defs : Definitions) (owner id : DefId .type) : Definitions :=
  let defs := defs.updateType id fun record => { record with owner := record.owner.or (some owner) }
  match defs.moduleOf? owner with
  | some module => defs.enterType module id
  | none => defs

/-- Makes a field a member of a type, without listing it there. -/
def attachField (defs : Definitions) (owner : DefId .type) (id : DefId .field) : Definitions :=
  let defs := defs.updateField id fun record =>
    { record with owner := record.owner.or (some owner) }
  match defs.moduleOf? owner with
  | some module => defs.enterField module id
  | none => defs

/-- Makes a method a member of a type, without listing it there. -/
def attachMethod (defs : Definitions) (owner : DefId .type) (id : DefId .method) : Definitions :=
  let defs := defs.updateMethod id fun record =>
    { record with owner := record.owner.or (some owner) }
  match defs.moduleOf? owner with
  | some module => defs.enterMethod module id
  | none => defs

/-- Makes a property a member of a type, without listing it there. -/
def attachProperty (defs : Definitions) (owner : DefId .type) (id : DefId .property) :
    Definitions :=
  let defs := defs.updateProperty id fun record =>
    { record with owner := record.owner.or (some owner) }
  match defs.moduleOf? owner with
  | some module => defs.enterProperty module id
  | none => defs

/-- Makes an event a member of a type, without listing it there. -/
def attachEvent (defs : Definitions) (owner : DefId .type) (id : DefId .event) : Definitions :=
  let defs := defs.updateEvent id fun record =>
    { record with owner := record.owner.or (some owner) }
  match defs.moduleOf? owner with
  | some module => defs.enterEvent module id
  | none => defs

/-! ## Adding

A new definition is made, attached and listed last. -/

/-- A new top-level type. -/
def addType (defs : Definitions) (module : DefId .module) (type : TypeDef) :
    DefId .type × Definitions :=
  let (id, defs) := defs.makeType type
  let defs := defs.enterType module id
  (id, defs.updateModule module fun record => { record with types := record.types ++ [id] })

/-- A new nested type. -/
def addNested (defs : Definitions) (owner : DefId .type) (type : TypeDef) :
    DefId .type × Definitions :=
  let (id, defs) := defs.makeType type
  let defs := defs.attachNested owner id
  (id, defs.updateType owner fun record => { record with nested := record.nested ++ [id] })

/-- A new field. -/
def addField (defs : Definitions) (owner : DefId .type) (field : FieldDef) :
    DefId .field × Definitions :=
  let (id, defs) := defs.makeField field
  let defs := defs.attachField owner id
  (id, defs.updateType owner fun record => { record with fields := record.fields ++ [id] })

/-- A new method. -/
def addMethod (defs : Definitions) (owner : DefId .type) (method : MethodDef) :
    DefId .method × Definitions :=
  let (id, defs) := defs.makeMethod method
  let defs := defs.attachMethod owner id
  (id, defs.updateType owner fun record => { record with methods := record.methods ++ [id] })

/-- A new property. -/
def addProperty (defs : Definitions) (owner : DefId .type) (property : PropertyDef) :
    DefId .property × Definitions :=
  let (id, defs) := defs.makeProperty property
  let defs := defs.attachProperty owner id
  (id, defs.updateType owner fun record =>
    { record with properties := record.properties ++ [id] })

/-- A new event. -/
def addEvent (defs : Definitions) (owner : DefId .type) (event : EventDef) :
    DefId .event × Definitions :=
  let (id, defs) := defs.makeEvent event
  let defs := defs.attachEvent owner id
  (id, defs.updateType owner fun record => { record with events := record.events ++ [id] })

end Graft.Definitions
