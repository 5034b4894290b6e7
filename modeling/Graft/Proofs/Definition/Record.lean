import Graft.Definition.Attach
import Graft.Definition.Members

/-!
# One view of all definitions

A definition of any kind read as a `Record`: what it is from the moment it is made (`Nature`),
what a patch may change about it (`Details`), its body, and the lists of what it holds. Nothing of
a definition is missing from its record but the tokens that a module hands out.
-/

namespace Graft

/-- The signature of a member; a module and a type have none. -/
inductive Shape where
  | none
  | field (signature : TypeSig)
  | method (signature : MethodSig)
  | property (signature : PropertySig)
  | event (type : TypeRef)

/-- What a definition is from the moment it is made. -/
structure Nature where
  name : String
  namespaceName : String := ""
  shape : Shape := .none
  token : Option Token := none
  /-- The type that the definition was first declared in. -/
  owner : Option (DefId .type) := none
  /-- The module that a type was first entered in. -/
  module : Option (DefId .module) := none

/-- What a patch may change about a definition, apart from its body and from what it holds. -/
structure Details where
  flags : UInt32 := 0
  base : Option TypeRef := none
  interfaces : List TypeRef := []
  generics : List GenericParam := []
  overrides : List Override := []
  accessors : Accessors := []

/-- A definition of any kind. -/
structure Record where
  nature : Nature
  details : Details := {}
  body : Option Body := none
  /-- What the definition holds of each kind. -/
  members : SymbolKind → List Definition := fun _ => []

/-! ## Reading records -/

/-- A module as a record. -/
def ModuleDef.record (module : ModuleDef) : Record where
  nature := { name := module.name }
  members
    | .type => module.types.map .type
    | _ => []

/-- A type as a record. -/
def TypeDef.record (type : TypeDef) : Record where
  nature :=
    { name := type.name
      namespaceName := type.namespaceName
      token := type.token
      owner := type.owner
      module := type.module }
  details :=
    { flags := type.flags
      base := type.base
      interfaces := type.interfaces
      generics := type.generics }
  members
    | .type => type.nested.map .type
    | .field => type.fields.map .field
    | .method => type.methods.map .method
    | .property => type.properties.map .property
    | .event => type.events.map .event
    | .module => []

/-- A type with empty lists holds nothing. -/
theorem TypeDef.members_eq_nil {type : TypeDef} (hnested : type.nested = [])
    (hfields : type.fields = []) (hmethods : type.methods = [])
    (hproperties : type.properties = []) (hevents : type.events = []) :
    type.record.members = fun _ => [] := by
  funext kind
  cases kind <;> simp [record, *]

/-- A field as a record. -/
def FieldDef.record (field : FieldDef) : Record where
  nature :=
    { name := field.name, shape := .field field.signature, token := field.token, owner := field.owner }
  details := { flags := field.flags }

/-- A method as a record. -/
def MethodDef.record (method : MethodDef) : Record where
  nature :=
    { name := method.name
      shape := .method method.signature
      token := method.token
      owner := method.owner }
  details := { flags := method.flags, overrides := method.overrides }
  body := method.body

/-- A property as a record. -/
def PropertyDef.record (property : PropertyDef) : Record where
  nature :=
    { name := property.name
      shape := .property property.signature
      token := property.token
      owner := property.owner }
  details := { flags := property.flags, accessors := property.accessors }

/-- An event as a record. -/
def EventDef.record (event : EventDef) : Record where
  nature :=
    { name := event.name, shape := .event event.type, token := event.token, owner := event.owner }
  details := { flags := event.flags, accessors := event.accessors }

theorem SymbolKind.mem_all (kind : SymbolKind) : kind ∈ SymbolKind.all := by
  cases kind <;> decide

/-- The number of a definition among those of its kind. -/
def Definition.index : Definition → Nat
  | .module id => id.index
  | .type id => id.index
  | .field id => id.index
  | .method id => id.index
  | .property id => id.index
  | .event id => id.index

namespace Record

/-- The record with one more definition at the end of the list of its kind. -/
def add (added : Definition) (record : Record) : Record :=
  { record with
    members := fun kind =>
      if kind = added.kind then record.members kind ++ [added] else record.members kind }

/-- A record with one thing more in its lists, and the same otherwise. -/
theorem eq_add {longer record : Record} {added : Definition}
    (hsame : longer = { record with members := longer.members })
    (hmembers : ∀ kind, longer.members kind = (record.add added).members kind) :
    longer = record.add added := by
  rw [hsame, funext hmembers]
  rfl

/-- The record with its details changed. -/
def alter (change : Details → Details) (record : Record) : Record :=
  { record with details := change record.details }

/-- The record with another body. -/
def graft (body : Body) (record : Record) : Record :=
  { record with body := some body }

end Record

namespace Definitions

/-- The record of a definition, unless it is gone. -/
def record? (defs : Definitions) : Definition → Option Record
  | .module id => (defs.modules.get? id.index).map ModuleDef.record
  | .type id => (defs.types.get? id.index).map TypeDef.record
  | .field id => (defs.fields.get? id.index).map FieldDef.record
  | .method id => (defs.methods.get? id.index).map MethodDef.record
  | .property id => (defs.properties.get? id.index).map PropertyDef.record
  | .event id => (defs.events.get? id.index).map EventDef.record

/-- The number that the next definition of a kind gets. -/
def next (defs : Definitions) : SymbolKind → Nat
  | .module => defs.modules.next
  | .type => defs.types.next
  | .field => defs.fields.next
  | .method => defs.methods.next
  | .property => defs.properties.next
  | .event => defs.events.next

/-- Whether an identity was handed out. The definition may be gone since. -/
def Issued (defs : Definitions) (definition : Definition) : Prop :=
  definition.index < defs.next definition.kind

variable {defs defs' : Definitions}

theorem has_eq_isSome (definition : Definition) :
    defs.has definition = (defs.record? definition).isSome := by
  cases definition <;> simp [has, record?, Table.has]

theorem has_iff {definition : Definition} :
    defs.has definition = true ↔ ∃ record, defs.record? definition = some record := by
  rw [has_eq_isSome, Option.isSome_iff_exists]

theorem not_has_iff {definition : Definition} :
    defs.has definition = false ↔ defs.record? definition = none := by
  rw [has_eq_isSome, Option.isSome_eq_false_iff, Option.isNone_iff_eq_none]

/-- A definition that exists has an identity that was handed out. -/
theorem issued_of_has {definition : Definition} (h : defs.has definition = true) :
    defs.Issued definition := by
  unfold Issued
  refine Nat.lt_of_not_le fun hnext => ?_
  cases definition <;>
    simp_all [has, Table.has, next, Definition.index, Definition.kind,
      Table.get?_eq_none_of_next_le]

theorem issued_of_record {definition : Definition} {record : Record}
    (h : defs.record? definition = some record) : defs.Issued definition :=
  issued_of_has (has_iff.mpr ⟨record, h⟩)

/-- What a definition holds stands in its record; a definition that is gone holds nothing. -/
theorem members_eq (definition : Definition) (kind : SymbolKind) :
    defs.members definition kind = ((defs.record? definition).elim [] (·.members kind)) := by
  cases definition with
  | module id =>
      cases h : defs.modules.get? id.index <;> cases kind <;>
        simp [members, record?, Definitions.module, h, ModuleDef.record, default,
          instInhabitedModuleDef.default]
  | type id =>
      cases h : defs.types.get? id.index <;> cases kind <;>
        simp [members, record?, Definitions.type, h, TypeDef.record, default,
          instInhabitedTypeDef.default]
  | field id =>
      cases h : defs.fields.get? id.index <;> simp [members, record?, h, FieldDef.record]
  | method id =>
      cases h : defs.methods.get? id.index <;> simp [members, record?, h, MethodDef.record]
  | property id =>
      cases h : defs.properties.get? id.index <;> simp [members, record?, h, PropertyDef.record]
  | event id =>
      cases h : defs.events.get? id.index <;> simp [members, record?, h, EventDef.record]

/-- The body of a method stands in its record; a method that is gone has none. -/
theorem body_eq (id : DefId .method) :
    (defs.method id).body = (defs.record? (.method id)).bind (·.body) := by
  cases h : defs.methods.get? id.index <;>
    simp [Definitions.method, record?, h, MethodDef.record, default, instInhabitedMethodDef.default]

/-- The module of a type is the one it was entered in, if that still exists. -/
theorem moduleOf?_eq (id : DefId .type) :
    defs.moduleOf? id =
      ((defs.record? (.type id)).bind (·.nature.module)).filter fun module =>
        defs.has (.module module) := by
  cases h : defs.types.get? id.index <;>
    simp [moduleOf?, Definitions.type, record?, has, h, TypeDef.record, default,
      instInhabitedTypeDef.default]

/-- The type around a nested type is the one it was declared in, if that still exists. -/
theorem outer?_eq (id : DefId .type) :
    defs.outer? id =
      ((defs.record? (.type id)).bind (·.nature.owner)).filter fun owner =>
        defs.has (.type owner) := by
  cases h : defs.types.get? id.index <;>
    simp [outer?, Definitions.type, record?, has, h, TypeDef.record, default,
      instInhabitedTypeDef.default]

/-! ## Records of definitions that exist -/

theorem record?_module {id : DefId .module} (h : defs.has (.module id) = true) :
    defs.record? (.module id) = some (defs.module id).record := by
  obtain ⟨module, hmodule⟩ := Option.isSome_iff_exists.mp h
  simp [record?, Definitions.module, hmodule]

theorem record?_type {id : DefId .type} (h : defs.has (.type id) = true) :
    defs.record? (.type id) = some (defs.type id).record := by
  obtain ⟨type, htype⟩ := Option.isSome_iff_exists.mp h
  simp [record?, Definitions.type, htype]

theorem record?_field {id : DefId .field} (h : defs.has (.field id) = true) :
    defs.record? (.field id) = some (defs.field id).record := by
  obtain ⟨field, hfield⟩ := Option.isSome_iff_exists.mp h
  simp [record?, Definitions.field, hfield]

theorem record?_method {id : DefId .method} (h : defs.has (.method id) = true) :
    defs.record? (.method id) = some (defs.method id).record := by
  obtain ⟨method, hmethod⟩ := Option.isSome_iff_exists.mp h
  simp [record?, Definitions.method, hmethod]

theorem record?_property {id : DefId .property} (h : defs.has (.property id) = true) :
    defs.record? (.property id) = some (defs.property id).record := by
  obtain ⟨property, hproperty⟩ := Option.isSome_iff_exists.mp h
  simp [record?, Definitions.property, hproperty]

theorem record?_event {id : DefId .event} (h : defs.has (.event id) = true) :
    defs.record? (.event id) = some (defs.event id).record := by
  obtain ⟨event, hevent⟩ := Option.isSome_iff_exists.mp h
  simp [record?, Definitions.event, hevent]

end Definitions

end Graft
