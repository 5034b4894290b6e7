import Graft.Proofs.Definition.Record

/-!
# How operations change records

Every operation on the definitions is one of three as far as records go: it changes one record
(`Changes`), it makes one that is not listed anywhere (`Makes`), or it makes one and lists it last
(`Adds`). The lemmas of the later sections say so for each operation.
-/

namespace Graft

theorem DefId.eq_mk_iff {kind : SymbolKind} {id : DefId kind} {index : Nat} :
    id = ⟨index⟩ ↔ id.index = index := by
  cases id
  simp

theorem DefId.index_eq_iff {kind : SymbolKind} {id other : DefId kind} :
    id.index = other.index ↔ other = id := by
  rw [← DefId.eq_mk_iff, eq_comm]

namespace Definitions

/-- The tokens that a module has given out, with the number of rows of each table. -/
def ledger (defs : Definitions) (module : DefId .module) : RowCounts × Dictionary Token Definition :=
  ((defs.module module).rows, (defs.module module).tokens)

/-- The module that gives a token to what is made inside a definition. -/
def host? (defs : Definitions) : Definition → Option (DefId .module)
  | .module id => some id
  | .type id => defs.moduleOf? id
  | _ => none

/-- Nothing changes but the record of one definition. -/
structure Changes (defs defs' : Definitions) (changed : Definition) (change : Record → Record) :
    Prop where
  record? : ∀ definition, defs'.record? definition =
    if definition = changed then (defs.record? definition).map change
    else defs.record? definition
  next : ∀ kind, defs'.next kind = defs.next kind
  ledger : ∀ module, changed ≠ .module module → defs'.ledger module = defs.ledger module

/-- Nothing changes but that there is one definition more. -/
structure Makes (defs defs' : Definitions) (made : Definition) (record : Record) : Prop where
  fresh : made.index = defs.next made.kind
  record? : ∀ definition, defs'.record? definition =
    if definition = made then some record else defs.record? definition
  next : ∀ kind, defs'.next kind =
    if kind = made.kind then defs.next kind + 1 else defs.next kind

/-- Nothing changes but that there is one definition more, at the end of its parent's list. -/
structure Adds (defs defs' : Definitions) (parent made : Definition) (record : Record) : Prop where
  fresh : made.index = defs.next made.kind
  record? : ∀ definition, defs'.record? definition =
    if definition = made then some record
    else if definition = parent then (defs.record? definition).map (Record.add made)
    else defs.record? definition
  next : ∀ kind, defs'.next kind =
    if kind = made.kind then defs.next kind + 1 else defs.next kind
  ledger : ∀ module, defs.host? parent ≠ some module → defs'.ledger module = defs.ledger module

variable {defs defs' defs'' : Definitions} {made parent changed : Definition} {record : Record}
  {change : Record → Record}

theorem Makes.record_made (h : defs.Makes defs' made record) :
    defs'.record? made = some record := by
  simp [h.record?]

theorem Adds.record_made (h : defs.Adds defs' parent made record) :
    defs'.record? made = some record := by
  simp [h.record?]

/-- Changing the definition just made is making the changed one. -/
theorem Makes.changes_made (h : defs.Makes defs' made record)
    (hchange : defs'.Changes defs'' made change) : defs.Makes defs'' made (change record) where
  fresh := h.fresh
  record? definition := by
    rw [hchange.record?, h.record?]
    split <;> simp
  next kind := by rw [hchange.next, h.next]

/-- A change that shows in no record takes nothing back. -/
theorem Makes.changes_id (h : defs.Makes defs' made record)
    (hchange : defs'.Changes defs'' changed id) : defs.Makes defs'' made record where
  fresh := h.fresh
  record? definition := by
    rw [hchange.record?, Option.map_id, id_eq, ite_self, h.record?]
  next kind := by rw [hchange.next, h.next]

/-- Making a definition and listing it is adding it. -/
theorem Makes.adds (h : defs.Makes defs' made record) (hparent : parent ≠ made)
    (hledger : ∀ module, defs.host? parent ≠ some module →
      defs'.ledger module = defs.ledger module)
    (hchange : defs'.Changes defs'' parent (Record.add made)) :
    defs.Adds defs'' parent made record where
  fresh := h.fresh
  record? definition := by
    rw [hchange.record?, h.record?]
    by_cases hmade : definition = made
    · simp [hmade, hparent.symm]
    · simp [hmade]
  next kind := by rw [hchange.next, h.next]
  ledger module hhost := by
    have hne : parent ≠ .module module := by
      rintro rfl
      exact hhost rfl
    rw [hchange.ledger module hne, hledger module hhost]

/-- A definition that exists is not the one that is made next. -/
theorem ne_of_has_of_fresh (h : defs.has parent = true)
    (hfresh : made.index = defs.next made.kind) : parent ≠ made := by
  rintro rfl
  have hissued := issued_of_has h
  unfold Issued at hissued
  omega

/-! ## Changing one record -/

section Update

theorem ledger_updateModule {id other : DefId .module} {update : ModuleDef → ModuleDef}
    (hne : other ≠ id) : (defs.updateModule id update).ledger other = defs.ledger other := by
  have hindex : id.index ≠ other.index := fun heq => hne (DefId.index_eq_iff.mp heq)
  simp [ledger, Definitions.module, updateModule, hindex]

theorem updateModule_changes {id : DefId .module} {update : ModuleDef → ModuleDef}
    (h : ∀ module, (update module).record = change module.record) :
    defs.Changes (defs.updateModule id update) (.module id) change where
  record? definition := by
    cases definition with
    | module other =>
        simp only [record?, updateModule, Table.get?_update, Definition.module.injEq, DefId.index_eq_iff]
        split <;> simp [Option.map_map, Function.comp_def, h]
    | _ => simp [record?, updateModule]
  next kind := by cases kind <;> simp [next, updateModule]
  ledger other hne := ledger_updateModule fun heq => hne (congrArg Definition.module heq.symm)

theorem updateType_changes {id : DefId .type} {update : TypeDef → TypeDef}
    (h : ∀ type, (update type).record = change type.record) :
    defs.Changes (defs.updateType id update) (.type id) change where
  record? definition := by
    cases definition with
    | type other =>
        simp only [record?, updateType, Table.get?_update, Definition.type.injEq, DefId.index_eq_iff]
        split <;> simp [Option.map_map, Function.comp_def, h]
    | _ => simp [record?, updateType]
  next kind := by cases kind <;> simp [next, updateType]
  ledger _ _ := rfl

theorem updateField_changes {id : DefId .field} {update : FieldDef → FieldDef}
    (h : ∀ field, (update field).record = change field.record) :
    defs.Changes (defs.updateField id update) (.field id) change where
  record? definition := by
    cases definition with
    | field other =>
        simp only [record?, updateField, Table.get?_update, Definition.field.injEq, DefId.index_eq_iff]
        split <;> simp [Option.map_map, Function.comp_def, h]
    | _ => simp [record?, updateField]
  next kind := by cases kind <;> simp [next, updateField]
  ledger _ _ := rfl

theorem updateMethod_changes {id : DefId .method} {update : MethodDef → MethodDef}
    (h : ∀ method, (update method).record = change method.record) :
    defs.Changes (defs.updateMethod id update) (.method id) change where
  record? definition := by
    cases definition with
    | method other =>
        simp only [record?, updateMethod, Table.get?_update, Definition.method.injEq, DefId.index_eq_iff]
        split <;> simp [Option.map_map, Function.comp_def, h]
    | _ => simp [record?, updateMethod]
  next kind := by cases kind <;> simp [next, updateMethod]
  ledger _ _ := rfl

theorem updateProperty_changes {id : DefId .property} {update : PropertyDef → PropertyDef}
    (h : ∀ property, (update property).record = change property.record) :
    defs.Changes (defs.updateProperty id update) (.property id) change where
  record? definition := by
    cases definition with
    | property other =>
        simp only [record?, updateProperty, Table.get?_update, Definition.property.injEq,
          DefId.index_eq_iff]
        split <;> simp [Option.map_map, Function.comp_def, h]
    | _ => simp [record?, updateProperty]
  next kind := by cases kind <;> simp [next, updateProperty]
  ledger _ _ := rfl

theorem updateEvent_changes {id : DefId .event} {update : EventDef → EventDef}
    (h : ∀ event, (update event).record = change event.record) :
    defs.Changes (defs.updateEvent id update) (.event id) change where
  record? definition := by
    cases definition with
    | event other =>
        simp only [record?, updateEvent, Table.get?_update, Definition.event.injEq, DefId.index_eq_iff]
        split <;> simp [Option.map_map, Function.comp_def, h]
    | _ => simp [record?, updateEvent]
  next kind := by cases kind <;> simp [next, updateEvent]
  ledger _ _ := rfl

end Update

/-! ## Making an unlisted definition -/

/-- A new module lists nothing. -/
theorem members_new_module (name : String) :
    (ModuleDef.record { name }).members = fun _ => [] := by
  funext kind
  cases kind <;> rfl

theorem makeModule_makes (defs : Definitions) (module : ModuleDef) :
    defs.Makes (defs.makeModule module).2 (.module (defs.makeModule module).1) module.record where
  fresh := rfl
  record? definition := by
    cases definition with
    | module other =>
        simp only [makeModule, record?, Table.get?_push, Definition.module.injEq, DefId.eq_mk_iff]
        split <;> rfl
    | _ => simp [record?, makeModule]
  next kind := by cases kind <;> simp [next, makeModule, Definition.kind]

theorem makeType_makes (defs : Definitions) (type : TypeDef) :
    defs.Makes (defs.makeType type).2 (.type (defs.makeType type).1) type.record where
  fresh := rfl
  record? definition := by
    cases definition with
    | type other =>
        simp only [makeType, record?, Table.get?_push, Definition.type.injEq, DefId.eq_mk_iff]
        split <;> rfl
    | _ => simp [record?, makeType]
  next kind := by cases kind <;> simp [next, makeType, Definition.kind]

theorem makeField_makes (defs : Definitions) (field : FieldDef) :
    defs.Makes (defs.makeField field).2 (.field (defs.makeField field).1) field.record where
  fresh := rfl
  record? definition := by
    cases definition with
    | field other =>
        simp only [makeField, record?, Table.get?_push, Definition.field.injEq, DefId.eq_mk_iff]
        split <;> rfl
    | _ => simp [record?, makeField]
  next kind := by cases kind <;> simp [next, makeField, Definition.kind]

theorem makeMethod_makes (defs : Definitions) (method : MethodDef) :
    defs.Makes (defs.makeMethod method).2 (.method (defs.makeMethod method).1) method.record where
  fresh := rfl
  record? definition := by
    cases definition with
    | method other =>
        simp only [makeMethod, record?, Table.get?_push, Definition.method.injEq, DefId.eq_mk_iff]
        split <;> rfl
    | _ => simp [record?, makeMethod]
  next kind := by cases kind <;> simp [next, makeMethod, Definition.kind]

theorem makeProperty_makes (defs : Definitions) (property : PropertyDef) :
    defs.Makes (defs.makeProperty property).2 (.property (defs.makeProperty property).1)
      property.record where
  fresh := rfl
  record? definition := by
    cases definition with
    | property other =>
        simp only [makeProperty, record?, Table.get?_push, Definition.property.injEq, DefId.eq_mk_iff]
        split <;> rfl
    | _ => simp [record?, makeProperty]
  next kind := by cases kind <;> simp [next, makeProperty, Definition.kind]

theorem makeEvent_makes (defs : Definitions) (event : EventDef) :
    defs.Makes (defs.makeEvent event).2 (.event (defs.makeEvent event).1) event.record where
  fresh := rfl
  record? definition := by
    cases definition with
    | event other =>
        simp only [makeEvent, record?, Table.get?_push, Definition.event.injEq, DefId.eq_mk_iff]
        split <;> rfl
    | _ => simp [record?, makeEvent]
  next kind := by cases kind <;> simp [next, makeEvent, Definition.kind]

/-! ## Attaching

What the record of a new definition learns: its token, and the type that it is declared in. Tokens
show in the record of the definition that gets one, and nowhere else. -/

/-- A record with a token, unless it has one. -/
def enterRecord (token : Token) (record : Record) : Record :=
  { record with nature := { record.nature with token := record.nature.token.or (some token) } }

/-- A record with a declaring type, unless it has one. -/
def ownRecord (owner : DefId .type) (record : Record) : Record :=
  { record with nature := { record.nature with owner := record.nature.owner.or (some owner) } }

theorem register_changes (defs : Definitions) (module : DefId .module) (table : TableId)
    (definition : Definition) :
    defs.Changes (defs.register module table definition).2 (.module module) id := by
  have hallocate : defs.Changes (defs.allocate module table).2 (.module module) id :=
    updateModule_changes fun _ => rfl
  have hregister : (defs.allocate module table).2.Changes
      (defs.register module table definition).2 (.module module) id :=
    updateModule_changes fun _ => rfl
  exact ⟨fun other => by simp [hregister.record?, hallocate.record?],
    fun kind => by rw [hregister.next, hallocate.next],
    fun other hne => by rw [hregister.ledger other hne, hallocate.ledger other hne]⟩

/-- Whether no module but one gives out tokens. -/
def KeepsLedgers (defs defs' : Definitions) (module : DefId .module) : Prop :=
  ∀ other, other ≠ module → defs'.ledger other = defs.ledger other

theorem KeepsLedgers.trans {module : DefId .module} (h : defs.KeepsLedgers defs' module)
    (h' : defs'.KeepsLedgers defs'' module) : defs.KeepsLedgers defs'' module :=
  fun other hne => (h' other hne).trans (h other hne)

theorem KeepsLedgers.foldl {α : Type} {module : DefId .module} {items : List α}
    {step : Definitions → α → Definitions}
    (h : ∀ defs item, KeepsLedgers defs (step defs item) module) (defs : Definitions) :
    defs.KeepsLedgers (items.foldl step defs) module := by
  induction items generalizing defs with
  | nil => exact fun _ _ => rfl
  | cons item items ih => exact (h defs item).trans (ih (step defs item))

theorem register_ledgers (defs : Definitions) (module : DefId .module) (table : TableId)
    (definition : Definition) :
    defs.KeepsLedgers (defs.register module table definition).2 module :=
  fun other hne => (register_changes defs module table definition).ledger other fun heq =>
    hne (Definition.module.inj heq).symm

theorem enterField_ledgers (defs : Definitions) (module : DefId .module) (id : DefId .field) :
    defs.KeepsLedgers (defs.enterField module id) module :=
  register_ledgers defs module .field (.field id)

theorem enterMethod_ledgers (defs : Definitions) (module : DefId .module) (id : DefId .method) :
    defs.KeepsLedgers (defs.enterMethod module id) module :=
  register_ledgers defs module .methodDef (.method id)

theorem enterProperty_ledgers (defs : Definitions) (module : DefId .module)
    (id : DefId .property) : defs.KeepsLedgers (defs.enterProperty module id) module :=
  register_ledgers defs module .property (.property id)

theorem enterEvent_ledgers (defs : Definitions) (module : DefId .module) (id : DefId .event) :
    defs.KeepsLedgers (defs.enterEvent module id) module :=
  register_ledgers defs module .event (.event id)

/-- A type and all in it get their tokens from one module, however deep types are nested. -/
theorem enterTypeWithin_ledgers (module : DefId .module) (depth : Nat) (defs : Definitions)
    (id : DefId .type) : defs.KeepsLedgers (enterTypeWithin module depth defs id) module := by
  induction depth generalizing defs id with
  | zero => exact fun _ _ => rfl
  | succ depth ih =>
      have hregister := register_ledgers defs module .typeDef (.type id)
      simp only [enterTypeWithin]
      refine KeepsLedgers.trans ?_ (KeepsLedgers.foldl ih _)
      refine KeepsLedgers.trans ?_ (KeepsLedgers.foldl (enterEvent_ledgers · module ·) _)
      refine KeepsLedgers.trans ?_ (KeepsLedgers.foldl (enterProperty_ledgers · module ·) _)
      refine KeepsLedgers.trans ?_ (KeepsLedgers.foldl (enterMethod_ledgers · module ·) _)
      refine KeepsLedgers.trans ?_ (KeepsLedgers.foldl (enterField_ledgers · module ·) _)
      exact hregister

theorem enterType_ledgers (defs : Definitions) (module : DefId .module) (id : DefId .type) :
    defs.KeepsLedgers (defs.enterType module id) module :=
  enterTypeWithin_ledgers module _ defs id

/-- What is entered in the module that hosts its parent leaves the ledgers of others alone. -/
theorem KeepsLedgers.of_host {module : DefId .module} (h : defs.KeepsLedgers defs' module)
    (hhost : defs.host? parent = some module) (other : DefId .module)
    (hother : defs.host? parent ≠ some other) : defs'.ledger other = defs.ledger other :=
  h other fun heq => hother (heq ▸ hhost)

/-- A type without nested types and members enters a module alone. -/
theorem enterType_makes (module : DefId .module) {id : DefId .type} {type : TypeDef}
    (h : defs.Makes defs' (.type id) type.record)
    (hempty : type.record.members = fun _ => []) :
    ∃ token, defs.Makes (defs'.enterType module id) (.type id)
      { type with token, module := type.module.or (some module) }.record := by
  have hregister := register_changes defs' module .typeDef (.type id)
  generalize hentry : defs'.register module .typeDef (.type id) = entry at hregister
  obtain ⟨token, registered⟩ := entry
  let update (record : TypeDef) : TypeDef :=
    { record with
      token := record.token.or (some token)
      module := record.module.or (some module) }
  let change (record : Record) : Record :=
    { record with nature :=
        { record.nature with
          token := record.nature.token.or (some token)
          module := record.nature.module.or (some module) } }
  have hupdate : registered.Changes (registered.updateType id update) (.type id) change :=
    updateType_changes fun _ => rfl
  have hmade := (h.changes_id hregister).changes_made hupdate
  have hmembers (kind : SymbolKind) :
      (registered.updateType id update).members (.type id) kind = [] := by
    rw [members_eq, hmade.record_made]
    exact congrFun hempty kind
  have hfields := List.map_eq_nil_iff.mp (hmembers .field)
  have hmethods := List.map_eq_nil_iff.mp (hmembers .method)
  have hproperties := List.map_eq_nil_iff.mp (hmembers .property)
  have hevents := List.map_eq_nil_iff.mp (hmembers .event)
  have hnested := List.map_eq_nil_iff.mp (hmembers .type)
  have henter : defs'.enterType module id = registered.updateType id update := by
    simp only [enterType, enterTypeWithin, hentry]
    rw [hnested, hevents, hproperties, hmethods, hfields]
    rfl
  rw [henter]
  exact ⟨_, hmade⟩

theorem ownType_makes (owner : DefId .type) {id : DefId .type}
    (h : defs.Makes defs' (.type id) record) :
    defs.Makes (defs'.updateType id fun type => { type with owner := type.owner.or (some owner) })
      (.type id) (ownRecord owner record) :=
  h.changes_made (updateType_changes fun _ => rfl)

theorem ownField_makes (owner : DefId .type) {id : DefId .field}
    (h : defs.Makes defs' (.field id) record) :
    defs.Makes (defs'.updateField id fun field => { field with owner := field.owner.or (some owner) })
      (.field id) (ownRecord owner record) :=
  h.changes_made (updateField_changes fun _ => rfl)

theorem ownMethod_makes (owner : DefId .type) {id : DefId .method}
    (h : defs.Makes defs' (.method id) record) :
    defs.Makes (defs'.updateMethod id fun method => { method with owner := method.owner.or (some owner) })
      (.method id) (ownRecord owner record) :=
  h.changes_made (updateMethod_changes fun _ => rfl)

theorem ownProperty_makes (owner : DefId .type) {id : DefId .property}
    (h : defs.Makes defs' (.property id) record) :
    defs.Makes (defs'.updateProperty id fun property =>
        { property with owner := property.owner.or (some owner) })
      (.property id) (ownRecord owner record) :=
  h.changes_made (updateProperty_changes fun _ => rfl)

theorem ownEvent_makes (owner : DefId .type) {id : DefId .event}
    (h : defs.Makes defs' (.event id) record) :
    defs.Makes (defs'.updateEvent id fun event => { event with owner := event.owner.or (some owner) })
      (.event id) (ownRecord owner record) :=
  h.changes_made (updateEvent_changes fun _ => rfl)

theorem enterField_makes {module : DefId .module} {id : DefId .field}
    (h : defs.Makes defs' (.field id) record) :
    ∃ token, defs.Makes (defs'.enterField module id) (.field id) (enterRecord token record) :=
  ⟨_, (h.changes_id (register_changes defs' module .field (.field id))).changes_made
    (updateField_changes fun _ => rfl)⟩

theorem enterMethod_makes {module : DefId .module} {id : DefId .method}
    (h : defs.Makes defs' (.method id) record) :
    ∃ token, defs.Makes (defs'.enterMethod module id) (.method id) (enterRecord token record) :=
  ⟨_, (h.changes_id (register_changes defs' module .methodDef (.method id))).changes_made
    (updateMethod_changes fun _ => rfl)⟩

theorem enterProperty_makes {module : DefId .module} {id : DefId .property}
    (h : defs.Makes defs' (.property id) record) :
    ∃ token,
      defs.Makes (defs'.enterProperty module id) (.property id) (enterRecord token record) :=
  ⟨_, (h.changes_id (register_changes defs' module .property (.property id))).changes_made
    (updateProperty_changes fun _ => rfl)⟩

theorem enterEvent_makes {module : DefId .module} {id : DefId .event}
    (h : defs.Makes defs' (.event id) record) :
    ∃ token, defs.Makes (defs'.enterEvent module id) (.event id) (enterRecord token record) :=
  ⟨_, (h.changes_id (register_changes defs' module .event (.event id))).changes_made
    (updateEvent_changes fun _ => rfl)⟩

/-! ## Adding -/

theorem addType_adds {module : DefId .module} (type : TypeDef)
    (hmodule : defs.has (.module module) = true) (hempty : type.record.members = fun _ => []) :
    ∃ token, defs.Adds (defs.addType module type).2 (.module module)
      (.type (defs.addType module type).1)
      { type with token, module := type.module.or (some module) }.record := by
  obtain ⟨token, h⟩ := enterType_makes module (makeType_makes defs type) hempty
  have hledger : defs.KeepsLedgers
      ((defs.makeType type).2.enterType module (defs.makeType type).1) module :=
    enterType_ledgers (defs.makeType type).2 module (defs.makeType type).1
  refine ⟨token, h.adds (ne_of_has_of_fresh hmodule h.fresh) (hledger.of_host rfl)
    (updateModule_changes fun record => Record.eq_add rfl fun kind => ?_)⟩
  cases kind with
  | type => exact List.map_append
  | module | field | method | property | event => rfl

theorem addNested_adds {owner : DefId .type} (type : TypeDef)
    (howner : defs.has (.type owner) = true) (hempty : type.record.members = fun _ => []) :
    ∃ token, defs.Adds (defs.addNested owner type).2 (.type owner)
      (.type (defs.addNested owner type).1)
      { type with
        token
        owner := type.owner.or (some owner)
        module := type.module.or (defs.moduleOf? owner) }.record := by
  let owned := { type with owner := type.owner.or (some owner) }
  let attached := (defs.makeType type).2.updateType (defs.makeType type).1 fun record =>
    { record with owner := record.owner.or (some owner) }
  have hmakes : defs.Makes attached (.type (defs.makeType type).1) owned.record :=
    ownType_makes owner (makeType_makes defs type)
  have hparent := ne_of_has_of_fresh howner hmakes.fresh
  have hmodule : attached.moduleOf? owner = defs.moduleOf? owner := by
    simp only [moduleOf?_eq, has_eq_isSome, hmakes.record?, if_neg hparent, reduceCtorEq, if_false]
  have hlist (defs : Definitions) (id : DefId .type) : defs.Changes
      (defs.updateType owner fun record => { record with nested := record.nested ++ [id] })
      (.type owner) (Record.add (.type id)) :=
    updateType_changes fun record => Record.eq_add rfl fun kind => by
      cases kind <;> simp [TypeDef.record, Record.add, Definition.kind]
  simp only [addNested, attachNested]
  split
  case h_1 module hfound =>
    obtain ⟨token, h⟩ := enterType_makes module hmakes hempty
    have hledger : defs.KeepsLedgers (attached.enterType module (defs.makeType type).1) module :=
      enterType_ledgers attached module (defs.makeType type).1
    rw [← hmodule, hfound]
    exact ⟨token, h.adds hparent (hledger.of_host (hmodule.symm.trans hfound)) (hlist _ _)⟩
  case h_2 hfound =>
    rw [← hmodule, hfound, Option.or_none]
    exact ⟨_, hmakes.adds hparent (fun _ _ => rfl) (hlist _ _)⟩

theorem addField_adds {owner : DefId .type} {field : FieldDef}
    (howner : defs.has (.type owner) = true) :
    ∃ token, defs.Adds (defs.addField owner field).2 (.type owner)
      (.field (defs.addField owner field).1)
      { field with token, owner := field.owner.or (some owner) }.record := by
  have hmakes := ownField_makes owner (makeField_makes defs field)
  have hparent := ne_of_has_of_fresh howner hmakes.fresh
  have hlist (defs : Definitions) (id : DefId .field) : defs.Changes
      (defs.updateType owner fun record => { record with fields := record.fields ++ [id] })
      (.type owner) (Record.add (.field id)) :=
    updateType_changes fun record => Record.eq_add rfl fun kind => by
      cases kind <;> simp [TypeDef.record, Record.add, Definition.kind]
  simp only [addField, attachField]
  split
  case h_1 module hfound =>
    obtain ⟨token, h⟩ := enterField_makes hmakes
    have hledger : defs.KeepsLedgers _ module := enterField_ledgers _ module (defs.makeField field).1
    exact ⟨_, h.adds hparent (hledger.of_host hfound) (hlist _ _)⟩
  case h_2 => exact ⟨_, hmakes.adds hparent (fun _ _ => rfl) (hlist _ _)⟩

theorem addMethod_adds {owner : DefId .type} {method : MethodDef}
    (howner : defs.has (.type owner) = true) :
    ∃ token, defs.Adds (defs.addMethod owner method).2 (.type owner)
      (.method (defs.addMethod owner method).1)
      { method with token, owner := method.owner.or (some owner) }.record := by
  have hmakes := ownMethod_makes owner (makeMethod_makes defs method)
  have hparent := ne_of_has_of_fresh howner hmakes.fresh
  have hlist (defs : Definitions) (id : DefId .method) : defs.Changes
      (defs.updateType owner fun record => { record with methods := record.methods ++ [id] })
      (.type owner) (Record.add (.method id)) :=
    updateType_changes fun record => Record.eq_add rfl fun kind => by
      cases kind <;> simp [TypeDef.record, Record.add, Definition.kind]
  simp only [addMethod, attachMethod]
  split
  case h_1 module hfound =>
    obtain ⟨token, h⟩ := enterMethod_makes hmakes
    have hledger : defs.KeepsLedgers _ module := enterMethod_ledgers _ module (defs.makeMethod method).1
    exact ⟨_, h.adds hparent (hledger.of_host hfound) (hlist _ _)⟩
  case h_2 => exact ⟨_, hmakes.adds hparent (fun _ _ => rfl) (hlist _ _)⟩

theorem addProperty_adds {owner : DefId .type} {property : PropertyDef}
    (howner : defs.has (.type owner) = true) :
    ∃ token, defs.Adds (defs.addProperty owner property).2 (.type owner)
      (.property (defs.addProperty owner property).1)
      { property with token, owner := property.owner.or (some owner) }.record := by
  have hmakes := ownProperty_makes owner (makeProperty_makes defs property)
  have hparent := ne_of_has_of_fresh howner hmakes.fresh
  have hlist (defs : Definitions) (id : DefId .property) : defs.Changes
      (defs.updateType owner fun record => { record with properties := record.properties ++ [id] })
      (.type owner) (Record.add (.property id)) :=
    updateType_changes fun record => Record.eq_add rfl fun kind => by
      cases kind <;> simp [TypeDef.record, Record.add, Definition.kind]
  simp only [addProperty, attachProperty]
  split
  case h_1 module hfound =>
    obtain ⟨token, h⟩ := enterProperty_makes hmakes
    have hledger : defs.KeepsLedgers _ module :=
      enterProperty_ledgers _ module (defs.makeProperty property).1
    exact ⟨_, h.adds hparent (hledger.of_host hfound) (hlist _ _)⟩
  case h_2 => exact ⟨_, hmakes.adds hparent (fun _ _ => rfl) (hlist _ _)⟩

theorem addEvent_adds {owner : DefId .type} {event : EventDef}
    (howner : defs.has (.type owner) = true) :
    ∃ token, defs.Adds (defs.addEvent owner event).2 (.type owner)
      (.event (defs.addEvent owner event).1)
      { event with token, owner := event.owner.or (some owner) }.record := by
  have hmakes := ownEvent_makes owner (makeEvent_makes defs event)
  have hparent := ne_of_has_of_fresh howner hmakes.fresh
  have hlist (defs : Definitions) (id : DefId .event) : defs.Changes
      (defs.updateType owner fun record => { record with events := record.events ++ [id] })
      (.type owner) (Record.add (.event id)) :=
    updateType_changes fun record => Record.eq_add rfl fun kind => by
      cases kind <;> simp [TypeDef.record, Record.add, Definition.kind]
  simp only [addEvent, attachEvent]
  split
  case h_1 module hfound =>
    obtain ⟨token, h⟩ := enterEvent_makes hmakes
    have hledger : defs.KeepsLedgers _ module := enterEvent_ledgers _ module (defs.makeEvent event).1
    exact ⟨_, h.adds hparent (hledger.of_host hfound) (hlist _ _)⟩
  case h_2 => exact ⟨_, hmakes.adds hparent (fun _ _ => rfl) (hlist _ _)⟩

end Definitions

end Graft
