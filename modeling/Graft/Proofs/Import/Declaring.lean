import Graft.Import.Patch
import Graft.Proofs.Transplant.Separating

/-!
# What an import declares

An import declares things of its own only: whatever is declared refers to nothing that belongs to
the patch module, and every declaration that it leads to is one of them (`Sanctions`). Each
operation of an import keeps it so (`Declares`).
-/

namespace Graft

namespace Table

variable {α : Type} {old table : Table α} {P Q : α → Prop}

/-- Whether a property holds of all that a table has and an older one has not. -/
def Since (old table : Table α) (P : α → Prop) : Prop :=
  ∀ index object, table.get? index = some object → old.get? index = none → P object

theorem Since.mono (h : old.Since table P) (himp : ∀ object, P object → Q object) :
    old.Since table Q :=
  fun index object hget hnone => himp object (h index object hget hnone)

theorem Since.push {object : α} (h : old.Since table P) (hobject : P object) :
    old.Since (table.push object) P := by
  intro index other hget hnone
  rw [get?_push] at hget
  split at hget
  · cases hget
    exact hobject
  · exact h index other hget hnone

theorem Since.update {index : Nat} {change : α → α} (h : old.Since table P)
    (hchange : ∀ object, P object → P (change object)) :
    old.Since (table.update index change) P := by
  intro other object hget hnone
  rw [get?_update] at hget
  split at hget
  · obtain ⟨before, hbefore, rfl⟩ := Option.map_eq_some_iff.mp hget
    exact hchange before (h other before hbefore hnone)
  · exact h other object hget hnone

@[simp] theorem has_push (table : Table α) (object : α) (index : Nat) :
    (table.push object).has index = (table.has index || index == table.next) := by
  simp only [has, get?_push]
  split <;> simp_all

@[simp] theorem has_update (table : Table α) (index other : Nat) (change : α → α) :
    (table.update index change).has other = table.has other := by
  simp only [has, get?_update]
  split <;> simp

@[simp] theorem has_next (table : Table α) : table.has table.next = false := by
  simp [has, get?_eq_none_of_next_le]

theorem Since.of_has [Inhabited α] {index : Nat} (h : old.Since table P)
    (hnone : old.has index = false) (hhas : table.has index = true) :
    P ((table.get? index).getD default) := by
  obtain ⟨object, hget⟩ := Option.isSome_iff_exists.mp hhas
  rw [hget]
  exact h index object hget (by simpa [has] using hnone)

end Table

namespace Declarations

variable (decls : Declarations) (declaration : Declaration)

@[simp] theorem has_updateModule (id : DeclId .module) (change : ModuleDecl → ModuleDecl) :
    (decls.updateModule id change).has declaration = decls.has declaration := by
  cases declaration <;> simp [has, updateModule]

@[simp] theorem has_updateType (id : DeclId .type) (change : TypeDecl → TypeDecl) :
    (decls.updateType id change).has declaration = decls.has declaration := by
  cases declaration <;> simp [has, updateType]

@[simp] theorem has_updateField (id : DeclId .field) (change : FieldDecl → FieldDecl) :
    (decls.updateField id change).has declaration = decls.has declaration := by
  cases declaration <;> simp [has, updateField]

@[simp] theorem has_updateMethod (id : DeclId .method) (change : MethodDecl → MethodDecl) :
    (decls.updateMethod id change).has declaration = decls.has declaration := by
  cases declaration <;> simp [has, updateMethod]

@[simp] theorem has_updateProperty (id : DeclId .property) (change : PropertyDecl → PropertyDecl) :
    (decls.updateProperty id change).has declaration = decls.has declaration := by
  cases declaration <;> simp [has, updateProperty]

@[simp] theorem has_updateEvent (id : DeclId .event) (change : EventDecl → EventDecl) :
    (decls.updateEvent id change).has declaration = decls.has declaration := by
  cases declaration <;> simp [has, updateEvent]

theorem eq_mk_iff {kind : SymbolKind} {id : DeclId kind} {index : Nat} :
    id = ⟨index⟩ ↔ id.index = index := by
  cases id
  simp

/-- What making a declaration adds. -/
structure Gains (decls decls' : Declarations) (made : Declaration) : Prop where
  fresh : decls.has made = false
  has : ∀ declaration, decls'.has declaration = true ↔
    decls.has declaration = true ∨ declaration = made

theorem makeModule_gains (record : ModuleDecl) :
    decls.Gains (decls.makeModule record).2 (.module (decls.makeModule record).1) := by
  refine ⟨by simp [has, makeModule], fun declaration => ?_⟩
  cases declaration <;> simp [has, makeModule, eq_mk_iff]

theorem makeType_gains (record : TypeDecl) :
    decls.Gains (decls.makeType record).2 (.type (decls.makeType record).1) := by
  refine ⟨by simp [has, makeType], fun declaration => ?_⟩
  cases declaration <;> simp [has, makeType, eq_mk_iff]

theorem makeField_gains (record : FieldDecl) :
    decls.Gains (decls.makeField record).2 (.field (decls.makeField record).1) := by
  refine ⟨by simp [has, makeField], fun declaration => ?_⟩
  cases declaration <;> simp [has, makeField, eq_mk_iff]

theorem makeMethod_gains (record : MethodDecl) :
    decls.Gains (decls.makeMethod record).2 (.method (decls.makeMethod record).1) := by
  refine ⟨by simp [has, makeMethod], fun declaration => ?_⟩
  cases declaration <;> simp [has, makeMethod, eq_mk_iff]

theorem makeProperty_gains (record : PropertyDecl) :
    decls.Gains (decls.makeProperty record).2 (.property (decls.makeProperty record).1) := by
  refine ⟨by simp [has, makeProperty], fun declaration => ?_⟩
  cases declaration <;> simp [has, makeProperty, eq_mk_iff]

theorem makeEvent_gains (record : EventDecl) :
    decls.Gains (decls.makeEvent record).2 (.event (decls.makeEvent record).1) := by
  refine ⟨by simp [has, makeEvent], fun declaration => ?_⟩
  cases declaration <;> simp [has, makeEvent, eq_mk_iff]

end Declarations

/-- What an import is about: the world that it begins in, the patch module, the names of the modules
that it needs, the importer that it works with, and the declarations that the patch module may refer
to itself. -/
structure ImportSetting where
  start : World
  patch : DefId .module
  required : List String
  importer : ImporterId
  lent : Declaration → Prop

namespace ImportSetting

variable (setting : ImportSetting)

/-- Whether a declaration has been made since the import began. -/
def New (world : World) (declaration : Declaration) : Prop :=
  setting.start.decls.has declaration = false ∧ world.decls.has declaration = true

/-- Whether something belongs to the patch module. -/
def Belongs (definition : Definition) : Prop :=
  setting.start.defs.home? definition = some setting.patch

/-- Whether a declaration is lent, unless it was gone when the import began. -/
def Lent (declaration : Declaration) : Prop :=
  setting.start.decls.has declaration = true → setting.lent declaration

/-- Whether targets lead to no declarations but those that are lent. -/
def Borrows (targets : List Target) : Prop :=
  ∀ declaration, .declaration declaration ∈ targets → setting.Lent declaration

/-- Whether targets lead to nothing of the patch module, and to no declarations but new ones and
those that are lent. -/
def Admits (new : Declaration → Prop) (targets : List Target) : Prop :=
  ∀ target ∈ targets, ¬ target.Into setting.Belongs ∧
    ∀ declaration, target = .declaration declaration → new declaration ∨ setting.Lent declaration

/-- Whether a type may be declared by the import. -/
structure SanctionsType (new : Declaration → Prop) (record : TypeDecl) : Prop where
  place : match record.place with
    | .topLevel module _ => new (.module module)
    | .nested owner => new (.type owner)
  base : setting.Admits new (record.base.elim [] TypeRef.targets)
  interfaces : setting.Admits new (record.interfaces.flatMap TypeRef.targets)
  generics : setting.Admits new (record.generics.elim [] (List.flatMap GenericParam.targets))
  nested : ∀ id ∈ record.nested, new (.type id)
  fields : ∀ id ∈ record.fields, new (.field id)
  methods : ∀ id ∈ record.methods, new (.method id)
  properties : ∀ id ∈ record.properties, new (.property id)
  events : ∀ id ∈ record.events, new (.event id)

/-- Whether a method may be declared by the import. Its body is carried over by the importer, and
names no declarations by itself but those that are lent. -/
structure SanctionsMethod (new : Declaration → Prop) (record : MethodDecl) : Prop where
  owner : new (.type record.owner)
  signature : setting.Admits new record.signature.targets
  overrides : setting.Admits new (record.overrides.flatMap Override.targets)
  body : ∀ graft, record.body = some graft →
    setting.Borrows graft.body.targets ∧
      ∃ bases, graft.transformer = .importing setting.importer bases

/-- Whether a property or an event may be declared by the import. -/
structure SanctionsMember (new : Declaration → Prop) (owner : DeclId .type) (targets : List Target)
    (accessors : DeclaredAccessors) : Prop where
  owner : new (.type owner)
  targets : setting.Admits new targets
  accessors : ∀ entry ∈ accessors, new (.method entry.2)

/-- Whether everything that is new may be declared by the import. -/
structure Sanctions (new : Declaration → Prop) (decls : Declarations) : Prop where
  modules : setting.start.decls.modules.Since decls.modules fun record =>
    record.name ∈ setting.required ∧ ∀ id ∈ record.types, new (.type id)
  types : setting.start.decls.types.Since decls.types (setting.SanctionsType new)
  fields : setting.start.decls.fields.Since decls.fields fun record =>
    setting.SanctionsMember new record.owner record.signature.targets []
  methods : setting.start.decls.methods.Since decls.methods (setting.SanctionsMethod new)
  properties : setting.start.decls.properties.Since decls.properties fun record =>
    setting.SanctionsMember new record.owner record.signature.targets record.accessors
  events : setting.start.decls.events.Since decls.events fun record =>
    setting.SanctionsMember new record.owner record.type.targets record.accessors

/-- Whether an import has come this far: the definitions are as they were, and everything that is
new is sanctioned. -/
structure Importing (world : World) : Prop where
  defs : world.defs = setting.start.defs
  sources : world.sources = setting.start.sources
  kept : ∀ declaration, setting.start.decls.has declaration = true →
    world.decls.has declaration = true
  scope : (world.importer setting.importer).scope = setting.patch
  boundTypes : ∀ token id, (world.importer setting.importer).types.get? token = some id →
    setting.New world (.type id)
  boundFields : ∀ token id, (world.importer setting.importer).fields.get? token = some id →
    setting.New world (.field id)
  boundMethods : ∀ token id, (world.importer setting.importer).methods.get? token = some id →
    setting.New world (.method id)
  sanctions : setting.Sanctions (setting.New world) world.decls

/-- Whether an import goes on from one world to another. -/
structure Onward (world next : World) : Prop where
  importing : setting.Importing next
  kept : ∀ declaration, world.decls.has declaration = true → next.decls.has declaration = true

variable {setting} {world next last : World} {new new' : Declaration → Prop}
  {declaration : Declaration} {targets targets' : List Target}

@[simp] theorem borrows_append :
    setting.Borrows (targets ++ targets') ↔ setting.Borrows targets ∧ setting.Borrows targets' := by
  simp only [Borrows, List.mem_append, or_imp, forall_and]

@[simp] theorem borrows_flatMap {α : Type} {items : List α} {f : α → List Target} :
    setting.Borrows (items.flatMap f) ↔ ∀ item ∈ items, setting.Borrows (f item) := by
  simp only [Borrows, List.mem_flatMap, forall_exists_index, and_imp]
  exact ⟨fun h item hitem declaration => h declaration item hitem,
    fun h declaration item hitem => h item hitem declaration⟩

@[simp] theorem admits_nil : setting.Admits new [] := by
  simp [Admits]

@[simp] theorem admits_append :
    setting.Admits new (targets ++ targets') ↔
      setting.Admits new targets ∧ setting.Admits new targets' := by
  simp only [Admits, List.forall_mem_append]

@[simp] theorem admits_flatMap {α : Type} {items : List α} {f : α → List Target} :
    setting.Admits new (items.flatMap f) ↔ ∀ item ∈ items, setting.Admits new (f item) := by
  simp only [Admits, List.forall_mem_flatMap]

/-! ## More that is new -/

section Mono

variable (hnew : ∀ declaration, new declaration → new' declaration)

include hnew

theorem Admits.mono (h : setting.Admits new targets) : setting.Admits new' targets :=
  fun target hmem =>
    ⟨(h target hmem).1, fun other heq => ((h target hmem).2 other heq).imp_left (hnew other)⟩

theorem SanctionsType.mono {record : TypeDecl} (h : setting.SanctionsType new record) :
    setting.SanctionsType new' record where
  place := by
    have hplace := h.place
    revert hplace
    cases record.place <;> exact hnew _
  base := h.base.mono hnew
  interfaces := h.interfaces.mono hnew
  generics := h.generics.mono hnew
  nested id hmem := hnew _ (h.nested id hmem)
  fields id hmem := hnew _ (h.fields id hmem)
  methods id hmem := hnew _ (h.methods id hmem)
  properties id hmem := hnew _ (h.properties id hmem)
  events id hmem := hnew _ (h.events id hmem)

theorem SanctionsMethod.mono {record : MethodDecl} (h : setting.SanctionsMethod new record) :
    setting.SanctionsMethod new' record where
  owner := hnew _ h.owner
  signature := h.signature.mono hnew
  overrides := h.overrides.mono hnew
  body := h.body

theorem SanctionsMember.mono {owner : DeclId .type} {accessors : DeclaredAccessors}
    (h : setting.SanctionsMember new owner targets accessors) :
    setting.SanctionsMember new' owner targets accessors where
  owner := hnew _ h.owner
  targets := h.targets.mono hnew
  accessors entry hmem := hnew _ (h.accessors entry hmem)

theorem Sanctions.mono {decls : Declarations} (h : setting.Sanctions new decls) :
    setting.Sanctions new' decls where
  modules := h.modules.mono fun _ hrecord =>
    ⟨hrecord.1, fun id hmem => hnew _ (hrecord.2 id hmem)⟩
  types := h.types.mono fun _ => .mono hnew
  fields := h.fields.mono fun _ => .mono hnew
  methods := h.methods.mono fun _ => .mono hnew
  properties := h.properties.mono fun _ => .mono hnew
  events := h.events.mono fun _ => .mono hnew

end Mono

/-! ## Going on -/

theorem Onward.refl (h : setting.Importing world) : setting.Onward world world :=
  ⟨h, fun _ hhas => hhas⟩

theorem Onward.trans (h : setting.Onward world next) (h' : setting.Onward next last) :
    setting.Onward world last :=
  ⟨h'.importing, fun declaration hhas => h'.kept declaration (h.kept declaration hhas)⟩

theorem Onward.still_new (h : setting.Onward world next) (hnew : setting.New world declaration) :
    setting.New next declaration :=
  ⟨hnew.1, h.kept declaration hnew.2⟩

/-- What was not there before an operation of the import was not there when it began. -/
theorem Importing.new_of_fresh (h : setting.Importing world)
    (hfresh : world.decls.has declaration = false) (hhas : next.decls.has declaration = true) :
    setting.New next declaration := by
  refine ⟨?_, hhas⟩
  by_contra hold
  rw [Bool.not_eq_false] at hold
  rw [h.kept declaration hold] at hfresh
  cases hfresh

/-- An import goes on when declarations are added or changed that may be. -/
theorem Importing.withDecls (h : setting.Importing world) {decls : Declarations}
    (hkept : ∀ declaration, world.decls.has declaration = true → decls.has declaration = true)
    (hsanctions : setting.Sanctions (setting.New world) decls) :
    setting.Onward world { world with decls } where
  importing := {
    defs := h.defs
    sources := h.sources
    kept := fun declaration hhas => hkept declaration (h.kept declaration hhas)
    scope := h.scope
    boundTypes := fun token id hget => ⟨(h.boundTypes token id hget).1,
      hkept _ (h.boundTypes token id hget).2⟩
    boundFields := fun token id hget => ⟨(h.boundFields token id hget).1,
      hkept _ (h.boundFields token id hget).2⟩
    boundMethods := fun token id hget => ⟨(h.boundMethods token id hget).1,
      hkept _ (h.boundMethods token id hget).2⟩
    sanctions := hsanctions.mono fun declaration hnew => ⟨hnew.1, hkept declaration hnew.2⟩ }
  kept := hkept

/-- An import goes on when nothing that matters changes. -/
theorem Importing.quiet (h : setting.Importing world) (hquiet : world.Quiet next) :
    setting.Onward world next := by
  have hdecls := hquiet.decls
  refine ⟨⟨hquiet.defs.trans h.defs, hquiet.sources.trans h.sources, ?_,
    (hquiet.scope _).trans h.scope, ?_, ?_, ?_, ?_⟩, ?_⟩
  · rw [hdecls]
    exact h.kept
  · rw [hquiet.types]
    simpa only [New, hdecls] using h.boundTypes
  · rw [hquiet.fields]
    simpa only [New, hdecls] using h.boundFields
  · rw [hquiet.methods]
    simpa only [New, hdecls] using h.boundMethods
  · have hnew : setting.New next = setting.New world := by
      funext declaration
      simp only [New, hdecls]
    rw [hnew, hdecls]
    exact h.sanctions
  · rw [hdecls]
    exact fun _ hhas => hhas

/-! ## Operations -/

variable {α β : Type}

/-- Whether an import goes on through an operation that succeeds, with a value of which `post`
holds. -/
def Declares (setting : ImportSetting) (world : World) (task : Task α)
    (post : World → α → Prop) : Prop :=
  ∀ value next, task.on world = (.ok value, next) → setting.Onward world next ∧ post next value

namespace Declares

variable {task : Task α} {post post' : World → α → Prop} {after : World → β → Prop}

theorem pure {value : α} (h : setting.Importing world) (hpost : post world value) :
    Declares setting world (Pure.pure value) post := by
  intro _ _ hon
  cases hon
  exact ⟨.refl h, hpost⟩

theorem throw {error : Error} : Declares setting world (MonadExcept.throw error) post := by
  intro _ _ hon
  cases hon

theorem bind {rest : α → Task β} (htask : Declares setting world task post)
    (hrest : ∀ value next, setting.Onward world next → post next value →
      Declares setting next (rest value) after) :
    Declares setting world (task >>= rest) after := by
  intro value last hon
  rw [Task.on_bind] at hon
  cases hfirst : task.on world with
  | mk outcome next =>
      rw [hfirst] at hon
      cases outcome with
      | error => cases hon
      | ok first =>
          obtain ⟨honward, hpost⟩ := htask first next hfirst
          obtain ⟨honward', hafter⟩ := hrest first next honward hpost value last hon
          exact ⟨honward.trans honward', hafter⟩

theorem mono (h : Declares setting world task post)
    (himp : ∀ value next, setting.Onward world next → post next value → post' next value) :
    Declares setting world task post' := by
  intro value next hon
  obtain ⟨honward, hpost⟩ := h value next hon
  exact ⟨honward, himp value next honward hpost⟩

/-- What an operation does may depend on the world as it is. -/
theorem get {rest : World → Task β} (h : Declares setting world (rest world) after) :
    Declares setting world (MonadState.get >>= rest) after :=
  fun value next hon => h value next (by rwa [Task.on_bind] at hon)

theorem onDecls {ask : Declarations → α} {rest : α → Task β}
    (h : Declares setting world (rest (ask world.decls)) after) :
    Declares setting world (Task.onDecls ask >>= rest) after := by
  unfold Task.onDecls
  rw [bind_assoc]
  exact get h

theorem ofExcept {outcome : Except Error α} (h : setting.Importing world)
    (hpost : ∀ value, outcome = .ok value → post world value) :
    Declares setting world (ofExcept outcome) post := by
  intro value next hon
  rw [Task.on_ofExcept] at hon
  cases hon
  exact ⟨.refl h, hpost value rfl⟩

/-- Operations that change nothing that matters. -/
theorem quiet {post : α → Prop} (h : setting.Importing world)
    (hquiet : Task.Quiet world task post) : Declares setting world task fun _ => post := by
  intro value next hon
  obtain ⟨hnext, hpost⟩ := hquiet world (.refl world)
  rw [hon] at hnext hpost
  exact ⟨h.quiet hnext, hpost value rfl⟩

theorem changeDecls {change : Declarations → Declarations} (h : setting.Importing world)
    (hkept : ∀ declaration, world.decls.has declaration = true →
      (change world.decls).has declaration = true)
    (hsanctions : setting.Sanctions (setting.New world) (change world.decls)) :
    Declares setting world (Task.changeDecls change) fun _ _ => True := by
  intro _ _ hon
  cases hon
  exact ⟨h.withDecls hkept hsanctions, trivial⟩

/-- What is made is new. -/
theorem makeDecl {make : Declarations → α × Declarations} {toDeclaration : α → Declaration}
    (h : setting.Importing world)
    (hgains : world.decls.Gains (make world.decls).2 (toDeclaration (make world.decls).1))
    (hsanctions : setting.Sanctions (setting.New world) (make world.decls).2) :
    Declares setting world (Task.makeDecl make) fun next made =>
      setting.New next (toDeclaration made) := by
  intro _ _ hon
  cases hon
  refine ⟨h.withDecls (fun declaration hold => ?_) hsanctions, h.new_of_fresh hgains.fresh ?_⟩
  · exact (hgains.has declaration).mpr (.inl hold)
  · exact (hgains.has _).mpr (.inr rfl)

/-! ### One after another -/

variable {items : List β}

theorem mapM {f : β → Task α} (h : setting.Importing world)
    (hmono : ∀ value next last, setting.Onward next last → post next value → post last value)
    (hitems : ∀ item ∈ items, ∀ next, setting.Onward world next →
      Declares setting next (f item) post) :
    Declares setting world (items.mapM f) fun next values => ∀ value ∈ values, post next value := by
  induction items generalizing world with
  | nil => exact pure h (by simp)
  | cons item items ih =>
      rw [List.mapM_cons]
      refine bind (hitems item List.mem_cons_self world (.refl h)) fun value next honward hpost => ?_
      refine bind (ih honward.importing fun other hmem last honward' =>
        hitems other (List.mem_cons_of_mem _ hmem) last (honward.trans honward'))
        fun values last honward' hvalues => ?_
      exact pure honward'.importing
        (List.forall_mem_cons.mpr ⟨hmono value next last honward' hpost, hvalues⟩)

theorem foldlM {f : α → β → Task α} {start : α} (h : setting.Importing world)
    (hstart : post world start)
    (hitems : ∀ item ∈ items, ∀ value next, setting.Onward world next → post next value →
      Declares setting next (f value item) post) :
    Declares setting world (items.foldlM f start) post := by
  induction items generalizing world start with
  | nil => exact pure h hstart
  | cons item items ih =>
      rw [List.foldlM_cons]
      refine bind (hitems item List.mem_cons_self start world (.refl h) hstart)
        fun value next honward hpost => ?_
      exact ih honward.importing hpost fun other hmem value last honward' =>
        hitems other (List.mem_cons_of_mem _ hmem) value last (honward.trans honward')

theorem forM {f : β → Task Unit} (h : setting.Importing world)
    (hitems : ∀ item ∈ items, ∀ next, setting.Onward world next →
      Declares setting next (f item) fun _ _ => True) :
    Declares setting world (items.forM f) fun _ _ => True := by
  induction items generalizing world with
  | nil => exact pure h trivial
  | cons item items ih =>
      change Declares setting world (f item >>= fun _ => items.forM f) _
      refine bind (hitems item List.mem_cons_self world (.refl h)) fun _ next honward _ => ?_
      exact ih honward.importing fun other hmem last honward' =>
        hitems other (List.mem_cons_of_mem _ hmem) last (honward.trans honward')

end Declares

/-! ## Making and changing declarations -/

section Kinds

variable (h : setting.Importing world)

include h

theorem Importing.type {id : DeclId .type} (hnew : setting.New world (.type id)) :
    setting.SanctionsType (setting.New world) (world.decls.type id) :=
  h.sanctions.types.of_has hnew.1 hnew.2

theorem Importing.module {id : DeclId .module} (hnew : setting.New world (.module id)) :
    (world.decls.module id).name ∈ setting.required ∧
      ∀ type ∈ (world.decls.module id).types, setting.New world (.type type) :=
  h.sanctions.modules.of_has hnew.1 hnew.2

theorem Importing.field {id : DeclId .field} (hnew : setting.New world (.field id)) :
    setting.SanctionsMember (setting.New world) (world.decls.field id).owner
      (world.decls.field id).signature.targets [] :=
  h.sanctions.fields.of_has hnew.1 hnew.2

theorem Importing.method {id : DeclId .method} (hnew : setting.New world (.method id)) :
    setting.SanctionsMethod (setting.New world) (world.decls.method id) :=
  h.sanctions.methods.of_has hnew.1 hnew.2

theorem Importing.property {id : DeclId .property} (hnew : setting.New world (.property id)) :
    setting.SanctionsMember (setting.New world) (world.decls.property id).owner
      (world.decls.property id).signature.targets (world.decls.property id).accessors :=
  h.sanctions.properties.of_has hnew.1 hnew.2

theorem Importing.event {id : DeclId .event} (hnew : setting.New world (.event id)) :
    setting.SanctionsMember (setting.New world) (world.decls.event id).owner
      (world.decls.event id).type.targets (world.decls.event id).accessors :=
  h.sanctions.events.of_has hnew.1 hnew.2

omit h in
/-- A type that says nothing but where it is. -/
theorem sanctionsType_bare {new : Declaration → Prop} {terms : Terms} {place : TypePlace}
    {name : String}
    (hplace : match place with
      | .topLevel module _ => new (.module module)
      | .nested owner => new (.type owner)) :
    setting.SanctionsType new { terms, place, name } := by
  refine ⟨hplace, ?_, ?_, ?_, ?_, ?_, ?_, ?_, ?_⟩ <;> simp

theorem declares_updateModule {id : DeclId .module} {change : ModuleDecl → ModuleDecl}
    (hname : ∀ record, (change record).name = record.name)
    (htypes : ∀ record, (∀ id ∈ record.types, setting.New world (.type id)) →
      ∀ id ∈ (change record).types, setting.New world (.type id)) :
    Declares setting world (Task.changeDecls (·.updateModule id change)) fun _ _ => True :=
  .changeDecls h (by simp) { h.sanctions with
    modules := h.sanctions.modules.update fun record hrecord =>
      ⟨hname record ▸ hrecord.1, htypes record hrecord.2⟩ }

theorem declares_updateType {id : DeclId .type} {change : TypeDecl → TypeDecl}
    (hchange : ∀ record, setting.SanctionsType (setting.New world) record →
      setting.SanctionsType (setting.New world) (change record)) :
    Declares setting world (Task.changeDecls (·.updateType id change)) fun _ _ => True :=
  .changeDecls h (by simp) { h.sanctions with types := h.sanctions.types.update hchange }

theorem declares_updateMethod {id : DeclId .method} {change : MethodDecl → MethodDecl}
    (hchange : ∀ record, setting.SanctionsMethod (setting.New world) record →
      setting.SanctionsMethod (setting.New world) (change record)) :
    Declares setting world (Task.changeDecls (·.updateMethod id change)) fun _ _ => True :=
  .changeDecls h (by simp) { h.sanctions with methods := h.sanctions.methods.update hchange }

theorem declares_updateField {id : DeclId .field} {change : FieldDecl → FieldDecl}
    (hchange : ∀ record, (change record).owner = record.owner ∧
      (change record).signature = record.signature) :
    Declares setting world (Task.changeDecls (·.updateField id change)) fun _ _ => True := by
  refine .changeDecls h (by simp) { h.sanctions with
    fields := h.sanctions.fields.update fun record hrecord => ?_ }
  rwa [(hchange record).1, (hchange record).2]

theorem declares_updateProperty {id : DeclId .property} {change : PropertyDecl → PropertyDecl}
    (hchange : ∀ record,
      setting.SanctionsMember (setting.New world) record.owner record.signature.targets
        record.accessors →
      setting.SanctionsMember (setting.New world) (change record).owner
        (change record).signature.targets (change record).accessors) :
    Declares setting world (Task.changeDecls (·.updateProperty id change)) fun _ _ => True :=
  .changeDecls h (by simp) { h.sanctions with properties := h.sanctions.properties.update hchange }

theorem declares_updateEvent {id : DeclId .event} {change : EventDecl → EventDecl}
    (hchange : ∀ record,
      setting.SanctionsMember (setting.New world) record.owner record.type.targets
        record.accessors →
      setting.SanctionsMember (setting.New world) (change record).owner
        (change record).type.targets (change record).accessors) :
    Declares setting world (Task.changeDecls (·.updateEvent id change)) fun _ _ => True :=
  .changeDecls h (by simp) { h.sanctions with events := h.sanctions.events.update hchange }

/-- A declaration that is there may be taken again if it is new. -/
theorem declares_once {ι : Type} {policy : Policy} {existing : Option ι}
    {toDeclaration : ι → Declaration} {make : Task ι}
    (hexisting : ∀ id, existing = some id → setting.New world (toDeclaration id))
    (hmake : Declares setting world make fun next id => setting.New next (toDeclaration id)) :
    Declares setting world (Task.declareOnce policy existing toDeclaration make)
      fun next id => setting.New next (toDeclaration id) := by
  unfold Task.declareOnce
  cases existing with
  | none => exact hmake
  | some id =>
      refine .get ?_
      dsimp only
      split
      · exact .throw
      · exact .pure h (hexisting id rfl)

theorem declares_module {name : String} {policy : Policy} {readOnly : Bool}
    (hname : name ∈ setting.required) :
    Declares setting world (Task.declareModule name policy readOnly)
      fun next id => setting.New next (.module id) :=
  .makeDecl h (Declarations.makeModule_gains _ _) { h.sanctions with
    modules := h.sanctions.modules.push ⟨hname, by simp⟩ }

theorem declares_type {module : DeclId .module} {namespaceName name : String} {policy : Policy}
    {readOnly : Bool} (hmodule : setting.New world (.module module)) :
    Declares setting world (Task.declareType module namespaceName name policy readOnly)
      fun next id => setting.New next (.type id) := by
  unfold Task.declareType
  refine .onDecls (.bind (declares_once h (fun id hfound => ?_) ?_) fun id next honward hnew => ?_)
  · exact (h.module hmodule).2 id (List.mem_of_find?_eq_some hfound)
  · refine .bind (.makeDecl h (Declarations.makeType_gains _ _) { h.sanctions with
      types := h.sanctions.types.push (sanctionsType_bare hmodule) }) fun id next honward hnew => ?_
    refine .bind (declares_updateModule honward.importing (fun _ => rfl) ?_)
      fun _ last honward' _ => .pure honward'.importing (honward'.still_new hnew)
    exact fun record hall => List.forall_mem_append.mpr ⟨hall, by simpa using hnew⟩
  · refine .get ?_
    dsimp only
    split
    · exact .throw
    · exact .pure honward.importing hnew

omit h in
/-- A member is made inside its type with the access of the type. -/
theorem declares_member {ι : Type} {make : Terms → Declarations → ι × Declarations}
    {toDeclaration : ι → Declaration} {list : ι → TypeDecl → TypeDecl} {owner : DeclId .type}
    {policy : Policy}
    (hmake : ∀ terms, Declares setting world (Task.makeDecl (make terms))
      fun next id => setting.New next (toDeclaration id))
    (hlist : ∀ id (new : Declaration → Prop) record, new (toDeclaration id) →
      setting.SanctionsType new record → setting.SanctionsType new (list id record)) :
    Declares setting world (do
      let id ← Task.makeDecl (make (← Task.memberTerms owner policy))
      Task.changeDecls (·.updateType owner (list id))
      return id) fun next id => setting.New next (toDeclaration id) := by
  unfold Task.memberTerms
  rw [bind_assoc]
  refine .onDecls ?_
  rw [pure_bind]
  refine .bind (hmake _) fun id next honward hnew => ?_
  refine .bind (declares_updateType honward.importing fun record hrecord => ?_)
    fun _ last honward' _ => .pure honward'.importing (honward'.still_new hnew)
  exact hlist id _ record hnew hrecord

section Members

variable {owner : DeclId .type} {name : String} {policy : Policy}
  (howner : setting.New world (.type owner))

include howner

theorem declares_nested :
    Declares setting world (Task.declareNested owner name policy)
      fun next id => setting.New next (.type id) := by
  unfold Task.declareNested
  refine .onDecls (declares_once h (fun id hfound => ?_) (declares_member (fun terms => ?_) ?_))
  · exact (h.type howner).nested id (List.mem_of_find?_eq_some hfound)
  · exact .makeDecl h (Declarations.makeType_gains _ _) { h.sanctions with
      types := h.sanctions.types.push (sanctionsType_bare howner) }
  · exact fun id new record hnew hrecord => { hrecord with
      nested := List.forall_mem_append.mpr ⟨hrecord.nested, by simpa using hnew⟩ }

theorem declares_field {signature : TypeSig}
    (hsignature : setting.Admits (setting.New world) signature.targets) :
    Declares setting world (Task.declareField owner name signature policy)
      fun next id => setting.New next (.field id) := by
  unfold Task.declareField
  refine .onDecls (declares_once h (fun id hfound => ?_) (declares_member (fun terms => ?_) ?_))
  · exact (h.type howner).fields id (List.mem_of_find?_eq_some hfound)
  · exact .makeDecl h (Declarations.makeField_gains _ _) { h.sanctions with
      fields := h.sanctions.fields.push ⟨howner, hsignature, by simp⟩ }
  · exact fun id new record hnew hrecord => { hrecord with
      fields := List.forall_mem_append.mpr ⟨hrecord.fields, by simpa using hnew⟩ }

theorem declares_method {signature : MethodSig}
    (hsignature : setting.Admits (setting.New world) signature.targets) :
    Declares setting world (Task.declareMethod owner name signature policy)
      fun next id => setting.New next (.method id) := by
  unfold Task.declareMethod
  refine .get (declares_once h (fun id hfound => ?_) (declares_member (fun terms => ?_) ?_))
  · exact (h.type howner).methods id (List.mem_of_find?_eq_some hfound)
  · exact .makeDecl h (Declarations.makeMethod_gains _ _) { h.sanctions with
      methods := h.sanctions.methods.push ⟨howner, hsignature, by simp, by simp⟩ }
  · exact fun id new record hnew hrecord => { hrecord with
      methods := List.forall_mem_append.mpr ⟨hrecord.methods, by simpa using hnew⟩ }

theorem declares_property {signature : PropertySig}
    (hsignature : setting.Admits (setting.New world) signature.targets) :
    Declares setting world (Task.declareProperty owner name signature policy)
      fun next id => setting.New next (.property id) := by
  unfold Task.declareProperty
  refine .onDecls (declares_once h (fun id hfound => ?_) (declares_member (fun terms => ?_) ?_))
  · exact (h.type howner).properties id (List.mem_of_find?_eq_some hfound)
  · exact .makeDecl h (Declarations.makeProperty_gains _ _) { h.sanctions with
      properties := h.sanctions.properties.push ⟨howner, hsignature, by simp⟩ }
  · exact fun id new record hnew hrecord => { hrecord with
      properties := List.forall_mem_append.mpr ⟨hrecord.properties, by simpa using hnew⟩ }

theorem declares_event {type : TypeRef}
    (htype : setting.Admits (setting.New world) type.targets) :
    Declares setting world (Task.declareEvent owner name type policy)
      fun next id => setting.New next (.event id) := by
  unfold Task.declareEvent
  refine .onDecls (declares_once h (fun id hfound => ?_) (declares_member (fun terms => ?_) ?_))
  · exact (h.type howner).events id (List.mem_of_find?_eq_some hfound)
  · exact .makeDecl h (Declarations.makeEvent_gains _ _) { h.sanctions with
      events := h.sanctions.events.push ⟨howner, htype, by simp⟩ }
  · exact fun id new record hnew hrecord => { hrecord with
      events := List.forall_mem_append.mpr ⟨hrecord.events, by simpa using hnew⟩ }

end Members

theorem declares_interface {type : DeclId .type} {interface : TypeRef}
    (hinterface : setting.Admits (setting.New world) interface.targets) :
    Declares setting world (Task.declareInterface type interface) fun _ _ => True := by
  unfold Task.declareInterface
  refine .get ?_
  dsimp only
  split
  · exact .pure h trivial
  · refine declares_updateType h fun record hrecord => { hrecord with interfaces := ?_ }
    simpa using ⟨by simpa using hrecord.interfaces, hinterface⟩

theorem declares_override {method : DeclId .method} {override : Override}
    (hoverride : setting.Admits (setting.New world) override.targets) :
    Declares setting world (Task.declareOverride method override) fun _ _ => True := by
  refine declares_updateMethod h fun record hrecord => { hrecord with overrides := ?_ }
  simpa using ⟨by simpa using hrecord.overrides, hoverride⟩

end Kinds

end ImportSetting

end Graft
