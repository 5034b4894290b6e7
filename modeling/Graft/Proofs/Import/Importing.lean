import Graft.Proofs.Session.Running
import Graft.Proofs.Signature.Bare
import Mathlib.Tactic.ByContra

/-!
# Importing references binds them

Importing a reference or a signature replaces what belongs to the patch module by the declarations
that it stands for (`World.bind`), owners aside. All that an import leaves behind are slots for
owners, and work that waits for methods.
-/

namespace Graft

namespace World

variable (world : World) (importer : ImporterId)

/-- Whether a field exists and belongs to the patch module. -/
def ownsField (id : DefId .field) : Bool :=
  world.defs.fields.has id.index && importer.ownsMember world (world.defs.field id).owner

/-- Whether a type exists and belongs to the patch module. -/
def ownsType (id : DefId .type) : Bool :=
  world.defs.types.has id.index && importer.ownsType world id

/-- The declaration that a type of the patch module stands for. -/
def boundType? (id : DefId .type) : Option (DeclId .type) :=
  (world.importer importer).types.get? (world.defs.token (.type id))

/-- The declaration that a field of the patch module stands for. -/
def boundField? (id : DefId .field) : Option (DeclId .field) :=
  (world.importer importer).fields.get? (world.defs.token (.field id))

/-- The declaration that a method of the patch module stands for. -/
def boundMethod? (id : DefId .method) : Option (DeclId .method) :=
  (world.importer importer).methods.get? (world.defs.token (.method id))

/-- A way to relink that replaces definitions of the patch module by the declarations that they
stand for. -/
def bind : Relink where
  onType
    | .definition id =>
      if world.ownsType importer id then
        (world.boundType? importer id).elim (.definition id) .declared
      else .definition id
    | ref => ref
  onField
    | .definition id =>
      if world.ownsField importer id then
        (world.boundField? importer id).elim (.definition id) .declared
      else .definition id
    | ref => ref
  onMethod
    | .definition id =>
      if importer.ownsMethod world id then
        (world.boundMethod? importer id).elim (.definition id) .declared
      else .definition id
    | ref => ref

/-- Whether a target can be imported: if it belongs to the patch module it stands for a
declaration. -/
def Imports : Target → Prop
  | .definition (.type id) =>
    world.ownsType importer id = true → (world.boundType? importer id).isSome
  | .definition (.field id) =>
    world.ownsField importer id = true → (world.boundField? importer id).isSome
  | .definition (.method id) =>
    importer.ownsMethod world id = true → (world.boundMethod? importer id).isSome
  | .unknown => False
  | _ => True

end World

/-- Worlds that differ in nothing that definitions, declarations or the bindings of importers
show. -/
structure World.Quiet (world world' : World) : Prop where
  defs : world'.defs = world.defs
  decls : world'.decls = world.decls
  sources : world'.sources = world.sources
  leaves : world'.leaves = world.leaves
  scope : ∀ id, (world'.importer id).scope = (world.importer id).scope
  types : ∀ id, (world'.importer id).types = (world.importer id).types
  fields : ∀ id, (world'.importer id).fields = (world.importer id).fields
  methods : ∀ id, (world'.importer id).methods = (world.importer id).methods
  slots : ∀ slot method, world.slot? slot = some method → world'.slot? slot = some method
  importers : ∀ index, world.importers.has index = true → world'.importers.has index = true

namespace World.Quiet

variable {start world world' : World}

/-- The log is nothing that anyone looks at. -/
theorem ofLog (log : Array LogEntry) : world.Quiet { world with log } :=
  ⟨rfl, rfl, rfl, rfl, fun _ => rfl, fun _ => rfl, fun _ => rfl, fun _ => rfl, fun _ _ h => h,
    fun _ h => h⟩

theorem refl (world : World) : world.Quiet world :=
  ofLog world.log

theorem trans (h : start.Quiet world) (h' : world.Quiet world') : start.Quiet world' where
  defs := h'.defs.trans h.defs
  decls := h'.decls.trans h.decls
  sources := h'.sources.trans h.sources
  leaves := h'.leaves.trans h.leaves
  scope id := (h'.scope id).trans (h.scope id)
  types id := (h'.types id).trans (h.types id)
  fields id := (h'.fields id).trans (h.fields id)
  methods id := (h'.methods id).trans (h.methods id)
  slots slot method hfilled := h'.slots slot method (h.slots slot method hfilled)
  importers index hhas := h'.importers index (h.importers index hhas)

/-- A slot that is filled stays filled. -/
theorem isSome_slot? (h : world.Quiet world') {slot : SlotId}
    (hfilled : (world.slot? slot).isSome = true) : (world'.slot? slot).isSome = true := by
  obtain ⟨method, hmethod⟩ := Option.isSome_iff_exists.mp hfilled
  rw [h.slots slot method hmethod, Option.isSome_some]

end World.Quiet

namespace Task

variable {α β : Type}

/-- Whether a task changes nothing that anyone looks at, from any world like `start` on, and
answers with values of which `post` holds. -/
def Quiet (start : World) (task : Task α) (post : α → Prop) : Prop :=
  ∀ world, start.Quiet world →
    start.Quiet (task.on world).2 ∧ ∀ value, (task.on world).1 = .ok value → post value

namespace Quiet

variable {start : World} {task : Task α} {post : α → Prop} {post' : β → Prop}

theorem pure {value : α} (h : post value) : Quiet start (Pure.pure value) post :=
  fun _ hquiet => ⟨hquiet, fun _ heq => by cases heq; exact h⟩

theorem throw {error : Error} : Quiet start (MonadExcept.throw error) post :=
  fun _ hquiet => ⟨hquiet, fun _ heq => by cases heq⟩

theorem bind {next : α → Task β} (htask : Quiet start task post)
    (hnext : ∀ value, post value → Quiet start (next value) post') :
    Quiet start (task >>= next) post' := by
  intro world hquiet
  obtain ⟨hquiet', hpost⟩ := htask world hquiet
  rw [Task.on_bind]
  cases hon : task.on world with
  | mk outcome world' =>
      rw [hon] at hquiet' hpost
      cases outcome with
      | error error => exact ⟨hquiet', by simp⟩
      | ok value => exact hnext value (hpost value rfl) world' hquiet'

theorem get {next : World → Task β} (h : ∀ world, start.Quiet world →
    Quiet start (next world) post') : Quiet start (MonadState.get >>= next) post' := by
  intro world hquiet
  rw [Task.on_bind]
  exact h world hquiet world hquiet

theorem ofModify {change : World → World} (h : ∀ world, start.Quiet world →
    start.Quiet (change world)) : Quiet start (modify change) fun _ => True :=
  fun world hquiet => ⟨h world hquiet, fun _ _ => trivial⟩

theorem forM {step : β → Task Unit} {list : List β}
    (h : ∀ item ∈ list, Quiet start (step item) fun _ => True) :
    Quiet start (list.forM step) fun _ => True := by
  induction list with
  | nil => exact pure trivial
  | cons item rest ih =>
      exact bind (h item List.mem_cons_self) fun _ _ =>
        ih fun other hmem => h other (List.mem_cons_of_mem _ hmem)

theorem mapM {step : α → Task β} {list : List α}
    (h : ∀ item ∈ list, Quiet start (step item) fun _ => True) :
    Quiet start (list.mapM step) fun _ => True := by
  induction list with
  | nil => exact pure trivial
  | cons item rest ih =>
      rw [List.mapM_cons]
      exact bind (h item List.mem_cons_self) fun _ _ =>
        bind (ih fun other hmem => h other (List.mem_cons_of_mem _ hmem)) fun _ _ => pure trivial

end Quiet

theorem quiet_log {start : World} {entry : LogEntry} : Quiet start (log entry) fun _ => True :=
  Quiet.ofModify fun _ hquiet => hquiet.trans (.ofLog _)

end Task

/-- When an importer is changed each importer is what it was, or changed. -/
theorem World.importer_update (world : World) (id other : ImporterId)
    (change : Importer → Importer) :
    World.importer { world with importers := world.importers.update id.index change } other =
        world.importer other ∨
      World.importer { world with importers := world.importers.update id.index change } other =
        change (world.importer other) := by
  simp only [World.importer, Table.get?_update]
  split
  · cases world.importers.get? other.index <;> simp
  · simp

namespace World.Quiet

variable {start world : World} {importer : ImporterId}

theorem ownsType_eq (h : start.Quiet world) :
    importer.ownsType world = importer.ownsType start := by
  have hdefs := h.defs
  funext id
  simp only [ImporterId.ownsType, hdefs, h.scope]

/-- What an importer owns and binds is the same. -/
theorem bind_eq (h : start.Quiet world) : world.bind importer = start.bind importer := by
  have hdefs := h.defs
  have htype : world.ownsType importer = start.ownsType importer := by
    funext id
    simp only [ownsType, hdefs, h.ownsType_eq]
  have hfield : world.ownsField importer = start.ownsField importer := by
    funext id
    simp only [ownsField, ImporterId.ownsMember, hdefs, h.ownsType_eq]
  have hmethod : importer.ownsMethod world = importer.ownsMethod start := by
    funext id
    simp only [ImporterId.ownsMethod, ImporterId.ownsMember, hdefs, h.ownsType_eq]
  simp only [bind, htype, hfield, hmethod, boundType?, boundField?, boundMethod?, hdefs, h.types,
    h.fields, h.methods]

theorem imports_eq (h : start.Quiet world) : world.Imports importer = start.Imports importer := by
  have hdefs := h.defs
  funext target
  cases target with
  | unknown | declaration => rfl
  | definition definition =>
      cases definition <;>
        simp only [Imports, ownsType, ownsField, boundType?, boundField?, boundMethod?,
          ImporterId.ownsMethod, ImporterId.ownsMember, h.ownsType_eq, hdefs, h.types, h.fields,
          h.methods]

/-- Whatever is done to the waiting work and the slots of an importer, its bindings stay. -/
theorem ofImporter {change : Importer → Importer}
    (h : ∀ state, (change state).scope = state.scope ∧ (change state).types = state.types ∧
      (change state).fields = state.fields ∧ (change state).methods = state.methods) :
    world.Quiet { world with importers := world.importers.update importer.index change } := by
  constructor
  case slots => exact fun _ _ hfilled => hfilled
  case importers =>
    intro index hhas
    simp only [Table.has, Table.get?_update] at hhas ⊢
    split <;> simpa using hhas
  all_goals first | rfl | intro id
  all_goals
    rcases world.importer_update importer id change with heq | heq <;> rw [heq]
    first
      | exact (h _).1
      | exact (h _).2.1
      | exact (h _).2.2.1
      | exact (h _).2.2.2

end World.Quiet

namespace ImporterId

open Graft.Task

variable {start : World} {importer : ImporterId}

/-- What a slot is filled with stays in it. -/
theorem quiet_fillSlot {slot : SlotId} {owner : DeclId .method} :
    Quiet start (fillSlot slot owner) fun _ => True := by
  refine Quiet.ofModify fun world hquiet => hquiet.trans
    ⟨rfl, rfl, rfl, rfl, fun _ => rfl, fun _ => rfl, fun _ => rfl, fun _ => rfl, ?_,
    fun _ h => h⟩
  intro other method hmethod
  simp only [World.slot?, Option.join_eq_some_iff] at hmethod
  simp only [World.slot?, Array.getElem?_modify, hmethod]
  split <;> simp

theorem quiet_continueWith {method : DeclId .method} {work : Continuation} :
    Quiet start (continueWith method work) fun _ => True := by
  cases work with
  | own slot => exact quiet_fillSlot
  | notify label =>
      exact Quiet.ofModify fun _ hquiet => hquiet.trans
        ⟨rfl, rfl, rfl, rfl, fun _ => rfl, fun _ => rfl, fun _ => rfl, fun _ => rfl,
          fun _ _ h => h, fun _ h => h⟩

theorem quiet_livingMethod? {token : Token} :
    Quiet start (importer.livingMethod? token) fun _ => True :=
  Quiet.get fun _ _ => Quiet.pure trivial

theorem quiet_defer {token : Token} {work : Continuation} :
    Quiet start (importer.defer token work) fun _ => True := by
  refine Quiet.bind quiet_livingMethod? fun found _ => ?_
  cases found with
  | some declaration => exact quiet_continueWith
  | none =>
      exact Quiet.ofModify fun _ hquiet =>
        hquiet.trans (World.Quiet.ofImporter fun _ => ⟨rfl, rfl, rfl, rfl⟩)

theorem quiet_makeSlot : Quiet start makeSlot fun _ => True := by
  refine fun world hquiet => ⟨hquiet.trans
    ⟨rfl, rfl, rfl, rfl, fun _ => rfl, fun _ => rfl, fun _ => rfl, fun _ => rfl, ?_,
    fun _ h => h⟩,
    fun _ _ => trivial⟩
  intro other method hmethod
  simp only [World.slot?, Option.join_eq_some_iff] at hmethod
  have hbound : other.index < world.slots.size := (Array.getElem?_eq_some_iff.mp hmethod).1
  change ((world.slots.push none)[other.index]?).join = some method
  rw [Array.getElem?_push_lt hbound]
  rw [Array.getElem?_eq_getElem hbound] at hmethod
  simp [Option.some.inj hmethod]

theorem quiet_slotFor {token : Token} : Quiet start (importer.slotFor token) fun _ => True := by
  have hstate : Quiet start importer.state fun _ => True := Quiet.get fun _ _ => Quiet.pure trivial
  refine Quiet.bind hstate fun state _ => ?_
  cases state.deferred.get? token with
  | some slot => exact Quiet.pure trivial
  | none =>
      refine Quiet.bind quiet_makeSlot fun slot _ => Quiet.bind quiet_defer fun _ _ => ?_
      have hchange : Quiet start (Task.changeImporter importer fun state =>
          { state with deferred := state.deferred.insert token slot }) fun _ => True :=
        Quiet.ofModify fun _ hquiet =>
          hquiet.trans (World.Quiet.ofImporter fun _ => ⟨rfl, rfl, rfl, rfl⟩)
      exact Quiet.bind hchange fun _ _ => Quiet.pure trivial

theorem quiet_importOwnerDef {id : DefId .method} :
    Quiet start (importer.importOwnerDef id) fun _ => True := by
  refine Quiet.get fun world _ => ?_
  split
  · dsimp only
    split
    · exact Quiet.pure trivial
    · exact Quiet.bind quiet_slotFor fun _ _ => Quiet.pure trivial
  · exact Quiet.pure trivial

theorem quiet_importTypeDef {id : DefId .type} :
    Quiet start (importer.importTypeDef id) fun imported =>
      start.Imports importer (.definition (.type id)) ∧
        imported.relink .bare = ((start.bind importer).onType (.definition id)).relink .bare := by
  refine Quiet.get fun world hquiet => ?_
  rw [← hquiet.bind_eq, ← hquiet.imports_eq]
  simp only [World.bind, World.Imports, World.boundType?]
  split
  · have howns : world.ownsType importer id = true := ‹_›
    rw [if_pos howns]
    cases (world.importer importer).types.get? (world.defs.token (.type id)) with
    | none => exact Quiet.throw
    | some declaration => exact Quiet.pure ⟨fun _ => rfl, rfl⟩
  · have howns : ¬world.ownsType importer id = true := ‹_›
    rw [if_neg howns]
    exact Quiet.pure ⟨fun h => absurd h howns, rfl⟩

theorem quiet_importMethodDef {id : DefId .method} :
    Quiet start (importer.importMethodDef id) fun imported =>
      start.Imports importer (.definition (.method id)) ∧
        imported.relink .bare =
          ((start.bind importer).onMethod (.definition id)).relink .bare := by
  refine Quiet.get fun world hquiet => ?_
  rw [← hquiet.bind_eq, ← hquiet.imports_eq]
  simp only [World.bind, World.Imports, World.boundMethod?]
  split
  · cases (world.importer importer).methods.get? (world.defs.token (.method id)) with
    | none => exact Quiet.throw
    | some declaration => exact Quiet.pure ⟨fun _ => rfl, rfl⟩
  · rename_i howns
    exact Quiet.pure ⟨fun h => absurd h howns, rfl⟩

mutual

/-- Importing a type reference binds it. -/
theorem quiet_importTypeRef (ref : TypeRef) :
    Quiet start (importer.importTypeRef ref) fun imported =>
      (∀ target ∈ ref.targets, start.Imports importer target) ∧
        imported.relink .bare = (ref.relink (start.bind importer)).relink .bare := by
  cases ref with
  | definition id =>
      simp only [importTypeRef, TypeRef.targets, TypeRef.relink, List.forall_mem_singleton]
      exact quiet_importTypeDef
  | external type =>
      simp only [importTypeRef, TypeRef.targets, TypeRef.relink]
      exact Quiet.pure (by simp [TypeRef.relink])
  | declared id =>
      simp only [importTypeRef, TypeRef.targets, TypeRef.relink, List.forall_mem_singleton]
      exact Quiet.pure ⟨trivial, by simp [World.bind]⟩
  | constructed signature =>
      simp only [importTypeRef, TypeRef.targets, TypeRef.relink]
      refine Quiet.bind (quiet_importTypeSig signature) ?_
      rintro imported ⟨hadmits, hbinds⟩
      exact Quiet.pure ⟨hadmits, by rw [TypeRef.relink, hbinds]⟩
termination_by structural ref

theorem quiet_importMethodRef (ref : MethodRef) :
    Quiet start (importer.importMethodRef ref) fun imported =>
      (∀ target ∈ ref.targets, start.Imports importer target) ∧
        imported.relink .bare = (ref.relink (start.bind importer)).relink .bare := by
  cases ref with
  | definition id =>
      simp only [importMethodRef, MethodRef.targets, MethodRef.relink, List.forall_mem_singleton]
      exact quiet_importMethodDef
  | declared id =>
      simp only [importMethodRef, MethodRef.targets, MethodRef.relink, List.forall_mem_singleton]
      exact Quiet.pure ⟨trivial, by simp [World.bind]⟩
  | external owner name signature =>
      simp only [importMethodRef, MethodRef.targets, MethodRef.relink, List.forall_mem_append]
      refine Quiet.bind (quiet_importTypeRef owner) ?_
      rintro owner' ⟨hadmits, hbinds⟩
      refine Quiet.bind (quiet_importMethodSig signature) ?_
      rintro signature' ⟨hadmits', hbinds'⟩
      exact Quiet.pure ⟨⟨hadmits, hadmits'⟩, by rw [MethodRef.relink, hbinds, hbinds']⟩
  | instantiated method args =>
      simp only [importMethodRef, MethodRef.targets, MethodRef.relink, List.forall_mem_append]
      refine Quiet.bind (quiet_importMethodRef method) ?_
      rintro method' ⟨hadmits, hbinds⟩
      refine Quiet.bind (quiet_importTypeSigs args) ?_
      rintro args' ⟨hadmits', hbinds'⟩
      exact Quiet.pure ⟨⟨hadmits, hadmits'⟩, by rw [MethodRef.relink, hbinds, hbinds']⟩
termination_by structural ref

theorem quiet_importOwner (owner : VarOwner) :
    Quiet start (importer.importOwner owner) fun _ => True := by
  cases owner with
  | unbound | deferred slot =>
      simp only [importOwner]
      exact Quiet.pure trivial
  | type type =>
      simp only [importOwner]
      exact Quiet.bind (quiet_importTypeRef type) fun _ _ => Quiet.pure trivial
  | method method =>
      cases method with
      | definition id =>
          simp only [importOwner]
          exact quiet_importOwnerDef
      | declared id =>
          simp only [importOwner]
          exact Quiet.pure trivial
      | external type name signature =>
          simp only [importOwner]
          exact Quiet.bind (quiet_importTypeRef type) fun _ _ =>
            Quiet.bind (quiet_importMethodSig signature) fun _ _ => Quiet.pure trivial
      | instantiated method args =>
          simp only [importOwner]
          exact Quiet.bind (quiet_importMethodRef method) fun _ _ =>
            Quiet.bind (quiet_importTypeSigs args) fun _ _ => Quiet.pure trivial
termination_by structural owner

theorem quiet_importTypeSig (signature : TypeSig) :
    Quiet start (importer.importTypeSig signature) fun imported =>
      (∀ target ∈ signature.targets, start.Imports importer target) ∧
        imported.relink .bare = (signature.relink (start.bind importer)).relink .bare := by
  cases signature with
  | unknown =>
      simp only [importTypeSig]
      exact Quiet.throw
  | sentinel | primitive =>
      simp only [importTypeSig, TypeSig.targets, TypeSig.relink]
      exact Quiet.pure (by simp [TypeSig.relink])
  | classType type | valueType type =>
      simp only [importTypeSig, TypeSig.targets, TypeSig.relink]
      refine Quiet.bind (quiet_importTypeRef type) ?_
      rintro type' ⟨hadmits, hbinds⟩
      exact Quiet.pure ⟨hadmits, by rw [TypeSig.relink, hbinds]⟩
  | genericVar kind index owner =>
      simp only [importTypeSig, TypeSig.targets, TypeSig.relink]
      exact Quiet.bind (quiet_importOwner owner) fun owner' _ =>
        Quiet.pure (by simp [TypeSig.relink, Relink.bare])
  | function signature =>
      simp only [importTypeSig, TypeSig.targets, TypeSig.relink]
      refine Quiet.bind (quiet_importMethodSig signature) ?_
      rintro signature' ⟨hadmits, hbinds⟩
      exact Quiet.pure ⟨hadmits, by rw [TypeSig.relink, hbinds]⟩
  | applied generic args =>
      simp only [importTypeSig, TypeSig.targets, TypeSig.relink, List.forall_mem_append]
      refine Quiet.bind (quiet_importTypeSig generic) ?_
      rintro generic' ⟨hadmits, hbinds⟩
      refine Quiet.bind (quiet_importTypeSigs args) ?_
      rintro args' ⟨hadmits', hbinds'⟩
      exact Quiet.pure ⟨⟨hadmits, hadmits'⟩, by rw [TypeSig.relink, hbinds, hbinds']⟩
  | pointer inner | byRef inner | vector inner | pinned inner | array inner shape
  | inModule index inner =>
      simp only [importTypeSig, TypeSig.targets, TypeSig.relink]
      refine Quiet.bind (quiet_importTypeSig inner) ?_
      rintro inner' ⟨hadmits, hbinds⟩
      exact Quiet.pure ⟨hadmits, by rw [TypeSig.relink, hbinds]⟩
  | required modifier inner | optional modifier inner =>
      simp only [importTypeSig, TypeSig.targets, TypeSig.relink, List.forall_mem_append]
      refine Quiet.bind (quiet_importTypeRef modifier) ?_
      rintro modifier' ⟨hadmits, hbinds⟩
      refine Quiet.bind (quiet_importTypeSig inner) ?_
      rintro inner' ⟨hadmits', hbinds'⟩
      exact Quiet.pure ⟨⟨hadmits, hadmits'⟩, by rw [TypeSig.relink, hbinds, hbinds']⟩
termination_by structural signature

theorem quiet_importMethodSig (signature : MethodSig) :
    Quiet start (importer.importMethodSig signature) fun imported =>
      (∀ target ∈ signature.targets, start.Imports importer target) ∧
        imported.relink .bare = (signature.relink (start.bind importer)).relink .bare := by
  obtain ⟨callConv, genericCount, result, params, varargs⟩ := signature
  simp only [importMethodSig, MethodSig.targets, MethodSig.relink, List.forall_mem_append]
  refine Quiet.bind (quiet_importTypeSig result) ?_
  rintro result' ⟨hadmits, hbinds⟩
  refine Quiet.bind (quiet_importTypeSigs params) ?_
  rintro params' ⟨hadmits', hbinds'⟩
  refine Quiet.bind (quiet_importTypeSigs varargs) ?_
  rintro varargs' ⟨hadmits'', hbinds''⟩
  exact Quiet.pure
    ⟨⟨⟨hadmits, hadmits'⟩, hadmits''⟩, by rw [MethodSig.relink, hbinds, hbinds', hbinds'']⟩
termination_by structural signature

theorem quiet_importTypeSigs (signatures : List TypeSig) :
    Quiet start (importer.importTypeSigs signatures) fun imported =>
      (∀ target ∈ TypeSig.targetsList signatures, start.Imports importer target) ∧
        TypeSig.relinkList .bare imported =
          TypeSig.relinkList .bare (TypeSig.relinkList (start.bind importer) signatures) := by
  cases signatures with
  | nil =>
      simp only [importTypeSigs, TypeSig.targetsList, TypeSig.relinkList]
      exact Quiet.pure (by simp [TypeSig.relinkList])
  | cons signature rest =>
      simp only [importTypeSigs, TypeSig.targetsList, TypeSig.relinkList, List.forall_mem_append]
      refine Quiet.bind (quiet_importTypeSig signature) ?_
      rintro signature' ⟨hadmits, hbinds⟩
      refine Quiet.bind (quiet_importTypeSigs rest) ?_
      rintro rest' ⟨hadmits', hbinds'⟩
      exact Quiet.pure ⟨⟨hadmits, hadmits'⟩, by rw [TypeSig.relinkList, hbinds, hbinds']⟩
termination_by structural signatures

end

/-- Importing a field reference binds it. -/
theorem quiet_importFieldRef (ref : FieldRef) :
    Quiet start (importer.importFieldRef ref) fun imported =>
      (∀ target ∈ ref.targets, start.Imports importer target) ∧
        imported.relink .bare = (ref.relink (start.bind importer)).relink .bare := by
  cases ref with
  | definition id =>
      simp only [FieldRef.targets, List.forall_mem_singleton]
      refine Quiet.get fun world hquiet => ?_
      rw [← hquiet.bind_eq, ← hquiet.imports_eq, FieldRef.relink.eq_1]
      simp only [World.bind, World.Imports, World.boundField?]
      split
      · have howns : world.ownsField importer id = true := ‹_›
        rw [if_pos howns]
        cases (world.importer importer).fields.get? (world.defs.token (.field id)) with
        | none => exact Quiet.throw
        | some declaration => exact Quiet.pure ⟨fun _ => rfl, rfl⟩
      · have howns : ¬world.ownsField importer id = true := ‹_›
        rw [if_neg howns]
        exact Quiet.pure ⟨fun h => absurd h howns, rfl⟩
  | declared id => exact Quiet.pure ⟨by simp [FieldRef.targets, World.Imports], by
      simp [FieldRef.relink, World.bind]⟩
  | external owner name signature =>
      simp only [FieldRef.targets, List.forall_mem_append]
      refine Quiet.bind (quiet_importTypeRef owner) ?_
      rintro owner' ⟨hadmits, hbinds⟩
      refine Quiet.bind (quiet_importTypeSig signature) ?_
      rintro signature' ⟨hadmits', hbinds'⟩
      exact Quiet.pure ⟨⟨hadmits, hadmits'⟩, by simp only [FieldRef.relink, hbinds, hbinds']⟩

theorem quiet_importPropertySig {signature : PropertySig} :
    Quiet start (importer.importPropertySig signature) fun _ => True :=
  Quiet.bind (quiet_importTypeSig _) fun _ _ =>
    Quiet.bind (quiet_importTypeSigs _) fun _ _ => Quiet.pure trivial

theorem quiet_importGenericParam {param : GenericParam} :
    Quiet start (importer.importGenericParam param) fun _ => True :=
  Quiet.bind (Quiet.mapM fun _ _ world hquiet =>
    ⟨(quiet_importTypeRef _ world hquiet).1, fun _ _ => trivial⟩) fun _ _ => Quiet.pure trivial

theorem quiet_importOverride {override : Override} :
    Quiet start (importer.importOverride override) fun _ => True :=
  Quiet.bind (quiet_importMethodRef _) fun _ _ =>
    Quiet.bind (quiet_importMethodRef _) fun _ _ => Quiet.pure trivial

end ImporterId

/-! ## Where imported references lead -/

namespace World

variable {world : World} {importer : ImporterId} {target target' : Target}

/-- Whether something that can be referred to belongs to the patch module. -/
def owns (world : World) (importer : ImporterId) : Definition → Bool
  | .type id => world.ownsType importer id
  | .field id => world.ownsField importer id
  | .method id => importer.ownsMethod world id
  | _ => false

/-- The declaration that something of the patch module stands for. -/
def bound? (world : World) (importer : ImporterId) : Definition → Option Declaration
  | .type id => (world.boundType? importer id).map .type
  | .field id => (world.boundField? importer id).map .field
  | .method id => (world.boundMethod? importer id).map .method
  | _ => none

/-- An import leaves a target alone or replaces it by the declaration that it stands for. -/
theorem mem_image_bind (hmem : target' ∈ (world.bind importer).image target) :
    target' = target ∨ ∃ definition declaration, target = .definition definition ∧
      world.owns importer definition = true ∧
      world.bound? importer definition = some declaration ∧
      target' = .declaration declaration := by
  cases target with
  | unknown => exact .inl (by simpa [Relink.image] using hmem)
  | declaration declaration =>
      left
      cases declaration <;>
        simpa [Relink.image, bind, TypeRef.targets, FieldRef.targets, MethodRef.targets] using hmem
  | definition definition =>
      cases definition with
      | type id =>
          by_cases howns : world.ownsType importer id = true
          · cases hbound : world.boundType? importer id with
            | none => simp_all [Relink.image, bind, TypeRef.targets]
            | some found => simp_all [Relink.image, bind, TypeRef.targets, owns, bound?]
          · simp_all [Relink.image, bind, TypeRef.targets]
      | field id =>
          by_cases howns : world.ownsField importer id = true
          · cases hbound : world.boundField? importer id with
            | none => simp_all [Relink.image, bind, FieldRef.targets]
            | some found => simp_all [Relink.image, bind, FieldRef.targets, owns, bound?]
          · simp_all [Relink.image, bind, FieldRef.targets]
      | method id =>
          by_cases howns : importer.ownsMethod world id = true
          · cases hbound : world.boundMethod? importer id with
            | none => simp_all [Relink.image, bind, MethodRef.targets]
            | some found => simp_all [Relink.image, bind, MethodRef.targets, owns, bound?]
          · simp_all [Relink.image, bind, MethodRef.targets]
      | module | property | event => exact .inl (by simpa [Relink.image] using hmem)

/-- What has been imported is not left alone if it belongs to the patch module. -/
theorem not_owns_of_mem_image_bind {definition : Definition}
    (himports : world.Imports importer target)
    (hmem : .definition definition ∈ (world.bind importer).image target) :
    world.owns importer definition = false := by
  cases definition with
  | module | property | event => rfl
  | type id =>
      rcases mem_image_bind hmem with rfl | ⟨_, _, -, -, -, heq⟩
      · by_contra howns
        rw [Bool.not_eq_false] at howns
        obtain ⟨found, hbound⟩ := Option.isSome_iff_exists.mp (himports howns)
        replace howns : world.ownsType importer id = true := howns
        simp [Relink.image, bind, howns, hbound, TypeRef.targets] at hmem
      · cases heq
  | field id =>
      rcases mem_image_bind hmem with rfl | ⟨_, _, -, -, -, heq⟩
      · by_contra howns
        rw [Bool.not_eq_false] at howns
        obtain ⟨found, hbound⟩ := Option.isSome_iff_exists.mp (himports howns)
        replace howns : world.ownsField importer id = true := howns
        simp [Relink.image, bind, howns, hbound, FieldRef.targets] at hmem
      · cases heq
  | method id =>
      rcases mem_image_bind hmem with rfl | ⟨_, _, -, -, -, heq⟩
      · by_contra howns
        rw [Bool.not_eq_false] at howns
        obtain ⟨found, hbound⟩ := Option.isSome_iff_exists.mp (himports howns)
        replace howns : importer.ownsMethod world id = true := howns
        simp [Relink.image, bind, howns, hbound, MethodRef.targets] at hmem
      · cases heq

end World

end Graft
