import Graft.Proofs.Import.Declaring

/-!
# Placing declarations

Declaring a type or a member again answers the declaration that is there, and else makes a new one
and lists it in its scope (`Plants`): under the given name and policy, with the access of the scope,
holding nothing yet, and without anything else being listed anywhere. Whatever an import does,
declarations keep their names, terms and signatures, and what is listed stays listed (`Keeps`).
-/

namespace Graft

namespace Task

variable {α β : Type}

/-- Whether what a task answers and the world that it leaves are as `post` says whenever it
succeeds. -/
def Yields (world : World) (task : Task α) (post : α → World → Prop) : Prop :=
  ∀ value next, task.on world = (.ok value, next) → post value next

namespace Yields

variable {world : World} {task : Task α} {post post' : α → World → Prop} {last : β → World → Prop}

theorem pure {value : α} (h : post value world) : Yields world (Pure.pure value) post := by
  intro _ _ hon
  cases hon
  exact h

theorem throw {error : Error} : Yields world (MonadExcept.throw error) post :=
  fun _ _ hon => nomatch hon

theorem bind {rest : α → Task β} (htask : Yields world task post)
    (hrest : ∀ value next, post value next → Yields next (rest value) last) :
    Yields world (task >>= rest) last := by
  intro value final hon
  rw [Task.on_bind] at hon
  cases htaskOn : task.on world with
  | mk outcome next =>
      rw [htaskOn] at hon
      cases outcome with
      | error error => cases hon
      | ok first => exact hrest first next (htask first next htaskOn) value final hon

theorem mono (h : Yields world task post) (himp : ∀ value next, post value next → post' value next) :
    Yields world task post' :=
  fun value next hon => himp value next (h value next hon)

theorem and (h : Yields world task post) (h' : Yields world task post') :
    Yields world task fun value next => post value next ∧ post' value next :=
  fun value next hon => ⟨h value next hon, h' value next hon⟩

theorem get {rest : World → Task β} (h : Yields world (rest world) last) :
    Yields world (MonadState.get >>= rest) last := by
  intro value final hon
  rw [Task.on_bind] at hon
  exact h value final hon

theorem onDecls {γ : Type} {ask : Declarations → γ} {rest : γ → Task β}
    (h : Yields world (rest (ask world.decls)) last) :
    Yields world (Task.onDecls ask >>= rest) last := by
  unfold Task.onDecls
  rw [bind_assoc]
  refine get ?_
  rwa [pure_bind]

theorem changeDecls {change : Declarations → Declarations} {post : Unit → World → Prop}
    (h : post () { world with decls := change world.decls }) :
    Yields world (Task.changeDecls change) post := by
  intro _ _ hon
  cases hon
  exact h

theorem ofExcept {outcome : Except Error α} :
    Yields world (MonadExcept.ofExcept outcome) fun value next =>
      outcome = .ok value ∧ next = world := by
  intro value next hon
  rw [Task.on_ofExcept] at hon
  cases hon
  exact ⟨rfl, rfl⟩

theorem quiet {post : α → Prop} (h : Task.Quiet world task post) :
    Yields world task fun value next => world.Quiet next ∧ post value := by
  intro value next hon
  obtain ⟨hquiet, hpost⟩ := h world (.refl world)
  rw [hon] at hquiet hpost
  exact ⟨hquiet, hpost value rfl⟩

end Yields

end Task

namespace Declarations

variable {decls decls' decls'' : Declarations} {declaration holder node : Declaration}

/-! ## Reading what has been made or changed -/

section Reading

variable (decls)

@[simp] theorem type_makeType (record : TypeDecl) (id : DeclId .type) :
    (decls.makeType record).2.type id =
      if id.index = decls.types.next then record else decls.type id := by
  simp only [type, makeType, Table.get?_push]
  split <;> rfl

@[simp] theorem field_makeField (record : FieldDecl) (id : DeclId .field) :
    (decls.makeField record).2.field id =
      if id.index = decls.fields.next then record else decls.field id := by
  simp only [field, makeField, Table.get?_push]
  split <;> rfl

@[simp] theorem method_makeMethod (record : MethodDecl) (id : DeclId .method) :
    (decls.makeMethod record).2.method id =
      if id.index = decls.methods.next then record else decls.method id := by
  simp only [method, makeMethod, Table.get?_push]
  split <;> rfl

@[simp] theorem property_makeProperty (record : PropertyDecl) (id : DeclId .property) :
    (decls.makeProperty record).2.property id =
      if id.index = decls.properties.next then record else decls.property id := by
  simp only [property, makeProperty, Table.get?_push]
  split <;> rfl

@[simp] theorem event_makeEvent (record : EventDecl) (id : DeclId .event) :
    (decls.makeEvent record).2.event id =
      if id.index = decls.events.next then record else decls.event id := by
  simp only [event, makeEvent, Table.get?_push]
  split <;> rfl

@[simp] theorem module_makeModule (record : ModuleDecl) (id : DeclId .module) :
    (decls.makeModule record).2.module id =
      if id.index = decls.modules.next then record else decls.module id := by
  simp only [module, makeModule, Table.get?_push]
  split <;> rfl

theorem module_updateModule (id other : DeclId .module) (change : ModuleDecl → ModuleDecl) :
    (decls.updateModule id change).module other =
      if id = other ∧ decls.has (.module other) = true then change (decls.module other)
      else decls.module other := by
  by_cases heq : id = other
  · subst heq
    cases h : decls.modules.get? id.index <;> simp [module, updateModule, has, Table.has, h]
  · have hne : id.index ≠ other.index := fun h => heq (by cases id; cases other; cases h; rfl)
    simp [module, updateModule, heq, hne]

theorem type_updateType (id other : DeclId .type) (change : TypeDecl → TypeDecl) :
    (decls.updateType id change).type other =
      if id = other ∧ decls.has (.type other) = true then change (decls.type other)
      else decls.type other := by
  by_cases heq : id = other
  · subst heq
    cases h : decls.types.get? id.index <;> simp [type, updateType, has, Table.has, h]
  · have hne : id.index ≠ other.index := fun h => heq (by cases id; cases other; cases h; rfl)
    simp [type, updateType, heq, hne]

theorem field_updateField (id other : DeclId .field) (change : FieldDecl → FieldDecl) :
    (decls.updateField id change).field other =
      if id = other ∧ decls.has (.field other) = true then change (decls.field other)
      else decls.field other := by
  by_cases heq : id = other
  · subst heq
    cases h : decls.fields.get? id.index <;> simp [field, updateField, has, Table.has, h]
  · have hne : id.index ≠ other.index := fun h => heq (by cases id; cases other; cases h; rfl)
    simp [field, updateField, heq, hne]

theorem method_updateMethod (id other : DeclId .method) (change : MethodDecl → MethodDecl) :
    (decls.updateMethod id change).method other =
      if id = other ∧ decls.has (.method other) = true then change (decls.method other)
      else decls.method other := by
  by_cases heq : id = other
  · subst heq
    cases h : decls.methods.get? id.index <;> simp [method, updateMethod, has, Table.has, h]
  · have hne : id.index ≠ other.index := fun h => heq (by cases id; cases other; cases h; rfl)
    simp [method, updateMethod, heq, hne]

theorem property_updateProperty (id other : DeclId .property)
    (change : PropertyDecl → PropertyDecl) :
    (decls.updateProperty id change).property other =
      if id = other ∧ decls.has (.property other) = true then change (decls.property other)
      else decls.property other := by
  by_cases heq : id = other
  · subst heq
    cases h : decls.properties.get? id.index <;> simp [property, updateProperty, has, Table.has, h]
  · have hne : id.index ≠ other.index := fun h => heq (by cases id; cases other; cases h; rfl)
    simp [property, updateProperty, heq, hne]

theorem event_updateEvent (id other : DeclId .event) (change : EventDecl → EventDecl) :
    (decls.updateEvent id change).event other =
      if id = other ∧ decls.has (.event other) = true then change (decls.event other)
      else decls.event other := by
  by_cases heq : id = other
  · subst heq
    cases h : decls.events.get? id.index <;> simp [event, updateEvent, has, Table.has, h]
  · have hne : id.index ≠ other.index := fun h => heq (by cases id; cases other; cases h; rfl)
    simp [event, updateEvent, heq, hne]

end Reading

theorem type_mem_module {module : DeclId .module} {id : DeclId .type} :
    .type id ∈ decls.members (.module module) .type ↔ id ∈ (decls.module module).types := by
  simp [members]

theorem type_mem_type {outer id : DeclId .type} :
    .type id ∈ decls.members (.type outer) .type ↔ id ∈ (decls.type outer).nested := by
  simp [members]

/-! ## What stays -/

/-- The namespace that a type at top level is declared in. -/
def space? (decls : Declarations) : Declaration → Option String
  | .type id => (decls.type id).namespaceName?
  | _ => none

/-- Whether a declaration still says what it says once and for all, and holds no less than before.
-/
structure KeepsAt (decls decls' : Declarations) (declaration : Declaration) : Prop where
  terms : decls'.terms declaration = decls.terms declaration
  name : (decls'.statement declaration).name = (decls.statement declaration).name
  space : decls'.space? declaration = decls.space? declaration
  shape : (decls'.statement declaration).shape = (decls.statement declaration).shape
  members : ∀ kind, decls.members declaration kind ⊆ decls'.members declaration kind
  accessors : decls.accessors declaration ⊆ decls'.accessors declaration

/-- Whether all declarations are still there and keep what they say. -/
structure Keeps (decls decls' : Declarations) : Prop where
  has : ∀ declaration, decls.has declaration = true → decls'.has declaration = true
  stays : ∀ declaration, decls.has declaration = true → decls.KeepsAt decls' declaration

theorem KeepsAt.trans (h : decls.KeepsAt decls' declaration)
    (h' : decls'.KeepsAt decls'' declaration) : decls.KeepsAt decls'' declaration where
  terms := h'.terms.trans h.terms
  name := h'.name.trans h.name
  space := h'.space.trans h.space
  shape := h'.shape.trans h.shape
  members kind := List.Subset.trans (h.members kind) (h'.members kind)
  accessors := List.Subset.trans h.accessors h'.accessors

theorem KeepsAt.methodName {id : DeclId .method} (h : decls.KeepsAt decls' (.method id)) :
    (decls'.method id).name = (decls.method id).name :=
  h.name

theorem KeepsAt.signature {id : DeclId .method} (h : decls.KeepsAt decls' (.method id)) :
    (decls'.method id).signature = (decls.method id).signature :=
  Shape.method.inj h.shape

theorem Keeps.refl (decls : Declarations) : decls.Keeps decls :=
  ⟨fun _ h => h, fun _ _ =>
    ⟨rfl, rfl, rfl, rfl, fun _ => List.Subset.refl _, List.Subset.refl _⟩⟩

theorem Keeps.trans (h : decls.Keeps decls') (h' : decls'.Keeps decls'') : decls.Keeps decls'' :=
  ⟨fun _ hhas => h'.has _ (h.has _ hhas),
    fun _ hhas => (h.stays _ hhas).trans (h'.stays _ (h.has _ hhas))⟩

/-- Whether a declaration is the same in both. -/
def AgreesAt (decls decls' : Declarations) : Declaration → Prop
  | .module id => decls'.module id = decls.module id
  | .type id => decls'.type id = decls.type id
  | .field id => decls'.field id = decls.field id
  | .method id => decls'.method id = decls.method id
  | .property id => decls'.property id = decls.property id
  | .event id => decls'.event id = decls.event id

theorem AgreesAt.members (h : decls.AgreesAt decls' declaration) (kind : SymbolKind) :
    decls'.members declaration kind = decls.members declaration kind := by
  cases declaration <;> simp only [AgreesAt] at h <;> cases kind <;>
    simp only [Declarations.members, h]

theorem AgreesAt.keeps (h : decls.AgreesAt decls' declaration) :
    decls.KeepsAt decls' declaration := by
  refine ⟨?_, ?_, ?_, ?_, fun kind => h.members kind ▸ List.Subset.refl _, ?_⟩ <;>
    cases declaration <;> simp only [AgreesAt] at h <;>
    simp [Declarations.terms, Declarations.statement, Declarations.space?, Declarations.accessors, h]

/-! ## Making -/

/-- Whether a declaration that holds nothing is made, and nothing else. -/
structure Makes (decls decls' : Declarations) (made : Declaration) : Prop where
  gains : decls.Gains decls' made
  agrees : ∀ declaration, declaration ≠ made → decls.AgreesAt decls' declaration
  members : ∀ kind, decls'.members made kind = []
  bodies : ∀ id, (decls'.method id).body = (decls.method id).body

theorem body_of_absent {id : DeclId .method} (habsent : decls.has (.method id) = false) :
    (decls.method id).body = none := by
  have hnone : decls.methods.get? id.index = none := by simpa [has, Table.has] using habsent
  rw [method, hnone]
  rfl

theorem makeModule_makes {record : ModuleDecl} (htypes : record.types = []) :
    decls.Makes (decls.makeModule record).2 (.module (decls.makeModule record).1) where
  gains := decls.makeModule_gains record
  agrees declaration hne := by
    cases declaration with
    | module id => exact (module_makeModule ..).trans (if_neg fun h => hne (by cases id; cases h; rfl))
    | _ => rfl
  members kind := by
    cases kind with
    | type => simp [members, module, makeModule, htypes]
    | _ => rfl
  bodies _ := rfl

theorem makeType_makes {terms : Terms} {place : TypePlace} {name : String} :
    decls.Makes (decls.makeType { terms, place, name }).2
      (.type (decls.makeType { terms, place, name }).1) where
  gains := decls.makeType_gains _
  agrees declaration hne := by
    cases declaration with
    | type id => exact (type_makeType ..).trans (if_neg fun h => hne (by cases id; cases h; rfl))
    | _ => rfl
  members kind := by cases kind <;> simp [members, type, makeType]
  bodies _ := rfl

theorem makeField_makes {record : FieldDecl} :
    decls.Makes (decls.makeField record).2 (.field (decls.makeField record).1) where
  gains := decls.makeField_gains record
  agrees declaration hne := by
    cases declaration with
    | field id => exact (field_makeField ..).trans (if_neg fun h => hne (by cases id; cases h; rfl))
    | _ => rfl
  members _ := rfl
  bodies _ := rfl

theorem makeMethod_makes {record : MethodDecl} (hbody : record.body = none) :
    decls.Makes (decls.makeMethod record).2 (.method (decls.makeMethod record).1) where
  gains := decls.makeMethod_gains record
  agrees declaration hne := by
    cases declaration with
    | method id =>
        exact (method_makeMethod ..).trans (if_neg fun h => hne (by cases id; cases h; rfl))
    | _ => rfl
  members _ := rfl
  bodies id := by
    rw [method_makeMethod]
    split
    · rename_i hindex
      have habsent : decls.has (.method id) = false := by simp [has, hindex]
      rw [hbody, body_of_absent habsent]
    · rfl

theorem makeProperty_makes {record : PropertyDecl} :
    decls.Makes (decls.makeProperty record).2 (.property (decls.makeProperty record).1) where
  gains := decls.makeProperty_gains record
  agrees declaration hne := by
    cases declaration with
    | property id =>
        exact (property_makeProperty ..).trans (if_neg fun h => hne (by cases id; cases h; rfl))
    | _ => rfl
  members _ := rfl
  bodies _ := rfl

theorem makeEvent_makes {record : EventDecl} :
    decls.Makes (decls.makeEvent record).2 (.event (decls.makeEvent record).1) where
  gains := decls.makeEvent_gains record
  agrees declaration hne := by
    cases declaration with
    | event id => exact (event_makeEvent ..).trans (if_neg fun h => hne (by cases id; cases h; rfl))
    | _ => rfl
  members _ := rfl
  bodies _ := rfl

/-! ## Listing -/

/-- Whether a declaration is listed in its scope, and nothing else changes. -/
structure Lists (decls decls' : Declarations) (holder node : Declaration) : Prop where
  has : ∀ declaration, decls'.has declaration = decls.has declaration
  agrees : ∀ declaration, declaration ≠ holder → decls.AgreesAt decls' declaration
  keeps : decls.KeepsAt decls' holder
  listed : node ∈ decls'.members holder node.kind
  only : ∀ kind item, item ∈ decls'.members holder kind →
    item ∈ decls.members holder kind ∨ kind = node.kind ∧ item = node
  bodies : ∀ id, (decls'.method id).body = (decls.method id).body

theorem Lists.of_members (hhas : ∀ declaration, decls'.has declaration = decls.has declaration)
    (hagrees : ∀ declaration, declaration ≠ holder → decls.AgreesAt decls' declaration)
    (hterms : decls'.terms holder = decls.terms holder)
    (hname : (decls'.statement holder).name = (decls.statement holder).name)
    (hspace : decls'.space? holder = decls.space? holder)
    (hshape : (decls'.statement holder).shape = (decls.statement holder).shape)
    (haccessors : decls'.accessors holder = decls.accessors holder)
    (hmembers : ∀ kind, decls'.members holder kind =
      decls.members holder kind ++ if kind = node.kind then [node] else [])
    (hbodies : ∀ id, (decls'.method id).body = (decls.method id).body) :
    decls.Lists decls' holder node where
  has := hhas
  agrees := hagrees
  keeps := ⟨hterms, hname, hspace, hshape, fun kind => by simp [hmembers],
    haccessors ▸ List.Subset.refl _⟩
  listed := by simp [hmembers]
  only kind item hmem := by
    rw [hmembers, List.mem_append] at hmem
    refine hmem.imp_right fun hmem => ?_
    split at hmem
    · exact ⟨‹_›, List.mem_singleton.mp hmem⟩
    · cases hmem
  bodies := hbodies

/-- Listing a declaration changes nothing that any declaration says. -/
theorem Lists.keepsAt (h : decls.Lists decls' holder node) (declaration : Declaration) :
    decls.KeepsAt decls' declaration := by
  by_cases heq : declaration = holder
  · exact heq ▸ h.keeps
  · exact (h.agrees declaration heq).keeps

theorem updateModule_lists {module : DeclId .module} {id : DeclId .type}
    (hhas : decls.has (.module module) = true) :
    decls.Lists (decls.updateModule module fun record => { record with types := record.types ++ [id] })
      (.module module) (.type id) := by
  have hread : (decls.updateModule module fun record =>
      { record with types := record.types ++ [id] }).module module =
        { decls.module module with types := (decls.module module).types ++ [id] } := by
    rw [module_updateModule, if_pos ⟨rfl, hhas⟩]
  refine .of_members (by simp) (fun declaration hne => ?_) ?_ ?_ rfl rfl rfl (fun kind => ?_)
    fun _ => rfl
  · cases declaration with
    | module other =>
        exact (module_updateModule ..).trans (if_neg fun h => hne (congrArg _ h.1.symm))
    | _ => rfl
  · simp only [terms, hread]
  · simp only [statement, hread]
  · cases kind <;> simp [members, hread, Declaration.kind]

/-- What a type declares of one kind. -/
def held (record : TypeDecl) : SymbolKind → List Declaration
  | .type => record.nested.map .type
  | .field => record.fields.map .field
  | .method => record.methods.map .method
  | .property => record.properties.map .property
  | .event => record.events.map .event
  | .module => []

theorem members_type (decls : Declarations) (id : DeclId .type) (kind : SymbolKind) :
    decls.members (.type id) kind = held (decls.type id) kind := by
  cases kind <;> rfl

theorem updateType_lists {owner : DeclId .type} {change : TypeDecl → TypeDecl}
    (hhas : decls.has (.type owner) = true)
    (hterms : ∀ record, (change record).terms = record.terms)
    (hplace : ∀ record, (change record).place = record.place)
    (hname : ∀ record, (change record).name = record.name)
    (hheld : ∀ record kind,
      held (change record) kind = held record kind ++ if kind = node.kind then [node] else []) :
    decls.Lists (decls.updateType owner change) (.type owner) node := by
  have hread : (decls.updateType owner change).type owner = change (decls.type owner) := by
    rw [type_updateType, if_pos ⟨rfl, hhas⟩]
  refine .of_members (by simp) (fun declaration hne => ?_) ?_ ?_ ?_ rfl rfl (fun kind => ?_)
    fun _ => rfl
  · cases declaration with
    | type other =>
        exact (type_updateType ..).trans (if_neg fun h => hne (congrArg _ h.1.symm))
    | _ => rfl
  · simp only [terms, hread, hterms]
  · simp only [statement, hread, hname]
  · simp only [space?, hread, TypeDecl.namespaceName?, hplace]
  · rw [members_type, members_type, hread, hheld]

/-! ## Names of types -/

/-- Whether there are the same types, each in the same place under the same name. -/
structure SameTypes (decls decls' : Declarations) : Prop where
  next : decls'.types.next = decls.types.next
  has : ∀ id, decls'.has (.type id) = decls.has (.type id)
  place : ∀ id, (decls'.type id).place = (decls.type id).place
  name : ∀ id, (decls'.type id).name = (decls.type id).name

theorem SameTypes.of_eq (h : decls'.types = decls.types) : decls.SameTypes decls' where
  next := by rw [h]
  has _ := by simp only [Declarations.has, h]
  place _ := by simp only [Declarations.type, h]
  name _ := by simp only [Declarations.type, h]

theorem SameTypes.trans (h : decls.SameTypes decls') (h' : decls'.SameTypes decls'') :
    decls.SameTypes decls'' where
  next := h'.next.trans h.next
  has id := (h'.has id).trans (h.has id)
  place id := (h'.place id).trans (h.place id)
  name id := (h'.name id).trans (h.name id)

theorem SameTypes.updateType {owner : DeclId .type} {change : TypeDecl → TypeDecl}
    (hplace : ∀ record, (change record).place = record.place)
    (hname : ∀ record, (change record).name = record.name) :
    decls.SameTypes (decls.updateType owner change) where
  next := by simp [Declarations.updateType]
  has := by simp
  place id := by rw [type_updateType]; split <;> simp [hplace]
  name id := by rw [type_updateType]; split <;> simp [hname]

/-- A type that lists something is still where it was, under its name. -/
theorem SameTypes.ofUpdate {middle : Declarations} {owner : DeclId .type}
    {change : TypeDecl → TypeDecl} (htypes : middle.types = decls.types)
    (hplace : ∀ record, (change record).place = record.place)
    (hname : ∀ record, (change record).name = record.name) :
    decls.SameTypes (middle.updateType owner change) :=
  .trans (.of_eq htypes) (.updateType hplace hname)

/-- The same types have the same full names. -/
theorem SameTypes.typeName_eq (h : decls.SameTypes decls') (id : DeclId .type) :
    decls'.typeName id = decls.typeName id := by
  have hwithin (fuel : Nat) (id : DeclId .type) :
      decls'.typeNameWithin fuel id = decls.typeNameWithin fuel id := by
    induction fuel generalizing id with
    | zero => simp only [typeNameWithin, h.name]
    | succ fuel ih =>
        have hhas (owner : DeclId .type) :
            decls'.types.has owner.index = decls.types.has owner.index := h.has owner
        simp only [typeNameWithin, h.name, h.place, ih, hhas]
  simp only [typeName, h.next, hwithin]

/-! ## Placing -/

/-- What holds of a declaration that was not there before. -/
structure Fresh (decls decls' : Declarations) (holder node : Declaration) : Prop where
  absent : decls.has node = false
  members : ∀ kind, decls'.members node kind = []
  readOnly : (decls'.terms node).readOnly = (decls.terms holder).readOnly

/-- Whether a declaration answers to a name, in a namespace where one is asked for. -/
def Named (decls : Declarations) (space? : Option String) (name : String) (node : Declaration) : Prop :=
  (decls.statement node).name = name ∧ ∀ space ∈ space?, decls.space? node = some space

/-- Whether something is declared in a scope: a declaration that is listed there answers for it, be
it new or not, and nothing else is listed anywhere. -/
structure Plants (decls decls' : Declarations) (holder node : Declaration) (policy : Policy)
    (space? : Option String) (name : String) : Prop where
  keeps : decls.Keeps decls'
  has : decls'.has node = true
  listed : node ∈ decls'.members holder node.kind
  terms : (decls'.terms node).policy = policy
  named : decls'.Named space? name node
  only : ∀ other kind item, item ∈ decls'.members other kind →
    item ∈ decls.members other kind ∨ other = holder ∧ kind = node.kind ∧ item = node
  bodies : ∀ id, (decls'.method id).body = (decls.method id).body
  types : node.kind ≠ .type → decls.SameTypes decls'
  fresh : node ∈ decls.members holder node.kind ∨ decls.Fresh decls' holder node
  apart : node ∈ decls.members holder node.kind ∨ node.kind = .method ∨
    ∀ other ∈ decls.members holder node.kind, ¬ decls.Named space? name other

variable {policy : Policy} {space? : Option String} {name : String}

theorem Named.keeps (h : decls.Named space? name node) (hkeeps : decls.KeepsAt decls' node) :
    decls'.Named space? name node :=
  ⟨hkeeps.name.trans h.1, fun space hspace => hkeeps.space.trans (h.2 space hspace)⟩

/-- What is listed already may be declared again. -/
theorem Plants.again (hhas : decls.has node = true) (hmem : node ∈ decls.members holder node.kind)
    (hpolicy : (decls.terms node).policy = policy) (hnamed : decls.Named space? name node) :
    decls.Plants decls holder node policy space? name where
  keeps := .refl decls
  has := hhas
  listed := hmem
  terms := hpolicy
  named := hnamed
  only _ _ _ := .inl
  bodies _ := rfl
  types _ := .of_eq rfl
  fresh := .inl hmem
  apart := .inl hmem

/-- A declaration that is made and listed. -/
theorem Plants.anew {middle : Declarations} (hmakes : decls.Makes middle node)
    (hlists : middle.Lists decls' holder node) (hholder : decls.has holder = true)
    (hterms : middle.terms node = ⟨policy, (decls.terms holder).readOnly⟩)
    (hnamed : middle.Named space? name node) (htypes : node.kind ≠ .type → decls.SameTypes decls')
    (happart : node.kind = .method ∨
      ∀ other ∈ decls.members holder node.kind, ¬ decls.Named space? name other) :
    decls.Plants decls' holder node policy space? name := by
  have hne : node ≠ holder := fun h => by simp [← h, hmakes.gains.fresh] at hholder
  have hmiddle : decls.Keeps middle := by
    refine ⟨fun declaration hhas => (hmakes.gains.has declaration).mpr (.inl hhas),
      fun declaration hhas => (hmakes.agrees declaration fun h => ?_).keeps⟩
    simp [h, hmakes.gains.fresh] at hhas
  have hlast : middle.Keeps decls' :=
    ⟨fun declaration hhas => hlists.has declaration ▸ hhas, fun declaration _ =>
      hlists.keepsAt declaration⟩
  have hnode : middle.has node = true := (hmakes.gains.has node).mpr (.inr rfl)
  have hstays := hlast.stays node hnode
  refine
    { keeps := hmiddle.trans hlast
      has := hlast.has node hnode
      listed := hlists.listed
      terms := by rw [hstays.terms, hterms]
      named := hnamed.keeps hstays
      only := fun other kind item hmem => ?_
      bodies := fun id => (hlists.bodies id).trans (hmakes.bodies id)
      types := htypes
      fresh := .inr ⟨hmakes.gains.fresh, fun kind => ?_, by rw [hstays.terms, hterms]⟩
      apart := .inr happart }
  · -- Making comes before listing, and a node that was just made has no members.
    have hmiddleMem (hmem : item ∈ middle.members other kind) :
        item ∈ decls.members other kind := by
      by_cases heq : other = node
      · subst heq
        simp [hmakes.members] at hmem
      · rwa [(hmakes.agrees other heq).members] at hmem
    by_cases heq : other = holder
    · subst heq
      obtain hold | ⟨hkind, rfl⟩ := hlists.only kind item hmem
      · exact .inl (hmiddleMem hold)
      · exact .inr ⟨rfl, hkind, rfl⟩
    · rw [(hlists.agrees other heq).members] at hmem
      exact .inl (hmiddleMem hmem)
  · rw [(hlists.agrees node hne).members, hmakes.members]

end Declarations

/-- The same types have the same names wherever they are referred to. -/
theorem World.typeNames_eq {world next : World} (hdefs : next.defs = world.defs)
    (htypes : world.decls.SameTypes next.decls) : next.typeNames = world.typeNames := by
  have hhas (id : DeclId .type) :
      next.decls.types.has id.index = world.decls.types.has id.index := htypes.has id
  simp only [World.typeNames, hdefs, hhas, htypes.typeName_eq]

namespace Task

open Declarations

variable {world : World} {policy : Policy} {name : String}

/-- Whether a world differs from another one in nothing but what is declared. -/
def Redeclares (world next : World) : Prop :=
  next = { world with decls := next.decls }

/-- Declaring something once: it is there already, or it is made. -/
theorem yields_declareOnce {ι : Type} {existing : Option ι} {toDeclaration : ι → Declaration}
    {make : Task ι} {post : ι → World → Prop}
    (hexisting : ∀ id, existing = some id →
      (world.decls.terms (toDeclaration id)).policy = policy → post id world)
    (hmake : existing = none → Yields world make post) :
    Yields world (declareOnce policy existing toDeclaration make) post := by
  unfold declareOnce
  cases existing with
  | none => exact hmake rfl
  | some id =>
      refine .get ?_
      dsimp only
      split
      · exact .throw
      · exact .pure (hexisting id rfl (Decidable.not_not.mp ‹_›))

/-- Making a member of a type. -/
theorem yields_member {ι : Type} {make : Terms → Declarations → ι × Declarations}
    {list : ι → TypeDecl → TypeDecl} {owner : DeclId .type} {post : ι → World → Prop}
    (h : ∀ made, made = make ⟨policy, (world.decls.type owner).terms.readOnly⟩ world.decls →
      post made.1 { world with decls := made.2.updateType owner (list made.1) }) :
    Yields world (do
      let id ← makeDecl (make (← memberTerms owner policy))
      changeDecls (·.updateType owner (list id))
      return id) post := by
  intro value next hon
  cases hon
  exact h _ rfl

section Members

variable {owner : DeclId .type} (howner : world.decls.has (.type owner) = true)
  (hthere : ∀ kind, ∀ node ∈ world.decls.members (.type owner) kind, world.decls.has node = true)

include howner hthere

/-- Declaring a member of a type that is known by its name. One that is there keeps its signature.
-/
theorem yields_once {ι : Type} {kind : SymbolKind} {ids : List ι} {nameOf : ι → String}
    {toDeclaration : ι → Declaration} {make : Terms → Declarations → ι × Declarations}
    {list : ι → TypeDecl → TypeDecl} {shape : Shape} (hkind : ∀ id, (toDeclaration id).kind = kind)
    (hids : world.decls.members (.type owner) kind = ids.map toDeclaration)
    (hnames : ∀ id, (world.decls.statement (toDeclaration id)).name = nameOf id)
    (hmakes : ∀ terms, world.decls.Makes (make terms world.decls).2
      (toDeclaration (make terms world.decls).1))
    (hterms : ∀ terms, (make terms world.decls).2.terms
      (toDeclaration (make terms world.decls).1) = terms)
    (hname : ∀ terms, ((make terms world.decls).2.statement
      (toDeclaration (make terms world.decls).1)).name = name)
    (hshape : ∀ terms, ((make terms world.decls).2.statement
      (toDeclaration (make terms world.decls).1)).shape = shape)
    (hlist : ∀ id record, (list id record).terms = record.terms ∧
      (list id record).place = record.place ∧ (list id record).name = record.name ∧
      ∀ other, held (list id record) other =
        held record other ++ if other = kind then [toDeclaration id] else [])
    (htypes : kind ≠ .type → ∀ terms, (make terms world.decls).2.types = world.decls.types) :
    Yields world
      (declareOnce policy (ids.find? fun id => nameOf id == name) toDeclaration do
        let id ← makeDecl (make (← memberTerms owner policy))
        changeDecls (·.updateType owner (list id))
        return id)
      fun id next => Redeclares world next ∧
        world.decls.Plants next.decls (.type owner) (toDeclaration id) policy none name ∧
        (toDeclaration id ∈ world.decls.members (.type owner) kind ∨
          (next.decls.statement (toDeclaration id)).shape = shape) := by
  refine yields_declareOnce (fun id hfound hpolicy => ?_) fun hnone =>
    yields_member fun made hmade => ?_
  · have hmem : toDeclaration id ∈ world.decls.members (.type owner) (toDeclaration id).kind := by
      -- The search by name found nothing, so no sibling is named alike.
      rw [hkind, hids]
      exact List.mem_map_of_mem (List.mem_of_find?_eq_some hfound)
    have hfoundName : nameOf id = name := by simpa using List.find?_some hfound
    exact ⟨rfl, .again (hthere _ _ hmem) hmem hpolicy ⟨(hnames id).trans hfoundName, by simp⟩,
      .inl (hkind id ▸ hmem)⟩
  · subst hmade
    have hlists (terms : Terms) := updateType_lists
      (((hmakes terms).gains.has _).mpr (.inl howner)) (fun record => (hlist _ record).1)
      (fun record => (hlist _ record).2.1) (fun record => (hlist _ record).2.2.1)
      fun record other => by
        rw [hkind (make terms world.decls).1]
        exact (hlist _ record).2.2.2 other
    refine ⟨rfl, .anew (hmakes _) (hlists _) howner (hterms _) ⟨hname _, by simp⟩ (fun hne => ?_)
      (.inr ?_), .inr (((hlists _).keepsAt _).shape.trans (hshape _))⟩
    · rw [hkind] at hne
      exact .ofUpdate (htypes hne _) (fun record => (hlist _ record).2.1)
        fun record => (hlist _ record).2.2.1
    · rw [hkind, hids]
      rintro other hother ⟨hsame, -⟩
      obtain ⟨id, hmem, rfl⟩ := List.mem_map.mp hother
      rw [hnames] at hsame
      exact absurd hsame (by simpa using List.find?_eq_none.mp hnone id hmem)

theorem yields_declareNested :
    Yields world (declareNested owner name policy) fun id next => Redeclares world next ∧
      world.decls.Plants next.decls (.type owner) (.type id) policy none name := by
  unfold declareNested
  refine .onDecls (.mono (yields_once howner hthere (fun _ => rfl) rfl (fun _ => rfl)
    (fun _ => makeType_makes) (fun _ => ?_) (fun _ => ?_) (fun _ => rfl)
    (fun _ _ => ⟨rfl, rfl, rfl, ?_⟩) fun hne => absurd rfl hne) fun _ _ h => ⟨h.1, h.2.1⟩)
  · simp [terms, makeType, type]
  · simp [statement, makeType, type]
  · intro kind
    cases kind <;> simp [held]

theorem yields_declareField {signature : TypeSig} :
    Yields world (declareField owner name signature policy) fun id next => Redeclares world next ∧
      world.decls.Plants next.decls (.type owner) (.field id) policy none name ∧
      (.field id ∈ world.decls.members (.type owner) .field ∨
        (next.decls.statement (.field id)).shape = .field signature) := by
  unfold declareField
  refine .onDecls (yields_once howner hthere (fun _ => rfl) rfl (fun _ => rfl)
    (fun _ => makeField_makes) (fun _ => ?_) (fun _ => ?_) (fun _ => ?_)
    (fun _ _ => ⟨rfl, rfl, rfl, ?_⟩) fun _ _ => rfl)
  · simp [terms, makeField, field]
  · simp [statement, makeField, field]
  · simp [statement, makeField, field]
  · intro kind
    cases kind <;> simp [held]

theorem yields_declareProperty {signature : PropertySig} :
    Yields world (declareProperty owner name signature policy) fun id next =>
      Redeclares world next ∧
      world.decls.Plants next.decls (.type owner) (.property id) policy none name ∧
      (.property id ∈ world.decls.members (.type owner) .property ∨
        (next.decls.statement (.property id)).shape = .property signature) := by
  unfold declareProperty
  refine .onDecls (yields_once howner hthere (fun _ => rfl) rfl (fun _ => rfl)
    (fun _ => makeProperty_makes) (fun _ => ?_) (fun _ => ?_) (fun _ => ?_)
    (fun _ _ => ⟨rfl, rfl, rfl, ?_⟩) fun _ _ => rfl)
  · simp [terms, makeProperty, property]
  · simp [statement, makeProperty, property]
  · simp [statement, makeProperty, property]
  · intro kind
    cases kind <;> simp [held]

theorem yields_declareEvent {type : TypeRef} :
    Yields world (declareEvent owner name type policy) fun id next => Redeclares world next ∧
      world.decls.Plants next.decls (.type owner) (.event id) policy none name ∧
      (.event id ∈ world.decls.members (.type owner) .event ∨
        (next.decls.statement (.event id)).shape = .event type) := by
  unfold declareEvent
  refine .onDecls (yields_once howner hthere (fun _ => rfl) rfl (fun _ => rfl)
    (fun _ => makeEvent_makes) (fun _ => ?_) (fun _ => ?_) (fun _ => ?_)
    (fun _ _ => ⟨rfl, rfl, rfl, ?_⟩) fun _ _ => rfl)
  · simp [terms, makeEvent, event]
  · simp [statement, makeEvent, event]
  · simp [statement, makeEvent, event]
  · intro kind
    cases kind <;> simp [held]

/-- A method that is there answers for all methods of its name that are the same overload. -/
theorem yields_declareMethod {signature : MethodSig} :
    Yields world (declareMethod owner name signature policy) fun id next =>
      Redeclares world next ∧
      world.decls.Plants next.decls (.type owner) (.method id) policy none name ∧
      (id ∈ (world.decls.type owner).methods ∧
          (world.decls.method id).signature.same world.typeNames .overload signature = true ∨
        (next.decls.method id).signature = signature ∧
          ∀ other ∈ (world.decls.type owner).methods, (world.decls.method other).name = name →
            (world.decls.method other).signature.same world.typeNames .overload signature ≠ true) := by
  unfold declareMethod
  refine .get (yields_declareOnce (fun id hfound hpolicy => ?_) fun hnone =>
    yields_member fun made hmade => ?_)
  · have hlisted := List.mem_of_find?_eq_some hfound
    have hmem : .method id ∈ world.decls.members (.type owner) .method := List.mem_map_of_mem hlisted
    have hmatches : (world.decls.method id).name = name ∧
        (world.decls.method id).signature.same world.typeNames .overload signature = true := by
      simpa using List.find?_some hfound
    exact ⟨rfl, .again (hthere _ _ hmem) hmem hpolicy ⟨hmatches.1, by simp⟩,
      .inl ⟨hlisted, hmatches.2⟩⟩
  · subst hmade
    refine ⟨rfl, .anew (makeMethod_makes rfl) (updateType_lists ?_ (fun _ => rfl) (fun _ => rfl)
      (fun _ => rfl) fun _ kind => ?_) howner ?_ ⟨?_, by simp⟩ (fun _ => ?_) (.inl rfl), .inr ⟨?_, ?_⟩⟩
    · exact ((makeMethod_makes rfl).gains.has _).mpr (.inl howner)
    · cases kind <;> simp [held, Declaration.kind]
    · simp [terms, makeMethod, method]
    · simp [statement, makeMethod, method]
    · exact .ofUpdate rfl (fun _ => rfl) fun _ => rfl
    · simp [makeMethod, updateType, method]
    · intro other hother hname
      simpa [hname] using List.find?_eq_none.mp hnone other hother

end Members

/-- A type at top level is found by its namespace and its name. -/
theorem yields_declareType {module : DeclId .module} {namespaceName : String}
    (hmodule : world.decls.has (.module module) = true)
    (hthere : ∀ id ∈ (world.decls.module module).types, world.decls.has (.type id) = true) :
    Yields world (declareType module namespaceName name policy false) fun id next =>
      Redeclares world next ∧
      world.decls.Plants next.decls (.module module) (.type id) policy (some namespaceName) name := by
  unfold declareType
  refine .onDecls (.bind (?_ : Yields world _ fun id next => Redeclares world next ∧
    world.decls.Plants next.decls (.module module) (.type id) policy (some namespaceName) name)
    fun id next h => ?_)
  · refine yields_declareOnce (fun id hfound hpolicy => ?_) fun hnone => ?_
    · have hlisted := List.mem_of_find?_eq_some hfound
      have hmatches : (world.decls.type id).namespaceName? = some namespaceName ∧
          (world.decls.type id).name = name := by
        simpa using List.find?_some hfound
      exact ⟨rfl, .again (hthere _ hlisted) (type_mem_module.mpr hlisted) hpolicy
        ⟨hmatches.2, by simpa [space?] using hmatches.1⟩⟩
    · intro value next hon
      cases hon
      refine ⟨rfl, .anew makeType_makes (updateModule_lists ?_) hmodule ?_ ⟨?_, ?_⟩
        (fun hne => absurd rfl hne) (.inr ?_)⟩
      · exact (makeType_makes.gains.has _).mpr (.inl hmodule)
      · simp [terms, makeType, type]
      · simp [statement, makeType, type]
      · simp [space?, makeType, type, TypeDecl.namespaceName?]
      · rintro other hother ⟨hname, hspace⟩
        obtain ⟨id, hmem, rfl⟩ := List.mem_map.mp hother
        have hne := List.find?_eq_none.mp hnone id hmem
        simp only [statement, space?, Option.mem_def, Option.some.injEq, forall_eq'] at hname hspace
        simp [hname, hspace] at hne
  · refine .get ?_
    dsimp only
    split
    · exact .throw
    · exact .pure h

end Task

end Graft
