import Graft.Proofs.Import.Mapping
import Mathlib.Logic.Function.Basic

/-!
# Drafting patches

Patches are drafted by requests, each of which declares a module of a patch, a type of a module or a
member of a type (`DraftCall`). A request looks for what it asks for among the declarations that are
listed beside it. Where it finds one, that one is the answer, if it was declared on the same terms,
and else there is a conflict; where it finds none, a declaration is made and comes last
(`DraftCall.perform_answers`).
-/

namespace Graft

/-- Numbered patches in the making, in a world. -/
structure Draft where
  world : World
  patches : Nat → Patch

/-- The declarations of a draft. -/
abbrev Draft.decls (draft : Draft) : Declarations :=
  draft.world.decls

/-- A draft with other declarations. -/
def Draft.withDecls (draft : Draft) (decls : Declarations) : Draft :=
  { draft with world := { draft.world with decls } }

/-- What a task answers in a draft, and the draft that it leaves. -/
def Draft.within (draft : Draft) (task : Task Declaration) : Except Error Declaration × Draft :=
  ((task.on draft.world).1, { draft with world := (task.on draft.world).2 })

/-- Where declarations are listed: in a patch, which lists modules, or in a module or a type. -/
inductive DraftScope where
  | patch (index : Nat)
  | holder (declaration : Declaration)
  deriving DecidableEq

/-- What is listed of one kind in a scope of a draft, in the order of declaration. -/
def Draft.listed (draft : Draft) (scope : DraftScope) (kind : SymbolKind) : List Declaration :=
  match scope with
  | .patch index => if kind = .module then (draft.patches index).modules.map .module else []
  | .holder declaration => draft.decls.members declaration kind

/-- A request to declare something. -/
inductive DraftCall where
  | module (patch : Nat) (name : String) (policy : Policy) (readOnly : Bool)
  | type (module : DeclId .module) (namespaceName name : String) (policy : Policy) (readOnly : Bool)
  | nested (owner : DeclId .type) (name : String) (policy : Policy)
  | field (owner : DeclId .type) (name : String) (signature : TypeSig) (policy : Policy)
  | method (owner : DeclId .type) (name : String) (signature : MethodSig) (policy : Policy)
  | property (owner : DeclId .type) (name : String) (signature : PropertySig) (policy : Policy)
  | event (owner : DeclId .type) (name : String) (type : TypeRef) (policy : Policy)

namespace DraftCall

/-! ## What a request asks for -/

/-- What is answered on a request, and the draft that it leaves. -/
def perform (draft : Draft) : DraftCall → Except Error Declaration × Draft
  | .module patch name policy readOnly =>
    match (Task.requireModule (draft.patches patch) name policy readOnly).on draft.world with
    | (.ok (id, changed), world) =>
      (.ok (.module id), { world, patches := Function.update draft.patches patch changed })
    | (.error error, world) => (.error error, { draft with world })
  | .type scope namespaceName name policy readOnly =>
    draft.within (.type <$> Task.declareType scope namespaceName name policy readOnly)
  | .nested owner name policy => draft.within (.type <$> Task.declareNested owner name policy)
  | .field owner name signature policy =>
    draft.within (.field <$> Task.declareField owner name signature policy)
  | .method owner name signature policy =>
    draft.within (.method <$> Task.declareMethod owner name signature policy)
  | .property owner name signature policy =>
    draft.within (.property <$> Task.declareProperty owner name signature policy)
  | .event owner name ref policy =>
    draft.within (.event <$> Task.declareEvent owner name ref policy)

/-- The kind of what is asked for. -/
def kind : DraftCall → SymbolKind
  | .module .. => .module
  | .type .. | .nested .. => .type
  | .field .. => .field
  | .method .. => .method
  | .property .. => .property
  | .event .. => .event

/-- The name that is asked for. -/
def name : DraftCall → String
  | .module _ name .. | .type _ _ name .. | .nested _ name _ | .field _ name .. | .method _ name ..
  | .property _ name .. | .event _ name .. => name

/-- The policy that is asked for. -/
def policy : DraftCall → Policy
  | .module _ _ policy _ | .type _ _ _ policy _ | .nested _ _ policy | .field _ _ _ policy
  | .method _ _ _ policy | .property _ _ _ policy | .event _ _ _ policy => policy

/-- The namespace that is asked for, if any. -/
def space? : DraftCall → Option String
  | .type _ namespaceName .. => some namespaceName
  | _ => none

/-- The signature that is asked for. -/
def shape : DraftCall → Shape
  | .field _ _ signature _ => .field signature
  | .method _ _ signature _ => .method signature
  | .property _ _ signature _ => .property signature
  | .event _ _ ref _ => .event ref
  | .module .. | .type .. | .nested .. => .none

/-- Where something is to be declared. -/
def scope : DraftCall → DraftScope
  | .module patch .. => .patch patch
  | .type scope .. => .holder (.module scope)
  | .nested owner .. | .field owner .. | .method owner .. | .property owner .. | .event owner .. =>
    .holder (.type owner)

/-- The place that is asked for, for a type. -/
def place? : DraftCall → Option TypePlace
  | .type scope namespaceName .. => some (.topLevel scope namespaceName)
  | .nested owner .. => some (.nested owner)
  | _ => none

/-- Whether a new declaration is read-only: as asked for at most in a module that is not read-only,
and as the type is for what is declared in a type. -/
def readOnly (draft : Draft) : DraftCall → Bool
  | .module _ _ _ readOnly => readOnly
  | .type scope _ _ _ readOnly => readOnly || (draft.decls.module scope).terms.readOnly
  | .nested owner .. | .field owner .. | .method owner .. | .property owner .. | .event owner .. =>
    (draft.decls.type owner).terms.readOnly

/-- Whether it matters to a request that what is declared already is read-only or not. -/
def checksAccess : DraftCall → Bool
  | .module .. | .type .. => true
  | _ => false

/-- The declarations among which a request looks for what it asks for. -/
def siblings (draft : Draft) (call : DraftCall) : List Declaration :=
  draft.listed call.scope call.kind

/-- Whether a declaration has the key that is asked for: the name, with the namespace of a type at
top level, and with the overload of a method. -/
structure Fits (world : World) (call : DraftCall) (node : Declaration) : Prop where
  name : (world.decls.statement node).name = call.name
  space : ∀ space ∈ call.space?, world.decls.space? node = some space
  overload : call.kind = .method →
    (world.decls.statement node).shape.Overloads world.typeNames call.shape

/-- Whether a declaration was made on the terms that are asked for. -/
structure Agrees (draft : Draft) (call : DraftCall) (node : Declaration) : Prop where
  policy : (draft.decls.terms node).policy = call.policy
  access : call.checksAccess = true → (draft.decls.terms node).readOnly = call.readOnly draft

/-- Whether a request can be made: it names a module or type that is there, its signature refers to
no declaration that is not, and no parameter of a method is of unknown shape. -/
structure Admissible (draft : Draft) (call : DraftCall) : Prop where
  holder : ∀ holder, call.scope = .holder holder → draft.decls.has holder = true
  live : ∀ other, .declaration other ∈ call.shape.targets → draft.decls.has other = true
  known : ∀ signature, call.shape = .method signature →
    .unknown ∉ TypeSig.targetsList (signature.params ++ signature.varargs)

end DraftCall

/-! ## What a new declaration changes -/

namespace Declarations

variable {decls decls' middle : Declarations} {holder node : Declaration}

/-- Whether there is one more declaration, while every other one says what it said and every type is
where it was. -/
structure Acquires (decls decls' : Declarations) (node : Declaration) : Prop where
  gains : decls.Gains decls' node
  keeps : decls.Keeps decls'
  place : ∀ id, decls.has (.type id) = true → (decls'.type id).place = (decls.type id).place
  next : decls.types.next ≤ decls'.types.next

/-- Making a declaration changes none that is there. -/
theorem Makes.keeps (h : decls.Makes decls' node) : decls.Keeps decls' := by
  refine ⟨fun declaration hhas => (h.gains.has declaration).mpr (.inl hhas),
    fun declaration hhas => (h.agrees declaration fun heq => ?_).keeps⟩
  simp [heq, h.gains.fresh] at hhas

theorem Makes.agrees_of_has (h : decls.Makes decls' node) {declaration : Declaration}
    (hhas : decls.has declaration = true) : decls.AgreesAt decls' declaration :=
  h.agrees declaration fun heq => by simp [heq, h.gains.fresh] at hhas

/-- What has not been made holds nothing. -/
theorem members_of_absent (habsent : decls.has holder = false) (kind : SymbolKind) :
    decls.members holder kind = [] := by
  cases holder with
  | module id =>
      have hnone : decls.modules.get? id.index = none := by simpa [has, Table.has] using habsent
      cases kind <;> simp [members, module, hnone, default, instInhabitedModuleDecl.default]
  | type id =>
      have hnone : decls.types.get? id.index = none := by simpa [has, Table.has] using habsent
      cases kind <;> simp [members, type, hnone, default, instInhabitedTypeDecl.default]
  | field | method | property | event => cases kind <;> rfl

theorem kind_of_mem_members {kind : SymbolKind} (hmem : node ∈ decls.members holder kind) :
    node.kind = kind := by
  cases holder <;> cases kind <;> simp only [members, List.not_mem_nil] at hmem <;>
    (obtain ⟨id, -, rfl⟩ := List.mem_map.mp hmem; rfl)

/-- What a new declaration holds is nothing, and what others hold stays. -/
theorem Makes.members_eq (h : decls.Makes decls' node) (other : Declaration) (kind : SymbolKind) :
    decls'.members other kind = decls.members other kind := by
  by_cases heq : other = node
  · rw [heq, h.members, members_of_absent h.gains.fresh]
  · exact (h.agrees other heq).members kind

theorem Makes.acquires (h : decls.Makes decls' node)
    (hnext : decls.types.next ≤ decls'.types.next) : decls.Acquires decls' node where
  gains := h.gains
  keeps := h.keeps
  place id hhas :=
    congrArg TypeDecl.place (h.agrees_of_has (show decls.has (.type id) = true from hhas))
  next := hnext

/-! ### Reading what has just been made -/

section Made

variable (decls)

theorem module_made (record : ModuleDecl) :
    (decls.makeModule record).2.module (decls.makeModule record).1 = record := by
  simp [makeModule, module]

theorem type_made (record : TypeDecl) :
    (decls.makeType record).2.type (decls.makeType record).1 = record := by
  simp [makeType, type]

theorem field_made (record : FieldDecl) :
    (decls.makeField record).2.field (decls.makeField record).1 = record := by
  simp [makeField, field]

theorem method_made (record : MethodDecl) :
    (decls.makeMethod record).2.method (decls.makeMethod record).1 = record := by
  simp [makeMethod, method]

theorem property_made (record : PropertyDecl) :
    (decls.makeProperty record).2.property (decls.makeProperty record).1 = record := by
  simp [makeProperty, property]

theorem event_made (record : EventDecl) :
    (decls.makeEvent record).2.event (decls.makeEvent record).1 = record := by
  simp [makeEvent, event]

end Made

/-- Whether a declaration is listed last in its scope, and nothing else changes. -/
structure Enters (decls decls' : Declarations) (holder node : Declaration) : Prop
    extends decls.Lists decls' holder node where
  place : ∀ id, (decls'.type id).place = (decls.type id).place
  next : decls'.types.next = decls.types.next
  members : ∀ kind, decls'.members holder kind =
    decls.members holder kind ++ if kind = node.kind then [node] else []

theorem updateModule_enters {module : DeclId .module} {id : DeclId .type}
    (hhas : decls.has (.module module) = true) :
    decls.Enters
      (decls.updateModule module fun record => { record with types := record.types ++ [id] })
      (.module module) (.type id) where
  toLists := updateModule_lists hhas
  place _ := rfl
  next := rfl
  members kind := by
    have hread : (decls.updateModule module fun record =>
        { record with types := record.types ++ [id] }).module module =
          { decls.module module with types := (decls.module module).types ++ [id] } := by
      rw [module_updateModule, if_pos ⟨rfl, hhas⟩]
    cases kind <;> simp [Declarations.members, hread, Declaration.kind]

theorem updateType_enters {owner : DeclId .type} {change : TypeDecl → TypeDecl}
    (hhas : decls.has (.type owner) = true)
    (hterms : ∀ record, (change record).terms = record.terms)
    (hplace : ∀ record, (change record).place = record.place)
    (hname : ∀ record, (change record).name = record.name)
    (hheld : ∀ record kind,
      held (change record) kind = held record kind ++ if kind = node.kind then [node] else []) :
    decls.Enters (decls.updateType owner change) (.type owner) node where
  toLists := updateType_lists hhas hterms hplace hname hheld
  place := (SameTypes.updateType hplace hname).place
  next := (SameTypes.updateType hplace hname).next
  members kind := by
    rw [members_type, members_type, type_updateType, if_pos ⟨rfl, hhas⟩, hheld]

/-- What is made may be listed. -/
theorem Acquires.enters (h : decls.Acquires middle node)
    (henters : middle.Enters decls' holder node) : decls.Acquires decls' node where
  gains := by
    refine ⟨h.gains.fresh, fun declaration => ?_⟩
    rw [henters.has]
    exact h.gains.has declaration
  keeps := by
    refine h.keeps.trans ⟨fun declaration hhas => henters.has declaration ▸ hhas,
      fun declaration _ => ?_⟩
    by_cases heq : declaration = holder
    · exact heq ▸ henters.keeps
    · exact (henters.agrees declaration heq).keeps
  place id hhas := (henters.place id).trans (h.place id hhas)
  next := henters.next ▸ h.next

/-- What is made and listed comes last in its scope, and nothing else is listed. -/
theorem Makes.members_of_enters (hmakes : decls.Makes middle node)
    (henters : middle.Enters decls' holder node) (other : Declaration) (kind : SymbolKind) :
    decls'.members other kind = decls.members other kind ++
      if holder = other ∧ kind = node.kind then [node] else [] := by
  by_cases heq : holder = other
  · subst heq
    simp [henters.members, hmakes.members_eq]
  · rw [(henters.agrees other (Ne.symm heq)).members, hmakes.members_eq,
      if_neg fun h => heq h.1, List.append_nil]

end Declarations

/-! ## What tasks answer -/

namespace Task

/-- What is declared already is answered, or refused when its policy is another one. -/
theorem on_declareOnce_some {ι : Type} (policy : Policy) (id : ι) (toDeclaration : ι → Declaration)
    (make : Task ι) (world : World) :
    (declareOnce policy (some id) toDeclaration make).on world =
      (if (world.decls.terms (toDeclaration id)).policy = policy then .ok id
        else .error (.conflict (world.declSymbol (toDeclaration id))
          (.symbolPolicy (world.decls.terms (toDeclaration id)).policy policy)), world) := by
  by_cases hpolicy : (world.decls.terms (toDeclaration id)).policy = policy <;>
    simp [declareOnce, on_bind, hpolicy]

variable {module : DeclId .module} {namespaceName name : String} {policy : Policy} {readOnly : Bool}
  {world : World}

/-- A type at top level that is declared already is answered, or refused when its policy or its
access is another one. -/
theorem on_declareType_some {found : DeclId .type}
    (hfound : world.decls.findType? module namespaceName name = some found) :
    (declareType module namespaceName name policy readOnly).on world =
      (if (world.decls.type found).terms.policy = policy then
        if (world.decls.type found).terms.readOnly =
            (readOnly || (world.decls.module module).terms.readOnly) then .ok found
        else .error (.conflict (world.declSymbol (.type found)) (.typeAccess
          (world.decls.type found).terms.readOnly
          (readOnly || (world.decls.module module).terms.readOnly)))
      else .error (.conflict (world.declSymbol (.type found))
        (.symbolPolicy (world.decls.type found).terms.policy policy)), world) := by
  have honce := on_declareOnce_some policy found .type
    (do
      let id ← makeDecl (·.makeType
        { terms := ⟨policy, readOnly || (world.decls.module module).terms.readOnly⟩
          place := .topLevel module namespaceName, name })
      changeDecls (·.updateModule module fun record =>
        { record with types := record.types ++ [id] })
      return id) world
  simp only [Declarations.terms] at honce
  simp only [declareType, onDecls, on_bind, on_get, on_pure, id, hfound, honce]
  by_cases hpolicy : (world.decls.type found).terms.policy = policy
  · simp only [hpolicy, if_true]
    by_cases haccess : (world.decls.type found).terms.readOnly =
        (readOnly || (world.decls.module module).terms.readOnly)
    · simp [haccess]
    · simp [haccess]
  · simp [hpolicy]

/-- A type at top level that is not declared yet is made: its access needs no checking. -/
theorem on_declareType_none (hnone : world.decls.findType? module namespaceName name = none)
    {made : DeclId .type × Declarations}
    (hmade : made = world.decls.makeType
      { terms := ⟨policy, readOnly || (world.decls.module module).terms.readOnly⟩
        place := .topLevel module namespaceName, name }) :
    (declareType module namespaceName name policy readOnly).on world =
      (.ok made.1, { world with
        decls := made.2.updateModule module fun record =>
          { record with types := record.types ++ [made.1] } }) := by
  subst hmade
  have haccess : (((world.decls.makeType
      { terms := ⟨policy, readOnly || (world.decls.module module).terms.readOnly⟩
        place := .topLevel module namespaceName, name }).2.updateModule module fun record =>
          { record with types := record.types ++ [⟨world.decls.types.next⟩] }).type
            ⟨world.decls.types.next⟩).terms.readOnly =
      (readOnly || (world.decls.module module).terms.readOnly) :=
    congrArg (fun record : TypeDecl => record.terms.readOnly) (world.decls.type_made _)
  simp [declareType, onDecls, on_bind, hnone, declareOnce, makeDecl, changeDecls,
    Declarations.makeType] at haccess ⊢
  simp [haccess]

/-- A module that is declared already is answered, or refused when its policy or its access is
another one. -/
theorem on_requireModule_some {patch : Patch} {found : DeclId .module}
    (hfound : (patch.modules.find? fun id => (world.decls.module id).name == name) = some found) :
    (requireModule patch name policy readOnly).on world =
      (if (world.decls.module found).terms.policy = policy then
        if (world.decls.module found).terms.readOnly = readOnly then .ok (found, patch)
        else .error (.conflict ⟨.module, name⟩
          (.moduleAccess name (world.decls.module found).terms.readOnly readOnly))
      else .error (.conflict ⟨.module, name⟩
        (.modulePolicy name (world.decls.module found).terms.policy policy)), world) := by
  by_cases hpolicy : (world.decls.module found).terms.policy = policy
  · by_cases haccess : (world.decls.module found).terms.readOnly = readOnly
    · simp [requireModule, onDecls, on_bind, hfound, hpolicy, haccess]
    · simp [requireModule, onDecls, on_bind, hfound, hpolicy, haccess]
  · simp [requireModule, onDecls, on_bind, hfound, hpolicy]

/-- A module that is not declared yet is made. -/
theorem on_requireModule_none {patch : Patch}
    (hnone : (patch.modules.find? fun id => (world.decls.module id).name == name) = none) :
    (requireModule patch name policy readOnly).on world =
      (.ok (⟨world.decls.modules.next⟩,
          { patch with modules := patch.modules ++ [⟨world.decls.modules.next⟩] }),
        { world with decls := (world.decls.makeModule { terms := ⟨policy, readOnly⟩, name }).2 }) := by
  simp [requireModule, onDecls, on_bind, hnone, declareModule, makeDecl, Declarations.makeModule]

end Task

/-- What is answered for the result of a task. -/
theorem Draft.within_map {α : Type} {draft : Draft} {task : Task α} {toDeclaration : α → Declaration}
    {outcome : Except Error α} {world : World} (h : task.on draft.world = (outcome, world)) :
    draft.within (toDeclaration <$> task) = (outcome.map toDeclaration, { draft with world }) := by
  rw [within, Task.on_map, h]
  cases outcome <;> rfl

/-- What a task reads first in a draft is the world of the draft. -/
theorem Draft.within_get {α : Type} (draft : Draft) (next : World → Task α)
    (toDeclaration : α → Declaration) :
    draft.within (toDeclaration <$> (get >>= next)) =
      draft.within (toDeclaration <$> next draft.world) := by
  rw [within, within, Task.on_map, Task.on_map, Task.on_bind, Task.on_get]

namespace DraftCall

/-- What a draft is after something new was declared: it has the name, the signature and the terms
that were asked for, it is listed last where it was asked for, and nothing else has changed. -/
structure Registers (call : DraftCall) (draft next : Draft) (node : Declaration) : Prop where
  world : Task.Redeclares draft.world next.world
  kind : node.kind = call.kind
  acquires : draft.decls.Acquires next.decls node
  listed : ∀ scope kind, next.listed scope kind = draft.listed scope kind ++
    if call.scope = scope ∧ kind = node.kind then [node] else []
  terms : next.decls.terms node = ⟨call.policy, call.readOnly draft⟩
  name : (next.decls.statement node).name = call.name
  space : next.decls.space? node = call.space?
  shape : (next.decls.statement node).shape = call.shape
  place : ∀ id, node = .type id → call.place? = some (next.decls.type id).place
  grown : node.kind = .type → draft.decls.types.next < next.decls.types.next

/-- Whether an answer is the right one: what is declared already, if it agrees with the request, and
a conflict if it does not, while nothing changes; or else something new. -/
def Answers (call : DraftCall) (draft : Draft) (result : Except Error Declaration × Draft) : Prop :=
  (∃ node ∈ call.siblings draft, call.Fits draft.world node ∧
    (call.Agrees draft node ∧ result = (.ok node, draft) ∨
      ¬ call.Agrees draft node ∧
        ∃ symbol clash, result = (.error (.conflict symbol clash), draft))) ∨
  (∀ node ∈ call.siblings draft, ¬ call.Fits draft.world node) ∧
    ∃ node next, result = (.ok node, next) ∧ call.Registers draft next node

section Answers

variable {call : DraftCall} {draft : Draft} {ι : Type} {ids : List ι} {fits : ι → Bool}
  {toDeclaration : ι → Declaration} {make : Task ι}

/-- What is found is the first sibling that fits. -/
theorem fits_of_find? (hids : call.siblings draft = ids.map toDeclaration)
    (hfits : ∀ id, fits id = true ↔ call.Fits draft.world (toDeclaration id)) {id : ι}
    (hfound : ids.find? fits = some id) :
    toDeclaration id ∈ call.siblings draft ∧ call.Fits draft.world (toDeclaration id) :=
  ⟨hids ▸ List.mem_map_of_mem (List.mem_of_find?_eq_some hfound),
    (hfits id).mp (List.find?_some hfound)⟩

/-- Where nothing is found no sibling fits. -/
theorem not_fits_of_find? (hids : call.siblings draft = ids.map toDeclaration)
    (hfits : ∀ id, fits id = true ↔ call.Fits draft.world (toDeclaration id))
    (hfound : ids.find? fits = none) :
    ∀ node ∈ call.siblings draft, ¬ call.Fits draft.world node := by
  rw [hids]
  intro node hmem hfitting
  obtain ⟨id, hid, rfl⟩ := List.mem_map.mp hmem
  exact List.find?_eq_none.mp hfound id hid ((hfits id).mpr hfitting)

/-- A request that is only about the policy of what is declared already. -/
theorem answers_once (hids : call.siblings draft = ids.map toDeclaration)
    (hfits : ∀ id, fits id = true ↔ call.Fits draft.world (toDeclaration id))
    (haccess : call.checksAccess = false)
    (hmake : ∃ id decls, make.on draft.world = (.ok id, (draft.withDecls decls).world) ∧
      call.Registers draft (draft.withDecls decls) (toDeclaration id)) :
    call.Answers draft (draft.within
      (toDeclaration <$> Task.declareOnce call.policy (ids.find? fits) toDeclaration make)) := by
  cases hfind : ids.find? fits with
  | none =>
      obtain ⟨id, decls, hon, hregisters⟩ := hmake
      exact .inr ⟨not_fits_of_find? hids hfits hfind, toDeclaration id, draft.withDecls decls,
        Draft.within_map hon, hregisters⟩
  | some id =>
      obtain ⟨hmem, hfitting⟩ := fits_of_find? hids hfits hfind
      refine .inl ⟨toDeclaration id, hmem, hfitting, ?_⟩
      rw [Draft.within_map (Task.on_declareOnce_some ..)]
      by_cases hpolicy : (draft.decls.terms (toDeclaration id)).policy = call.policy
      · refine .inl ⟨⟨hpolicy, fun h => by simp [haccess] at h⟩, ?_⟩
        rw [if_pos hpolicy]
        rfl
      · refine .inr ⟨fun hagrees => hpolicy hagrees.policy,
          draft.world.declSymbol (toDeclaration id),
          .symbolPolicy (draft.decls.terms (toDeclaration id)).policy call.policy, ?_⟩
        rw [if_neg hpolicy]
        rfl

end Answers

/-! ## New declarations -/

/-- Whether the declaration that is made for a request says what is asked for. -/
structure Renders (call : DraftCall) (terms : Terms) (decls middle : Declarations)
    (node : Declaration) : Prop where
  makes : decls.Makes middle node
  kind : node.kind = call.kind
  terms : middle.terms node = terms
  name : (middle.statement node).name = call.name
  space : middle.space? node = call.space?
  shape : (middle.statement node).shape = call.shape
  place : ∀ id, node = .type id → call.place? = some (middle.type id).place
  next : decls.types.next ≤ middle.types.next
  grown : node.kind = .type → decls.types.next < middle.types.next

section New

variable {call : DraftCall} {draft : Draft} {decls middle : Declarations} {holder node : Declaration}

/-- What is made as it is asked for and listed is something new. -/
theorem registers_of_enters (hscope : call.scope = .holder holder)
    (hhas : draft.decls.has holder = true)
    {terms : Terms} (hterms : terms = ⟨call.policy, call.readOnly draft⟩)
    (hrenders : call.Renders terms draft.decls middle node)
    (henters : middle.Enters decls holder node) :
    call.Registers draft (draft.withDecls decls) node := by
  have hne : node ≠ holder := fun heq => by simp [← heq, hrenders.makes.gains.fresh] at hhas
  have hstays := (henters.agrees node hne).keeps
  refine
    { world := rfl
      kind := hrenders.kind
      acquires := (hrenders.makes.acquires hrenders.next).enters henters
      listed := fun scope kind => ?_
      terms := (hstays.terms.trans hrenders.terms).trans hterms
      name := hstays.name.trans hrenders.name
      space := hstays.space.trans hrenders.space
      shape := hstays.shape.trans hrenders.shape
      place := fun id heq => (hrenders.place id heq).trans (congrArg some (henters.place id).symm)
      grown := fun htype => Nat.lt_of_lt_of_eq (hrenders.grown htype) henters.next.symm }
  cases scope with
  | patch index => simp [hscope, Draft.listed, Draft.withDecls]
  | holder other =>
      simpa [hscope, Draft.listed, Draft.withDecls] using
        hrenders.makes.members_of_enters henters other kind

/-- A request for a member of a type. -/
theorem answers_member {ι : Type} (make : Terms → Declarations → ι × Declarations)
    (list : ι → TypeDecl → TypeDecl) {toDeclaration : ι → Declaration} {ids : List ι}
    {fits : ι → Bool} {owner : DeclId .type} (hscope : call.scope = .holder (.type owner))
    (haccess : call.checksAccess = false)
    (hreadOnly : call.readOnly draft = (draft.decls.type owner).terms.readOnly)
    (hids : call.siblings draft = ids.map toDeclaration)
    (hfits : ∀ id, fits id = true ↔ call.Fits draft.world (toDeclaration id))
    (hhas : draft.decls.has (.type owner) = true)
    (hrenders : ∀ terms, call.Renders terms draft.decls (make terms draft.decls).2
      (toDeclaration (make terms draft.decls).1))
    (hlist : ∀ id record, (list id record).terms = record.terms ∧
      (list id record).place = record.place ∧ (list id record).name = record.name ∧
      ∀ kind, Declarations.held (list id record) kind = Declarations.held record kind ++
        if kind = (toDeclaration id).kind then [toDeclaration id] else []) :
    call.Answers draft (draft.within (toDeclaration <$>
      Task.declareOnce call.policy (ids.find? fits) toDeclaration do
        let id ← Task.makeDecl (make (← Task.memberTerms owner call.policy))
        Task.changeDecls (·.updateType owner (list id))
        return id)) := by
  let terms : Terms := ⟨call.policy, (draft.decls.type owner).terms.readOnly⟩
  let made := make terms draft.decls
  refine answers_once hids hfits haccess
    ⟨made.1, made.2.updateType owner (list made.1), rfl, ?_⟩
  refine registers_of_enters hscope hhas (by rw [hreadOnly]) (hrenders terms) ?_
  exact Declarations.updateType_enters (((hrenders terms).makes.gains.has _).mpr (.inl hhas))
    (fun record => (hlist _ record).1) (fun record => (hlist _ record).2.1)
    (fun record => (hlist _ record).2.2.1) fun record => (hlist _ record).2.2.2

end New

/-! ## The requests -/

section Requests

open Declarations

variable {draft : Draft} {owner : DeclId .type} {name : String} {policy : Policy}

/-- What is made for a type says what is asked for. -/
theorem renders_type {call : DraftCall} {terms : Terms} {place : TypePlace} (decls : Declarations)
    (hkind : call.kind = .type) (hspace : call.space? = TypeDecl.namespaceName? { terms, place, name })
    (hname : call.name = name) (hshape : call.shape = .none) (hplace : call.place? = some place) :
    call.Renders terms decls (decls.makeType { terms, place, name }).2
      (.type (decls.makeType { terms, place, name }).1) where
  makes := makeType_makes
  kind := hkind.symm
  terms := congrArg TypeDecl.terms (type_made ..)
  name := (congrArg TypeDecl.name (type_made ..)).trans hname.symm
  space := (congrArg TypeDecl.namespaceName? (type_made ..)).trans hspace.symm
  shape := hshape.symm
  place := by
    rintro _ ⟨⟩
    rw [hplace, type_made]
  next := by simp [makeType]
  grown _ := by simp [makeType]

theorem nested_answers (hhas : draft.decls.has (.type owner) = true) :
    (nested owner name policy).Answers draft ((nested owner name policy).perform draft) := by
  refine answers_member (fun terms decls => decls.makeType { terms, place := .nested owner, name })
    (fun id record => { record with nested := record.nested ++ [id] }) rfl rfl rfl rfl
    (fun id => ?_) hhas (fun _ => renders_type _ rfl rfl rfl rfl rfl)
    fun id record => ⟨rfl, rfl, rfl, fun kind => ?_⟩
  · rw [beq_iff_eq]
    exact ⟨fun h => ⟨h, nofun, nofun⟩, Fits.name⟩
  · cases kind <;> simp [held, Declaration.kind]

theorem field_answers {signature : TypeSig} (hhas : draft.decls.has (.type owner) = true) :
    (field owner name signature policy).Answers draft
      ((field owner name signature policy).perform draft) := by
  refine answers_member (fun terms decls => decls.makeField { terms, owner, name, signature })
    (fun id record => { record with fields := record.fields ++ [id] }) rfl rfl rfl rfl
    (fun id => ?_) hhas (fun _ => ?_) fun id record => ⟨rfl, rfl, rfl, fun kind => ?_⟩
  · rw [beq_iff_eq]
    exact ⟨fun h => ⟨h, nofun, nofun⟩, Fits.name⟩
  · exact
      { makes := makeField_makes
        kind := rfl
        terms := congrArg FieldDecl.terms (field_made ..)
        name := congrArg FieldDecl.name (field_made ..)
        space := rfl
        shape := congrArg (Shape.field ∘ FieldDecl.signature) (field_made ..)
        place := nofun
        next := Nat.le_refl _
        grown := nofun }
  · cases kind <;> simp [held, Declaration.kind]

theorem method_answers {signature : MethodSig} (hhas : draft.decls.has (.type owner) = true) :
    (method owner name signature policy).Answers draft
      ((method owner name signature policy).perform draft) := by
  rw [perform, Task.declareMethod, Draft.within_get]
  refine answers_member (fun terms decls => decls.makeMethod { terms, owner, name, signature })
    (fun id record => { record with methods := record.methods ++ [id] }) rfl rfl rfl rfl
    (fun id => ?_) hhas (fun _ => ?_) fun id record => ⟨rfl, rfl, rfl, fun kind => ?_⟩
  · rw [Bool.and_eq_true, beq_iff_eq]
    exact ⟨fun h => ⟨h.1, nofun, fun _ => h.2⟩, fun h => ⟨h.name, h.overload rfl⟩⟩
  · exact
      { makes := makeMethod_makes rfl
        kind := rfl
        terms := congrArg MethodDecl.terms (method_made ..)
        name := congrArg MethodDecl.name (method_made ..)
        space := rfl
        shape := congrArg (Shape.method ∘ MethodDecl.signature) (method_made ..)
        place := nofun
        next := Nat.le_refl _
        grown := nofun }
  · cases kind <;> simp [held, Declaration.kind]

theorem property_answers {signature : PropertySig} (hhas : draft.decls.has (.type owner) = true) :
    (property owner name signature policy).Answers draft
      ((property owner name signature policy).perform draft) := by
  refine answers_member (fun terms decls => decls.makeProperty { terms, owner, name, signature })
    (fun id record => { record with properties := record.properties ++ [id] }) rfl rfl rfl rfl
    (fun id => ?_) hhas (fun _ => ?_) fun id record => ⟨rfl, rfl, rfl, fun kind => ?_⟩
  · rw [beq_iff_eq]
    exact ⟨fun h => ⟨h, nofun, nofun⟩, Fits.name⟩
  · exact
      { makes := makeProperty_makes
        kind := rfl
        terms := congrArg PropertyDecl.terms (property_made ..)
        name := congrArg PropertyDecl.name (property_made ..)
        space := rfl
        shape := congrArg (Shape.property ∘ PropertyDecl.signature) (property_made ..)
        place := nofun
        next := Nat.le_refl _
        grown := nofun }
  · cases kind <;> simp [held, Declaration.kind]

theorem event_answers {ref : TypeRef} (hhas : draft.decls.has (.type owner) = true) :
    (event owner name ref policy).Answers draft ((event owner name ref policy).perform draft) := by
  refine answers_member (fun terms decls => decls.makeEvent { terms, owner, name, type := ref })
    (fun id record => { record with events := record.events ++ [id] }) rfl rfl rfl rfl
    (fun id => ?_) hhas (fun _ => ?_) fun id record => ⟨rfl, rfl, rfl, fun kind => ?_⟩
  · rw [beq_iff_eq]
    exact ⟨fun h => ⟨h, nofun, nofun⟩, Fits.name⟩
  · exact
      { makes := makeEvent_makes
        kind := rfl
        terms := congrArg EventDecl.terms (event_made ..)
        name := congrArg EventDecl.name (event_made ..)
        space := rfl
        shape := congrArg (Shape.event ∘ EventDecl.type) (event_made ..)
        place := nofun
        next := Nat.le_refl _
        grown := nofun }
  · cases kind <;> simp [held, Declaration.kind]

/-- A type at top level is looked for by its namespace and its name, and has to be as read-only as is
asked for: which is checked after a new one was made, but holds of that one. -/
theorem type_answers {scope : DeclId .module} {namespaceName : String} {readOnly : Bool}
    (hhas : draft.decls.has (.module scope) = true) :
    (type scope namespaceName name policy readOnly).Answers draft
      ((type scope namespaceName name policy readOnly).perform draft) := by
  let call := type scope namespaceName name policy readOnly
  have hfits (id : DeclId .type) : ((draft.decls.type id).namespaceName? == some namespaceName
      && (draft.decls.type id).name == name) = true ↔ call.Fits draft.world (.type id) := by
    rw [Bool.and_eq_true, beq_iff_eq, beq_iff_eq]
    refine ⟨fun h => ⟨h.2, ?_, nofun⟩, fun h => ⟨h.space _ rfl, h.name⟩⟩
    rintro _ ⟨⟩
    exact h.1
  have hids : call.siblings draft = (draft.decls.module scope).types.map .type := rfl
  cases hfind : draft.decls.findType? scope namespaceName name with
  | some found =>
      obtain ⟨hmem, hfitting⟩ := fits_of_find? hids hfits hfind
      refine .inl ⟨.type found, hmem, hfitting, ?_⟩
      simp only [perform, Draft.within_map (Task.on_declareType_some hfind)]
      -- The policy is looked at first, and the access only when the policy agrees.
      by_cases hpolicy : (draft.decls.type found).terms.policy = policy
      · rw [if_pos hpolicy]
        by_cases haccess : (draft.decls.type found).terms.readOnly =
            (readOnly || (draft.decls.module scope).terms.readOnly)
        · exact .inl ⟨⟨hpolicy, fun _ => haccess⟩, by rw [if_pos haccess]; rfl⟩
        · exact .inr ⟨fun hagrees => haccess (hagrees.access rfl), _, _,
            by rw [if_neg haccess]; rfl⟩
      · exact .inr ⟨fun hagrees => hpolicy hagrees.policy, _, _, by rw [if_neg hpolicy]; rfl⟩
  | none =>
      refine .inr ⟨not_fits_of_find? hids hfits hfind, ?_⟩
      simp only [perform, Draft.within_map (Task.on_declareType_none hfind rfl)]
      let type : TypeDecl :=
        { terms := ⟨policy, call.readOnly draft⟩, place := .topLevel scope namespaceName, name }
      have hrenders : call.Renders type.terms draft.decls (draft.decls.makeType type).2
          (.type (draft.decls.makeType type).1) :=
        renders_type draft.decls rfl rfl rfl rfl rfl
      exact ⟨_, _, rfl, registers_of_enters rfl hhas rfl hrenders
        (updateModule_enters ((hrenders.makes.gains.has _).mpr (.inl hhas)))⟩

/-- A module is looked for by its name in its patch, and has to be as read-only as is asked for. -/
theorem module_answers {patch : Nat} {readOnly : Bool} :
    (module patch name policy readOnly).Answers draft
      ((module patch name policy readOnly).perform draft) := by
  let call := module patch name policy readOnly
  have hfits (id : DeclId .module) : ((draft.decls.module id).name == name) = true ↔
      call.Fits draft.world (.module id) := by
    rw [beq_iff_eq]
    exact ⟨fun h => ⟨h, nofun, nofun⟩, Fits.name⟩
  have hids : call.siblings draft = (draft.patches patch).modules.map .module := rfl
  cases hfind : (draft.patches patch).modules.find? fun id => (draft.decls.module id).name == name with
  | some found =>
      obtain ⟨hmem, hfitting⟩ := fits_of_find? hids hfits hfind
      refine .inl ⟨.module found, hmem, hfitting, ?_⟩
      simp only [perform, Task.on_requireModule_some hfind]
      by_cases hpolicy : (draft.decls.module found).terms.policy = policy
      · rw [if_pos hpolicy]
        by_cases haccess : (draft.decls.module found).terms.readOnly = readOnly
        · exact .inl ⟨⟨hpolicy, fun _ => haccess⟩, by simp [if_pos haccess]⟩
        · exact .inr ⟨fun hagrees => haccess (hagrees.access rfl), _, _,
            by rw [if_neg haccess]⟩
      · exact .inr ⟨fun hagrees => hpolicy hagrees.policy, _, _, by rw [if_neg hpolicy]⟩
  | none =>
      refine .inr ⟨not_fits_of_find? hids hfits hfind, ?_⟩
      simp only [perform, Task.on_requireModule_none hfind]
      refine ⟨_, _, rfl, ?_⟩
      refine
        { world := rfl
          kind := rfl
          acquires := (makeModule_makes rfl).acquires (Nat.le_refl _)
          listed := fun other kind => ?_
          terms := congrArg ModuleDecl.terms (module_made ..)
          name := congrArg ModuleDecl.name (module_made ..)
          space := rfl
          shape := rfl
          place := nofun
          grown := nofun }
      cases other with
      | patch index =>
          by_cases heq : index = patch
          · subst heq
            cases kind <;> simp [scope, Draft.listed, Declaration.kind]
          · cases kind <;> simp [scope, Draft.listed, Function.update_of_ne heq, Ne.symm heq]
      | holder other =>
          simpa [scope, Draft.listed] using (makeModule_makes rfl).members_eq other kind

/-- What is answered on a request is what is declared already, on the terms that are asked for; or a
conflict, while nothing changes; or something new. -/
theorem perform_answers {call : DraftCall}
    (hhas : ∀ holder, call.scope = .holder holder → draft.decls.has holder = true) :
    call.Answers draft (call.perform draft) := by
  cases call with
  | module => exact module_answers
  | type => exact type_answers (hhas _ rfl)
  | nested => exact nested_answers (hhas _ rfl)
  | field => exact field_answers (hhas _ rfl)
  | method => exact method_answers (hhas _ rfl)
  | property => exact property_answers (hhas _ rfl)
  | event => exact event_answers (hhas _ rfl)

end Requests

end DraftCall

end Graft
