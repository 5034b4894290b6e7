import Graft.Flags.Merge
import Graft.Naming
import Graft.Proofs.Declaration.Statement
import Graft.Proofs.Definition.Growth
import Graft.Proofs.Session.Running
import Graft.Session.Resolve

/-!
# Moments of a resolution

A `Moment` is the state of a session together with what stands on its call stack: the declarations
that are being resolved, and what has been confirmed about the definitions that they stand for.
The stack is where an unfinished resolution keeps its answers, so `answer` reads it after the memo.
-/

namespace Graft

/-- One thing that a definition has to agree on with its declaration. -/
inductive Detail where
  | flags
  | base
  | interface (type : TypeRef)
  | generics
  | signature
  | overload
  | result
  | override (override : Override)
  | accessor (role : AccessorRole) (method : DeclId .method)

/-- How flags are merged for a kind of symbol; modules have none. -/
def SymbolKind.scheme? : SymbolKind → Option FlagScheme
  | .module => none
  | .type => some .type
  | .field => some .field
  | .method => some .method
  | .property => some .property
  | .event => some .event

/-- What a declaration asks its definition to agree on. -/
def Declarations.details (decls : Declarations) : Declaration → List Detail
  | .module _ => []
  | .type id =>
    [.flags, .base, .generics] ++ (decls.statement (.type id)).interfaces.map .interface
  | .field _ => [.signature, .flags]
  | .method id =>
    [.overload, .result, .flags] ++ (decls.statement (.method id)).overrides.map .override
  | .property id =>
    [.signature, .flags]
      ++ (decls.statement (.property id)).accessors.map fun (role, method) => .accessor role method
  | .event id =>
    [.signature, .flags]
      ++ (decls.statement (.event id)).accessors.map fun (role, method) => .accessor role method

/-- What is asked of a definition, by the kind of its declaration and by what that states. -/
theorem Declarations.mem_details {decls : Declarations} {declaration : Declaration}
    {detail : Detail} : detail ∈ decls.details declaration ↔
      match detail with
      | .flags => declaration.kind ≠ .module
      | .base | .generics => declaration.kind = .type
      | .interface type => type ∈ (decls.statement declaration).interfaces
      | .signature => declaration.kind = .field ∨ declaration.kind = .property ∨
          declaration.kind = .event
      | .overload | .result => declaration.kind = .method
      | .override override => override ∈ (decls.statement declaration).overrides
      | .accessor role method => (role, method) ∈ (decls.statement declaration).accessors := by
  cases declaration <;> cases detail <;> simp [details, statement, Declaration.kind]

/-- What a statement refers to where it speaks of a detail. -/
def Statement.targetsOf (statement : Statement) : Detail → List Target
  | .flags => []
  | .base => statement.base.elim [] TypeRef.targets
  | .interface type => type.targets
  | .generics => statement.generics.elim [] (List.flatMap GenericParam.targets)
  | .signature | .overload | .result => statement.shape.targets
  | .override override => override.targets
  | .accessor _ method => [.declaration (.method method)]

/-- The slots of the owners of generic variables where a statement speaks of a detail. -/
def Statement.slotsOf (statement : Statement) : Detail → List SlotId
  | .flags | .accessor .. => []
  | .base => statement.base.elim [] TypeRef.slots
  | .interface type => type.slots
  | .generics => statement.generics.elim [] (List.flatMap GenericParam.slots)
  | .signature | .overload | .result => statement.shape.slots
  | .override override => override.slots

/-- What a statement refers to where it speaks of a detail is part of what it refers to at all,
apart from accessors. -/
theorem Statement.targetsOf_subset {decls : Declarations} {declaration : Declaration}
    {detail : Detail} (hmem : detail ∈ decls.details declaration)
    (hrole : ∀ role method, detail ≠ .accessor role method) :
    (decls.statement declaration).targetsOf detail ⊆ (decls.statement declaration).targets := by
  intro target htarget
  rw [Declarations.mem_details] at hmem
  simp only [Statement.targets, List.mem_append, List.mem_flatMap]
  cases detail with
  | flags => cases htarget
  | base => exact .inl (.inl (.inl (.inr htarget)))
  | interface type => exact .inl (.inl (.inr ⟨type, hmem, htarget⟩))
  | generics => exact .inl (.inr htarget)
  | signature | overload | result => exact .inl (.inl (.inl (.inl htarget)))
  | override override => exact .inr ⟨override, hmem, htarget⟩
  | accessor role method => exact absurd rfl (hrole role method)

theorem Statement.slotsOf_subset {decls : Declarations} {declaration : Declaration}
    {detail : Detail} (hmem : detail ∈ decls.details declaration) :
    (decls.statement declaration).slotsOf detail ⊆ (decls.statement declaration).slots := by
  intro slot hslot
  rw [Declarations.mem_details] at hmem
  simp only [Statement.slots, List.mem_append, List.mem_flatMap]
  cases detail with
  | flags | accessor => cases hslot
  | base => exact .inl (.inl (.inl (.inr hslot)))
  | interface type => exact .inl (.inl (.inr ⟨type, hmem, hslot⟩))
  | generics => exact .inl (.inr hslot)
  | signature | overload | result => exact .inl (.inl (.inl (.inl hslot)))
  | override override => exact .inr ⟨override, hmem, hslot⟩

section Details

variable {decls : Declarations} {declaration : Declaration}

/-- Whatever has a signature is asked to agree on it. -/
theorem Declarations.exists_detail_shape (hkind : declaration.kind ≠ .module ∧
    declaration.kind ≠ .type) : ∃ detail ∈ decls.details declaration,
      (decls.statement declaration).targetsOf detail = (decls.statement declaration).shape.targets ∧
      (decls.statement declaration).slotsOf detail = (decls.statement declaration).shape.slots := by
  cases declaration with
  | module => exact absurd rfl hkind.1
  | type => exact absurd rfl hkind.2
  | method => exact ⟨.overload, mem_details.mpr rfl, rfl, rfl⟩
  | field => exact ⟨.signature, mem_details.mpr (.inl rfl), rfl, rfl⟩
  | property => exact ⟨.signature, mem_details.mpr (.inr (.inl rfl)), rfl, rfl⟩
  | event => exact ⟨.signature, mem_details.mpr (.inr (.inr rfl)), rfl, rfl⟩

/-- All that a declaration refers to it refers to where it speaks of some detail. -/
theorem Declarations.exists_detail_target {target : Target}
    (hmem : target ∈ (decls.statement declaration).targets) :
    ∃ detail ∈ decls.details declaration, target ∈ (decls.statement declaration).targetsOf detail := by
  simp only [Statement.targets, List.mem_append, List.mem_flatMap] at hmem
  obtain (((hshape | hbase) | ⟨type, htype, hmem⟩) | hgenerics) | ⟨override, hoverride, hmem⟩ := hmem
  · have hkind : declaration.kind ≠ .module ∧ declaration.kind ≠ .type := by
      constructor <;> intro hkind <;> cases declaration <;> cases hkind <;> cases hshape
    obtain ⟨detail, hdetail, htargets, -⟩ := exists_detail_shape hkind
    exact ⟨detail, hdetail, htargets ▸ hshape⟩
  · cases declaration with
    | type => exact ⟨.base, mem_details.mpr rfl, hbase⟩
    | module | field | method | property | event => cases hbase
  · exact ⟨.interface type, mem_details.mpr htype, hmem⟩
  · cases declaration with
    | type => exact ⟨.generics, mem_details.mpr rfl, hgenerics⟩
    | module | field | method | property | event => cases hgenerics
  · exact ⟨.override override, mem_details.mpr hoverride, hmem⟩

theorem Declarations.exists_detail_slot {slot : SlotId}
    (hmem : slot ∈ (decls.statement declaration).slots) :
    ∃ detail ∈ decls.details declaration, slot ∈ (decls.statement declaration).slotsOf detail := by
  simp only [Statement.slots, List.mem_append, List.mem_flatMap] at hmem
  obtain (((hshape | hbase) | ⟨type, htype, hmem⟩) | hgenerics) | ⟨override, hoverride, hmem⟩ := hmem
  · have hkind : declaration.kind ≠ .module ∧ declaration.kind ≠ .type := by
      constructor <;> intro hkind <;> cases declaration <;> cases hkind <;> cases hshape
    obtain ⟨detail, hdetail, -, hslots⟩ := exists_detail_shape hkind
    exact ⟨detail, hdetail, hslots ▸ hshape⟩
  · cases declaration with
    | type => exact ⟨.base, mem_details.mpr rfl, hbase⟩
    | module | field | method | property | event => cases hbase
  · exact ⟨.interface type, mem_details.mpr htype, hmem⟩
  · cases declaration with
    | type => exact ⟨.generics, mem_details.mpr rfl, hgenerics⟩
    | module | field | method | property | event => cases hgenerics
  · exact ⟨.override override, mem_details.mpr hoverride, hmem⟩

end Details

/-- A session, what it is in the middle of, and what it has confirmed and made so far. -/
structure Moment where
  state : SessionState
  stack : InFlight := []
  confirmed : List (Declaration × Detail) := []
  /-- The definitions that were made, each with the declaration that it was made for. -/
  made : List (Declaration × Definition) := []
  /-- The hidden methods that were made, latest first. -/
  hidden : List (DefId .method) := []

namespace Moment

/-- The world at a moment. -/
abbrev world (now : Moment) : World := now.state.world

/-- The definitions at a moment. -/
abbrev defs (now : Moment) : Definitions := now.state.world.defs

/-- The declarations at a moment. -/
abbrev decls (now : Moment) : Declarations := now.state.world.decls

/-- What the session remembers at a moment. -/
abbrev session (now : Moment) : Session := now.state.session

/-- What declarations stand for: by the memo, or else by the stack. -/
def answer (now : Moment) : Answers := fun declaration =>
  (now.session.resolved.get? declaration).or (now.stack.lookup declaration).join

/-- The way to put in what declarations stand for. -/
abbrev fill (now : Moment) : Relink := .fill now.answer

/-- The moment with other definitions. -/
def withDefs (now : Moment) (defs : Definitions) : Moment :=
  { now with state := { now.state with world := { now.state.world with defs } } }

/-- The moment with another state of the session and the world. -/
def withState (now : Moment) (session : Session) (world : World) : Moment :=
  { now with state := ⟨session, world⟩ }

/-- The moment with another stack. -/
def withStack (now : Moment) (stack : InFlight) : Moment :=
  { now with stack }

/-- The moment with other definitions made. -/
def withMade (now : Moment) (made : List (Declaration × Definition)) : Moment :=
  { now with made }

/-- The moment with other hidden methods made. -/
def withHidden (now : Moment) (hidden : List (DefId .method)) : Moment :=
  { now with hidden }

section With

variable (now : Moment) (defs : Definitions) (session : Session) (world : World) (stack : InFlight)
  (made : List (Declaration × Definition)) (hidden : List (DefId .method))

@[simp] theorem withDefs_defs : (now.withDefs defs).defs = defs := rfl
@[simp] theorem withDefs_decls : (now.withDefs defs).decls = now.decls := rfl
@[simp] theorem withDefs_session : (now.withDefs defs).session = now.session := rfl
@[simp] theorem withDefs_stack : (now.withDefs defs).stack = now.stack := rfl
@[simp] theorem withDefs_confirmed : (now.withDefs defs).confirmed = now.confirmed := rfl
@[simp] theorem withDefs_made : (now.withDefs defs).made = now.made := rfl
@[simp] theorem withDefs_hidden : (now.withDefs defs).hidden = now.hidden := rfl
@[simp] theorem withDefs_answer : (now.withDefs defs).answer = now.answer := rfl

@[simp] theorem withState_world : (now.withState session world).world = world := rfl
@[simp] theorem withState_defs : (now.withState session world).defs = world.defs := rfl
@[simp] theorem withState_decls : (now.withState session world).decls = world.decls := rfl
@[simp] theorem withState_session : (now.withState session world).session = session := rfl
@[simp] theorem withState_stack : (now.withState session world).stack = now.stack := rfl
@[simp] theorem withState_confirmed : (now.withState session world).confirmed = now.confirmed := rfl
@[simp] theorem withState_made : (now.withState session world).made = now.made := rfl
@[simp] theorem withState_hidden : (now.withState session world).hidden = now.hidden := rfl

@[simp] theorem withStack_state : (now.withStack stack).state = now.state := rfl
@[simp] theorem withStack_world : (now.withStack stack).world = now.world := rfl
@[simp] theorem withStack_defs : (now.withStack stack).defs = now.defs := rfl
@[simp] theorem withStack_decls : (now.withStack stack).decls = now.decls := rfl
@[simp] theorem withStack_session : (now.withStack stack).session = now.session := rfl
@[simp] theorem withStack_stack : (now.withStack stack).stack = stack := rfl
@[simp] theorem withStack_confirmed : (now.withStack stack).confirmed = now.confirmed := rfl
@[simp] theorem withStack_made : (now.withStack stack).made = now.made := rfl
@[simp] theorem withStack_hidden : (now.withStack stack).hidden = now.hidden := rfl

@[simp] theorem withMade_state : (now.withMade made).state = now.state := rfl
@[simp] theorem withMade_world : (now.withMade made).world = now.world := rfl
@[simp] theorem withMade_defs : (now.withMade made).defs = now.defs := rfl
@[simp] theorem withMade_decls : (now.withMade made).decls = now.decls := rfl
@[simp] theorem withMade_session : (now.withMade made).session = now.session := rfl
@[simp] theorem withMade_stack : (now.withMade made).stack = now.stack := rfl
@[simp] theorem withMade_confirmed : (now.withMade made).confirmed = now.confirmed := rfl
@[simp] theorem withMade_made : (now.withMade made).made = made := rfl
@[simp] theorem withMade_hidden : (now.withMade made).hidden = now.hidden := rfl
@[simp] theorem withMade_answer : (now.withMade made).answer = now.answer := rfl

@[simp] theorem withHidden_state : (now.withHidden hidden).state = now.state := rfl
@[simp] theorem withHidden_world : (now.withHidden hidden).world = now.world := rfl
@[simp] theorem withHidden_defs : (now.withHidden hidden).defs = now.defs := rfl
@[simp] theorem withHidden_decls : (now.withHidden hidden).decls = now.decls := rfl
@[simp] theorem withHidden_session : (now.withHidden hidden).session = now.session := rfl
@[simp] theorem withHidden_stack : (now.withHidden hidden).stack = now.stack := rfl
@[simp] theorem withHidden_confirmed : (now.withHidden hidden).confirmed = now.confirmed := rfl
@[simp] theorem withHidden_made : (now.withHidden hidden).made = now.made := rfl
@[simp] theorem withHidden_hidden : (now.withHidden hidden).hidden = hidden := rfl
@[simp] theorem withHidden_answer : (now.withHidden hidden).answer = now.answer := rfl

end With

/-- Whether everything that a reference leads to is known: declarations have answers, and the owners
of generic variables are in their slots. -/
structure Covers (now : Moment) (targets : List Target) (slots : List SlotId) : Prop where
  settled : now.answer.SettlesAll targets
  owned : ∀ slot ∈ slots, (now.world.slot? slot).isSome = true

/-- Whether a definition agrees on a detail with its declaration. -/
def Holds (now : Moment) (declaration : Declaration) (definition : Definition) (detail : Detail) :
    Prop :=
  ∃ record, now.defs.record? definition = some record ∧
    let statement := now.decls.statement declaration
    let names := now.world.typeNames
    match detail with
    | .flags => ∀ scheme declared, declaration.kind.scheme? = some scheme →
        statement.flags = some declared →
        scheme.merge (declaration.kind = .type && record.nature.owner.isSome)
          (now.decls.terms declaration).policy record.details.flags declared
            = record.details.flags
    | .base => ∀ declared, statement.base = some declared →
        now.answer.SettlesAll declared.targets ∧
          ∃ existing, record.details.base = some existing ∧
            existing.same names .declared (declared.relink now.fill) = true
    | .interface declared => now.answer.SettlesAll declared.targets ∧
        ∃ existing ∈ record.details.interfaces,
          existing.same names .declared (declared.relink now.fill) = true
    | .generics => ∀ declared, statement.generics = some declared →
        record.details.generics.length = declared.length
    | .signature => now.answer.SettlesAll statement.shape.targets ∧
        record.nature.shape.Agree names (statement.shape.relink now.fill)
    | .overload => now.answer.SettlesAll statement.shape.targets ∧
        record.nature.shape.Overloads names (statement.shape.relink now.fill)
    | .result => now.answer.SettlesAll statement.shape.targets ∧
        record.nature.shape.ResultsAgree names (statement.shape.relink now.fill)
    | .override declared => now.answer.SettlesAll declared.targets ∧
        ∃ existing ∈ record.details.overrides,
          existing.body.same names .strict (declared.body.relink now.fill) = true ∧
            existing.declaration.same names .strict (declared.declaration.relink now.fill) = true
    | .accessor role declared => ∃ method,
        now.answer (.method declared) = some (.method method) ∧
          (role, method) ∈ record.details.accessors

/-- Whether a definition has the name that a declaration gives, and at top level the namespace.
Overloads are told apart by their signatures. -/
def Matches (now : Moment) (declaration : Declaration) (definition : Definition) : Prop :=
  ∃ record, now.defs.record? definition = some record ∧
    record.nature.name = (now.decls.statement declaration).name ∧
    (∀ parent, now.decls.parent? declaration = some parent → parent.kind = .module →
      record.nature.namespaceName = (now.decls.statement declaration).namespaceName) ∧
    (declaration.kind = .method → now.Holds declaration definition .overload)

/-- Whether a definition is the first one where its declaration says that has the name that it
gives. -/
inductive Found (now : Moment) : Declaration → Definition → Prop where
  | module {id : DeclId .module} {found : DefId .module}
      (hmodule : now.session.modules.get? (now.decls.module id).name = some found) :
      Found now (.module id) (.module found)
  | member {declaration parent : Declaration} {definition holder : Definition}
      {front rest : List Definition}
      (hparent : now.decls.parent? declaration = some parent)
      (hholder : now.answer parent = some holder)
      (hkind : definition.kind = declaration.kind)
      (hmembers : now.defs.members holder declaration.kind = front ++ definition :: rest)
      (hmatches : now.Matches declaration definition)
      (hfirst : ∀ other ∈ front, ¬ now.Matches declaration other) :
      Found now declaration definition

/-- Whether there is no definition where a declaration says that has the name that it gives. -/
inductive Missing (now : Moment) : Declaration → Prop where
  | module {id : DeclId .module} {name : String} (hname : (now.decls.module id).name = name)
      (hnone : now.session.modules.get? name = none)
      {other : String} (hload : ((Task.load now.session.source name).on now.world).1 =
        .error (.moduleNotFound other)) :
      Missing now (.module id)
  | member {declaration parent : Declaration} {holder : Definition}
      (hparent : now.decls.parent? declaration = some parent)
      (hholder : now.answer parent = some holder)
      (hnone : ∀ other ∈ now.defs.members holder declaration.kind,
        ¬ now.Matches declaration other) :
      Missing now declaration

/-- The type that a definition belongs to when it is made inside another one. -/
def ownerIn : Definition → Option (DefId .type)
  | .type id => some id
  | _ => none

/-- The module that a type belongs to when it is made inside a module or another type. -/
def moduleIn (now : Moment) : Definition → Option (DefId .module)
  | .module id => some id
  | .type id => now.defs.moduleOf? id
  | _ => none

/-- The flags of what is made for a declaration that states none. -/
def presetFlags (decls : Declarations) : Declaration → UInt32
  | .type id => if (decls.outer? id).isSome then Flags.nestedPrivate else 0
  | .field _ => Flags.privateMember
  | .method id => Search.defaultMethodFlags (decls.method id).signature
  | .module _ | .property _ | .event _ => 0

/-- Whether a record is what is made for a declaration inside a holder: all of it from the
declaration, and nothing else. -/
structure Renders (now : Moment) (declaration : Declaration) (holder : Definition)
    (record : Record) : Prop where
  name : record.nature.name = (now.decls.statement declaration).name
  namespaceName : record.nature.namespaceName = (now.decls.statement declaration).namespaceName
  settled : now.answer.SettlesAll (now.decls.statement declaration).shape.targets
  shape : record.nature.shape = (now.decls.statement declaration).shape.relink now.fill
  owner : record.nature.owner = ownerIn holder
  module : record.nature.module =
    if declaration.kind = .type then now.moduleIn holder else none
  details : record.details = { flags := record.details.flags }
  flags : record.details.flags =
    (now.decls.statement declaration).flags.getD (presetFlags now.decls declaration)
  body : record.body = none
  members : record.members = fun _ => []

end Moment

/-- A change to the details of a definition. -/
inductive Amendment where
  | flags (flags : UInt32)
  | base (type : TypeRef)
  | interface (type : TypeRef)
  | generics (params : List GenericParam)
  | override (override : Override)
  | accessor (role : AccessorRole) (method : DefId .method)

namespace Amendment

/-- The details after a change. -/
def apply (details : Details) : Amendment → Details
  | .flags value => { details with flags := value }
  | .base type => { details with base := some type }
  | .interface type => { details with interfaces := details.interfaces ++ [type] }
  | .generics params => { details with generics := params }
  | .override added => { details with overrides := details.overrides ++ [added] }
  | .accessor role method =>
    { details with accessors := Accessors.link details.accessors role method }

/-- Whether a change writes what a declaration states, with what declarations stand for put in.
Flags are merged; an interface or an override is added when it is the first declared one that is not
there yet, and an accessor is linked when all accessors before it are; the base type and the generic
parameters are set only where the definition was made. -/
def Stated (now : Moment) (declaration : Declaration) (definition : Definition) : Amendment → Prop
  | .flags value => ∃ scheme declared record, declaration.kind.scheme? = some scheme ∧
      (now.decls.statement declaration).flags = some declared ∧
      now.defs.record? definition = some record ∧
      value = scheme.merge (declaration.kind = .type && record.nature.owner.isSome)
        (now.decls.terms declaration).policy record.details.flags declared
  | .base type => ∃ declared,
      (now.decls.statement declaration).base = some declared ∧
        now.answer.SettlesAll declared.targets ∧ type = declared.relink now.fill ∧
        (declaration, definition) ∈ now.made
  | .interface type => ∃ front declared rest,
      (now.decls.statement declaration).interfaces = front ++ declared :: rest ∧
        now.answer.SettlesAll declared.targets ∧ type = declared.relink now.fill ∧
        (∀ other ∈ front, (declaration, .interface other) ∈ now.confirmed) ∧
        ¬ now.Holds declaration definition (.interface declared)
  | .generics params => ∃ declared,
      (now.decls.statement declaration).generics = some declared ∧
        now.answer.SettlesAll (declared.flatMap GenericParam.targets) ∧
        params = declared.map (GenericParam.relink now.fill) ∧
        (declaration, definition) ∈ now.made
  | .override added => ∃ front declared rest,
      (now.decls.statement declaration).overrides = front ++ declared :: rest ∧
        now.answer.SettlesAll declared.targets ∧ added = declared.relink now.fill ∧
        (∀ other ∈ front, (declaration, .override other) ∈ now.confirmed) ∧
        ¬ now.Holds declaration definition (.override declared)
  | .accessor role method => ∃ front declared rest,
      (now.decls.statement declaration).accessors = front ++ (role, declared) :: rest ∧
        now.answer (.method declared) = some (.method method) ∧
        ∀ other ∈ front, (declaration, .accessor other.1 other.2) ∈ now.confirmed

end Amendment

end Graft
