import Graft.Proofs.Definition.Building
import Graft.Proofs.Definition.Trail
import Graft.Proofs.Definition.WellFormed

/-!
# Filing definitions

A module gives tokens to all that it holds, one after the other, and to nothing else: what it has
given tokens to can be listed (`Files`), and its ledger is that of the list. `Filing` says so of all
modules together. It is not touched by what has no part in tokens (`Alike.filing`), nor by making
something that belongs to nothing (`Filing.sprouts`).
-/

namespace Graft

/-- The table in which what is of a kind has its rows. -/
def SymbolKind.table : SymbolKind → TableId
  | .module => .module
  | .type => .typeDef
  | .field => .field
  | .method => .methodDef
  | .property => .property
  | .event => .event

theorem SymbolKind.table_injective : Function.Injective SymbolKind.table := by
  intro left right h
  cases left <;> cases right <;> first | rfl | cases h

namespace Definitions

/-! ## Rows and tokens -/

/-- The place of a definition among those of its kind, counted from one. -/
def rowIn (filed : List Definition) (definition : Definition) : Nat :=
  (filed.filter (·.kind = definition.kind)).idxOf definition + 1

/-- The token that goes with the place of a definition. -/
def tokenIn (filed : List Definition) (definition : Definition) : Token :=
  .ofParts definition.kind.table (.ofNat (rowIn filed definition))

/-- A ledger with one definition more. -/
def file (ledger : RowCounts × Dictionary Token Definition) (definition : Definition) :
    RowCounts × Dictionary Token Definition :=
  let table := definition.kind.table
  let rows := ledger.1.bump table
  (rows, ledger.2.insert (.ofParts table (rows.count table)) definition)

section Rows

variable {filed rest : List Definition} {definition : Definition}

/-- What comes later does not change a place. -/
theorem rowIn_append (hmem : definition ∈ filed) :
    rowIn (filed ++ rest) definition = rowIn filed definition := by
  have hmem' : definition ∈ filed.filter (·.kind = definition.kind) :=
    List.mem_filter.mpr ⟨hmem, by simp⟩
  rw [rowIn, List.filter_append, List.idxOf_append_of_mem hmem', rowIn]

theorem tokenIn_append (hmem : definition ∈ filed) :
    tokenIn (filed ++ rest) definition = tokenIn filed definition := by
  rw [tokenIn, rowIn_append hmem, tokenIn]

/-- What comes last has the last place. -/
theorem rowIn_concat (hnew : definition ∉ filed) :
    rowIn (filed ++ [definition]) definition =
      (filed.filter (·.kind = definition.kind)).length + 1 := by
  have hnew' : definition ∉ filed.filter (·.kind = definition.kind) :=
    fun hmem => hnew (List.mem_filter.mp hmem).1
  rw [rowIn, List.filter_append, List.idxOf_append_of_notMem hnew']
  simp

/-- There are as many rows of a table as there are definitions that have one. -/
theorem count_foldl_file (filed : List Definition) (kind : SymbolKind)
    (ledger : RowCounts × Dictionary Token Definition) :
    (filed.foldl file ledger).1.count kind.table =
      ledger.1.count kind.table + .ofNat (filed.filter (·.kind = kind)).length := by
  induction filed generalizing ledger with
  | nil => simp
  | cons definition filed ih =>
      rw [List.foldl_cons, ih, file, RowCounts.count_bump, List.filter_cons]
      by_cases hkind : definition.kind = kind
      · subst hkind
        simp only [if_true, decide_true, List.length_cons, UInt32.ofNat_add]
        rw [UInt32.add_assoc, UInt32.add_comm 1]
        rfl
      · have htable : kind.table ≠ definition.kind.table :=
          fun heq => hkind (SymbolKind.table_injective heq).symm
        simp [hkind, htable]

/-- The token that a module gives next is the one that goes with the last place. -/
theorem next_token (hnew : definition ∉ filed) :
    Token.ofParts definition.kind.table
        (((filed.foldl file ({}, {})).1.bump definition.kind.table).count definition.kind.table) =
      tokenIn (filed ++ [definition]) definition := by
  rw [RowCounts.count_bump, if_pos rfl, count_foldl_file, tokenIn, rowIn_concat hnew,
    UInt32.ofNat_add]
  have hzero : RowCounts.count {} definition.kind.table = 0 := by
    cases definition.kind <;> rfl
  rw [hzero, UInt32.zero_add]
  rfl

end Rows

/-! ## Entering -/

/-- What a definition has from being entered in a module: its token, and the module if it is a type.
-/
def numbers (defs : Definitions) (definition : Definition) :
    Option (Option Token × Option (DefId .module)) :=
  (defs.record? definition).map fun record => (record.nature.token, record.nature.module)

/-- A definition entered in a module, without what it holds. -/
def enter (defs : Definitions) (module : DefId .module) : Definition → Definitions
  | .module _ => defs
  | .type id =>
    let (token, defs) := defs.register module .typeDef (.type id)
    defs.updateType id fun record =>
      { record with
        token := record.token.or (some token)
        module := record.module.or (some module) }
  | .field id => defs.enterField module id
  | .method id => defs.enterMethod module id
  | .property id => defs.enterProperty module id
  | .event id => defs.enterEvent module id

/-- A record with the token and the module that it gets when it is entered, unless it has them. -/
def entered (module : DefId .module) (token : Token) (kind : SymbolKind) (record : Record) : Record :=
  { record with nature :=
      { record.nature with
        token := record.nature.token.or (some token)
        module := if kind = .type then record.nature.module.or (some module)
          else record.nature.module } }

section Enter

variable {defs : Definitions} {module : DefId .module} {definition : Definition}

theorem ledger_register (hhas : defs.has (.module module) = true) (definition : Definition)
    (other : DefId .module) :
    (defs.register module definition.kind.table definition).2.ledger other =
      if other = module then file (defs.ledger module) definition else defs.ledger other := by
  by_cases heq : other = module
  · subst heq
    obtain ⟨record, hrecord⟩ := Option.isSome_iff_exists.mp hhas
    simp [register, allocate, ledger, Definitions.module, updateModule, hrecord, file]
  · rw [if_neg heq]
    exact register_ledgers defs module _ definition other heq

theorem enter_changes (hkind : definition.kind ≠ .module) :
    (defs.register module definition.kind.table definition).2.Changes (defs.enter module definition)
      definition (entered module (defs.register module definition.kind.table definition).1
        definition.kind) := by
  cases definition with
  | module => exact absurd rfl hkind
  | type => exact updateType_changes fun _ => rfl
  | field => exact updateField_changes fun _ => rfl
  | method => exact updateMethod_changes fun _ => rfl
  | property => exact updateProperty_changes fun _ => rfl
  | event => exact updateEvent_changes fun _ => rfl

theorem ledger_enter (hhas : defs.has (.module module) = true) (hkind : definition.kind ≠ .module)
    (other : DefId .module) :
    (defs.enter module definition).ledger other =
      if other = module then file (defs.ledger module) definition else defs.ledger other := by
  rw [← ledger_register hhas]
  exact (enter_changes hkind).ledger other fun heq => hkind (heq ▸ rfl)

theorem numbers_enter (hkind : definition.kind ≠ .module) (other : Definition) :
    (defs.enter module definition).numbers other =
      if other = definition then (defs.numbers other).map fun (token, module?) =>
        (token.or (some (defs.register module definition.kind.table definition).1),
          if definition.kind = .type then module?.or (some module) else module?)
      else defs.numbers other := by
  have hregister := register_changes defs module definition.kind.table definition
  have hrecord (other : Definition) :
      (defs.register module definition.kind.table definition).2.record? other = defs.record? other := by
    rw [hregister.record?]
    split <;> simp
  simp only [numbers, (enter_changes hkind).record?, hrecord]
  split
  · cases defs.record? other <;> rfl
  · rfl

theorem members_enter (definition holder : Definition) (kind : SymbolKind) :
    (defs.enter module definition).members holder kind = defs.members holder kind := by
  by_cases hkind : definition.kind = .module
  · cases definition with
    | module => rfl
    | type | field | method | property | event => cases hkind
  · exact ((enter_changes hkind).members_eq (fun _ => rfl) holder kind).trans
      ((register_changes defs module _ definition).members_eq (fun _ => rfl) holder kind)

/-- Entering one definition after the other. -/
def enterAll (defs : Definitions) (module : DefId .module) (definitions : List Definition) :
    Definitions :=
  definitions.foldl (enter · module ·) defs

theorem members_enterAll (defs : Definitions) (definitions : List Definition) (holder : Definition)
    (kind : SymbolKind) :
    (defs.enterAll module definitions).members holder kind = defs.members holder kind := by
  induction definitions generalizing defs with
  | nil => rfl
  | cons definition rest ih => exact (ih _).trans (members_enter definition holder kind)

theorem enterAll_append (defs : Definitions) (front rest : List Definition) :
    defs.enterAll module (front ++ rest) = (defs.enterAll module front).enterAll module rest :=
  List.foldl_append

/-- A type is entered, then what it holds besides nested types, then the nested types. -/
theorem enterTypeWithin_succ (module : DefId .module) (depth : Nat) (defs : Definitions)
    (id : DefId .type) :
    let start := defs.enter module (.type id)
    enterTypeWithin module (depth + 1) defs id =
      (start.type id).nested.foldl (enterTypeWithin module depth)
        (start.enterAll module
          ([.field, .method, .property, .event].flatMap (start.members (.type id)))) := by
  intro start
  have hfold {ι : Type} (toDefinition : ι → Definition) (ids : List ι) (defs : Definitions) :
      ids.foldl (fun defs id => defs.enter module (toDefinition id)) defs =
        defs.enterAll module (ids.map toDefinition) := (List.foldl_map).symm
  simp only [List.flatMap_cons, List.flatMap_nil, List.append_nil, enterAll_append, members, ← hfold]
  rfl

/-- Entering types one after the other is entering all that they hold, as it was in the beginning:
what they hold does not change on the way. -/
theorem foldl_enterTypeWithin {depth : Nat}
    (h : ∀ defs id, enterTypeWithin module depth defs id =
      defs.enterAll module (defs.subtreeWithin depth (.type id)))
    (ids : List (DefId .type)) (defs : Definitions) :
    ids.foldl (enterTypeWithin module depth) defs =
      defs.enterAll module ((ids.map .type).flatMap (defs.subtreeWithin depth)) := by
  induction ids generalizing defs with
  | nil => rfl
  | cons id ids ih =>
      rw [List.foldl_cons, h, ih, subtreeWithin_congr (members_enterAll defs _), List.map_cons,
        List.flatMap_cons, enterAll_append]

/-- Entering a type is entering it and all that it holds, one after the other. -/
theorem enterTypeWithin_eq (module : DefId .module) (depth : Nat) (defs : Definitions)
    (id : DefId .type) :
    enterTypeWithin module depth defs id =
      defs.enterAll module (defs.subtreeWithin depth (.type id)) := by
  induction depth generalizing defs id with
  | zero => rfl
  | succ depth ih =>
      let start := defs.enter module (.type id)
      have hstart (holder : Definition) (kind : SymbolKind) :
          start.members holder kind = defs.members holder kind := members_enter (.type id) holder kind
      calc enterTypeWithin module (depth + 1) defs id
        _ = start.enterAll module
              ([.field, .method, .property, .event].flatMap (start.members (.type id)) ++
                (start.members (.type id) .type).flatMap (start.subtreeWithin depth)) := by
            rw [enterTypeWithin_succ, foldl_enterTypeWithin ih,
              subtreeWithin_congr (members_enterAll start _), enterAll_append]
            rfl
        _ = defs.enterAll module (start.subtreeWithin (depth + 1) (.type id)) := by
            rw [subtreeWithin_type]
            rfl
        _ = defs.enterAll module (defs.subtreeWithin (depth + 1) (.type id)) := by
            rw [subtreeWithin_congr hstart]

end Enter

/-! ## What a module has given tokens to -/

/-- Whether a module has given tokens to the definitions of a list, in their order, and to nothing
else. -/
structure Files (defs : Definitions) (module : DefId .module) (filed : List Definition) : Prop where
  nodup : filed.Nodup
  ledger : defs.ledger module = filed.foldl file ({}, {})
  numbers : ∀ definition ∈ filed, defs.numbers definition =
    some (some (tokenIn filed definition), if definition.kind = .type then some module else none)

section Files

variable {defs defs' : Definitions} {module other : DefId .module} {filed definitions : List Definition}
  {definition : Definition}

theorem Files.congr (h : defs.Files module filed)
    (hledger : defs'.ledger module = defs.ledger module)
    (hnumbers : ∀ definition ∈ filed, defs'.numbers definition = defs.numbers definition) :
    defs'.Files module filed :=
  ⟨h.nodup, hledger.trans h.ledger, fun definition hmem =>
    (hnumbers definition hmem).trans (h.numbers definition hmem)⟩

/-- What is entered in a module comes last in its list. -/
theorem Files.enter (h : defs.Files module filed) (hhas : defs.has (.module module) = true)
    (hkind : definition.kind ≠ .module) (hnew : definition ∉ filed)
    (hblank : defs.numbers definition = some (none, none)) :
    (defs.enter module definition).Files module (filed ++ [definition]) where
  nodup := List.concat_eq_append ▸ h.nodup.concat hnew
  ledger := by
    rw [ledger_enter hhas hkind, if_pos rfl, h.ledger, List.foldl_append]
    rfl
  numbers other hmem := by
    rw [numbers_enter hkind]
    split
    · rename_i heq
      subst heq
      have htoken : (defs.register module other.kind.table other).1 =
          tokenIn (filed ++ [other]) other :=
        (congrArg (fun ledger : RowCounts × Dictionary Token Definition => Token.ofParts
          other.kind.table ((ledger.1.bump other.kind.table).count other.kind.table)) h.ledger).trans
          (next_token hnew)
      simp [hblank, htoken]
    · rename_i hne
      have hold : other ∈ filed := (List.mem_append.mp hmem).resolve_right (by simpa using hne)
      rw [tokenIn_append hold, h.numbers other hold]

/-- What is entered in one module leaves the lists of other ones alone. -/
theorem Files.enter_other (h : defs.Files other filed) (hhas : defs.has (.module module) = true)
    (hkind : definition.kind ≠ .module) (hne : other ≠ module) (hnew : definition ∉ filed) :
    (defs.enter module definition).Files other filed := by
  refine h.congr ?_ fun item hmem => ?_
  · rw [ledger_enter hhas hkind, if_neg hne]
  · rw [numbers_enter hkind, if_neg (ne_of_mem_of_not_mem hmem hnew)]

theorem has_eq_numbers (defs : Definitions) (definition : Definition) :
    defs.has definition = (defs.numbers definition).isSome := by
  rw [has_eq_isSome, numbers, Option.isSome_map]

@[simp] theorem has_enter (definition other : Definition) :
    (defs.enter module definition).has other = defs.has other := by
  by_cases hkind : definition.kind = .module
  · cases definition with
    | module => rfl
    | type | field | method | property | event => cases hkind
  · rw [has_eq_numbers, has_eq_numbers, numbers_enter hkind]
    split <;> simp

@[simp] theorem has_enterAll (definitions : List Definition) (other : Definition) :
    (defs.enterAll module definitions).has other = defs.has other := by
  induction definitions generalizing defs with
  | nil => rfl
  | cons definition rest ih => exact ih.trans (has_enter definition other)

theorem numbers_enterAll (hkinds : ∀ definition ∈ definitions, definition.kind ≠ .module)
    {other : Definition} (hnew : other ∉ definitions) :
    (defs.enterAll module definitions).numbers other = defs.numbers other := by
  induction definitions generalizing defs with
  | nil => rfl
  | cons definition rest ih =>
      obtain ⟨hkind, hkinds⟩ := List.forall_mem_cons.mp hkinds
      rw [List.mem_cons, not_or] at hnew
      obtain ⟨hne, hnew⟩ := hnew
      rw [enterAll, List.foldl_cons]
      exact (ih hkinds hnew).trans (by rw [numbers_enter hkind, if_neg hne])

/-- All that is entered in a module comes last in its list, in the order of entering. -/
theorem Files.enterAll (h : defs.Files module filed) (hhas : defs.has (.module module) = true)
    (hkinds : ∀ definition ∈ definitions, definition.kind ≠ .module)
    (hnodup : (filed ++ definitions).Nodup)
    (hblank : ∀ definition ∈ definitions, defs.numbers definition = some (none, none)) :
    (defs.enterAll module definitions).Files module (filed ++ definitions) := by
  induction definitions generalizing defs filed with
  | nil => simpa [Definitions.enterAll] using h
  | cons definition rest ih =>
      obtain ⟨hkind, hkinds⟩ := List.forall_mem_cons.mp hkinds
      obtain ⟨hfirst, hblank⟩ := List.forall_mem_cons.mp hblank
      rw [List.append_cons] at hnodup ⊢
      obtain ⟨hfront, hrest, hapart⟩ := List.nodup_append'.mp hnodup
      have hnew : definition ∉ filed := fun hmem =>
        (List.nodup_append'.mp hfront).2.2 hmem (List.mem_singleton.mpr rfl)
      refine ih (h.enter hhas hkind hnew hfirst) ((has_enter _ _).trans hhas) hkinds hnodup
        fun other hmem => ?_
      have hne : other ≠ definition := by
        rintro rfl
        exact hapart (List.mem_append_right _ (List.mem_singleton.mpr rfl)) hmem
      rw [numbers_enter hkind, if_neg hne]
      exact hblank other hmem

theorem Files.enterAll_other (h : defs.Files other filed) (hhas : defs.has (.module module) = true)
    (hkinds : ∀ definition ∈ definitions, definition.kind ≠ .module) (hne : other ≠ module)
    (hapart : ∀ definition ∈ definitions, definition ∉ filed) :
    (defs.enterAll module definitions).Files other filed := by
  induction definitions generalizing defs with
  | nil => exact h
  | cons definition rest ih =>
      obtain ⟨hkind, hkinds⟩ := List.forall_mem_cons.mp hkinds
      obtain ⟨hnew, hapart⟩ := List.forall_mem_cons.mp hapart
      exact ih (h.enter_other hhas hkind hne hnew) ((has_enter _ _).trans hhas) hkinds hapart

end Files

/-! ## All modules together -/

/-- Whether each module has given tokens to what it holds, and to nothing else. -/
structure Filing (defs : Definitions) : Prop where
  planted : defs.Planted
  filed : ∀ module, defs.has (.module module) = true → ∃ filed, defs.Files module filed ∧
    ∀ definition, definition ∈ filed ↔
      definition ≠ .module module ∧ defs.Below (.module module) definition
  blank : ∀ definition, defs.has definition = true →
    (∀ module, ¬ defs.Below (.module module) definition) →
    defs.numbers definition = some (none, none)

section Filing

variable {defs defs' : Definitions} {module other : DefId .module}
  {definition parent child holder : Definition} {record : Record} {kind : SymbolKind}

/-- What is held by a definition that does not hold itself is held by one that exists. -/
theorem Below.has_top {top : Definition} (h : defs.Below top definition) :
    definition = top ∨ defs.has top = true := by
  induction h with
  | top => exact .inl rfl
  | member _ hmem ih =>
      obtain rfl | hhas := ih
      · exact .inr (has_of_mem_members hmem)
      · exact .inr hhas

/-- Whether definitions differ in nothing that has to do with tokens or with what lists what. -/
structure Alike (defs defs' : Definitions) : Prop where
  members : ∀ holder kind, defs'.members holder kind = defs.members holder kind
  numbers : ∀ definition, defs'.numbers definition = defs.numbers definition
  ledger : ∀ module, defs'.ledger module = defs.ledger module

namespace Alike

theorem has (h : defs.Alike defs') (definition : Definition) :
    defs'.has definition = defs.has definition := by
  rw [has_eq_numbers, has_eq_numbers, h.numbers]

theorem filing (h : defs.Alike defs') (hfiling : defs.Filing) : defs'.Filing where
  planted := hfiling.planted.congr h.members fun definition => (h.has definition).trans
  filed module hhas := by
    obtain ⟨filed, hfiles, hmem⟩ := hfiling.filed module (h.has _ ▸ hhas)
    refine ⟨filed, hfiles.congr (h.ledger module) fun definition _ => h.numbers definition, ?_⟩
    simpa only [below_congr h.members] using hmem
  blank definition hhas hnone := by
    rw [h.numbers]
    exact hfiling.blank definition (h.has _ ▸ hhas) fun module =>
      (below_congr h.members).not.mp (hnone module)

/-- A change of a record changes nothing about tokens unless it shows. -/
theorem of_changes {changed : Definition} {change : Record → Record}
    (h : defs.Changes defs' changed change)
    (hmembers : ∀ record, (change record).members = record.members)
    (htoken : ∀ record, (change record).nature.token = record.nature.token)
    (hmodule : ∀ record, (change record).nature.module = record.nature.module)
    (hledger : ∀ module, defs'.ledger module = defs.ledger module) : defs.Alike defs' where
  members := h.members_eq hmembers
  numbers definition := by
    rw [Definitions.numbers, h.record?, Definitions.numbers]
    split
    · cases defs.record? definition <;> simp [htoken, hmodule]
    · rfl
  ledger := hledger

end Alike

/-- Whether something is made that holds nothing and belongs to nothing, and no token is given. -/
structure Sprouts (defs defs' : Definitions) (made : Definition) (record : Record) : Prop where
  makes : defs.Makes defs' made record
  blank : record.Blank
  ledger : ∀ module, defs.has (.module module) = true → defs'.ledger module = defs.ledger module
  empty : ∀ module, made = .module module → defs'.ledger module = ({}, {})

/-- What is no module gets no ledger. -/
theorem Makes.sprouts {made : Definition} (h : defs.Makes defs' made record)
    (hkind : made.kind ≠ .module) (hblank : record.Blank)
    (hledger : ∀ module, defs'.ledger module = defs.ledger module) :
    defs.Sprouts defs' made record :=
  ⟨h, hblank, fun module _ => hledger module, fun _ heq => absurd (heq ▸ rfl) hkind⟩

namespace Filing

/-- The module that gives tokens to what is adopted is the one that holds the adopting module or
type. -/
theorem host?_iff (h : defs.Filing) (hhas : defs.has parent = true)
    (hscope : parent.kind = .module ∨ parent.kind = .type) :
    defs.host? parent = some module ↔ defs.Below (.module module) parent := by
  cases parent with
  | module id =>
      refine ⟨fun hhost => Option.some.inj hhost ▸ .top, fun hbelow => ?_⟩
      cases hbelow with
      | top => rfl
      | member _ hmem => exact absurd hmem (unlisted_module defs id _ _)
  | type id =>
      -- A type got its module with its token, and has none as long as it has no token.
      have hknown {module : DefId .module} (hbelow : defs.Below (.module module) (.type id)) :
          defs.has (.module module) = true ∧ ∃ token,
            defs.numbers (.type id) = some (some token, some module) := by
        have hmodule := hbelow.has_top.resolve_left nofun
        obtain ⟨filed, hfiles, hmem⟩ := h.filed module hmodule
        exact ⟨hmodule, _, hfiles.numbers _ ((hmem _).mpr ⟨nofun, hbelow⟩)⟩
      have hnumbers {token? : Option Token} {module? : Option (DefId .module)}
          (hnumbers : defs.numbers (.type id) = some (token?, module?)) :
          defs.host? (.type id) = module?.filter fun module => defs.has (.module module) := by
        obtain ⟨record, hrecord, heq⟩ := Option.map_eq_some_iff.mp hnumbers
        cases heq
        rw [host?, moduleOf?_eq, hrecord, Option.bind_some]
      constructor
      · intro hhost
        by_cases hnone : ∀ other, ¬ defs.Below (.module other) (.type id)
        · rw [hnumbers (h.blank _ hhas hnone)] at hhost
          cases hhost
        · obtain ⟨other, hbelow⟩ := not_forall_not.mp hnone
          obtain ⟨-, _, hother⟩ := hknown hbelow
          rw [hnumbers hother, Option.filter_eq_some_iff] at hhost
          exact Option.some.inj hhost.1 ▸ hbelow
      · intro hbelow
        obtain ⟨hmodule, _, hother⟩ := hknown hbelow
        rw [hnumbers hother, Option.filter_eq_some_iff]
        exact ⟨rfl, hmodule⟩
  | field | method | property | event => simp [Definition.kind] at hscope

/-- Something that is made and belongs to nothing gets no token. -/
theorem sprouts (h : defs.Filing) {made : Definition} (hsprouts : defs.Sprouts defs' made record) :
    defs'.Filing := by
  obtain ⟨hmakes, hblank, hledger, hnew⟩ := hsprouts
  have hfresh : defs.has made = false := not_has_iff.mpr (record?_eq_none_of_fresh hmakes.fresh)
  have hmembers := hmakes.members_eq hblank.members
  have hnumbers (definition : Definition) : defs'.numbers definition =
      if definition = made then some (none, none) else defs.numbers definition := by
    rw [numbers, hmakes.record?]
    split
    · simp [hblank.token, hblank.module]
    · rfl
  have hhas (definition : Definition) : defs'.has definition = true ↔
      defs.has definition = true ∨ definition = made := by
    rw [has_eq_numbers, has_eq_numbers, hnumbers]
    split <;> simp [*]
  refine ⟨h.planted.congr hmembers fun definition hold => (hhas definition).mpr (.inl hold),
    fun module hmodule => ?filed, fun definition hdefinition hnone => ?blank⟩
  case filed =>
    simp only [below_congr hmembers]
    obtain hold | rfl := (hhas _).mp hmodule
    · obtain ⟨filed, hfiles, hmem⟩ := h.filed module hold
      refine ⟨filed, hfiles.congr (hledger module hold) fun definition hdefinition => ?_, hmem⟩
      rw [hnumbers, if_neg]
      rintro rfl
      have hnumbers := hfiles.numbers _ hdefinition
      rw [has_eq_numbers, hnumbers] at hfresh
      cases hfresh
    · -- What is new holds nothing, so that a new module has nothing to give tokens to.
      refine ⟨[], ⟨.nil, hnew module rfl, by simp⟩, fun definition => ?_⟩
      simp only [List.not_mem_nil, false_iff, not_and]
      intro hne hbelow
      rw [hbelow.has_top.resolve_left hne] at hfresh
      cases hfresh
  case blank =>
    rw [hnumbers]
    split
    · rfl
    · rename_i hne
      exact h.blank definition (((hhas _).mp hdefinition).resolve_right hne)
        fun module => (below_congr hmembers).not.mp (hnone module)

end Filing

end Filing

end Definitions

end Graft
