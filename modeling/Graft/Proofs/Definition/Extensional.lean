import Graft.Proofs.Definition.Change
import Mathlib.Data.List.Basic

/-!
# Graphs with the same records

Definitions are determined by their records, by the ledgers of the modules and by the numbers that
were handed out (`eq_of_records`). So a change that leaves the record of what it changes as it is
changes nothing at all (`Changes.eq_of_keeps`).
-/

namespace Graft

/-- A table is determined by its objects and its size. -/
theorem Table.eq_of_get? {α : Type} {left right : Table α} (hnext : left.next = right.next)
    (h : ∀ index, left.get? index = right.get? index) : left = right := by
  obtain ⟨left⟩ := left
  obtain ⟨right⟩ := right
  refine congrArg Table.mk (Array.ext hnext fun index hleft hright => ?_)
  have hget := h index
  simpa [Table.get?, hleft, hright] using hget

/-- Two lists are the same if they list the same definitions. -/
theorem DefId.eq_of_map_eq {kind : SymbolKind} {mk : DefId kind → Definition}
    (hmk : Function.Injective mk) {left right : List (DefId kind)}
    (h : left.map mk = right.map mk) : left = right :=
  List.map_injective_iff.mpr hmk h

/-! ## Records -/

theorem TypeDef.record_injective : Function.Injective TypeDef.record := by
  intro left right h
  have hnature := congrArg Record.nature h
  have hdetails := congrArg Record.details h
  have hmembers (kind : SymbolKind) : left.record.members kind = right.record.members kind :=
    congrFun (congrArg Record.members h) kind
  have hnested : left.nested = right.nested :=
    DefId.eq_of_map_eq (fun _ _ h => by cases h; rfl) (hmembers .type)
  have hfields : left.fields = right.fields :=
    DefId.eq_of_map_eq (fun _ _ h => by cases h; rfl) (hmembers .field)
  have hmethods : left.methods = right.methods :=
    DefId.eq_of_map_eq (fun _ _ h => by cases h; rfl) (hmembers .method)
  have hproperties : left.properties = right.properties :=
    DefId.eq_of_map_eq (fun _ _ h => by cases h; rfl) (hmembers .property)
  have hevents : left.events = right.events :=
    DefId.eq_of_map_eq (fun _ _ h => by cases h; rfl) (hmembers .event)
  cases left
  cases right
  simp_all [TypeDef.record]

theorem FieldDef.record_injective : Function.Injective FieldDef.record := by
  intro left right h
  cases left
  cases right
  simp_all [FieldDef.record]

theorem MethodDef.record_injective : Function.Injective MethodDef.record := by
  intro left right h
  cases left
  cases right
  simp_all [MethodDef.record]

theorem PropertyDef.record_injective : Function.Injective PropertyDef.record := by
  intro left right h
  cases left
  cases right
  simp_all [PropertyDef.record]

theorem EventDef.record_injective : Function.Injective EventDef.record := by
  intro left right h
  cases left
  cases right
  simp_all [EventDef.record]

/-- The record of a module leaves out its ledger. -/
theorem ModuleDef.eq_of_record {left right : ModuleDef} (h : left.record = right.record)
    (hrows : left.rows = right.rows) (htokens : left.tokens = right.tokens) : left = right := by
  have hnature := congrArg Record.nature h
  have hmembers : left.record.members .type = right.record.members .type :=
    congrFun (congrArg Record.members h) .type
  have htypes : left.types = right.types :=
    DefId.eq_of_map_eq (fun _ _ h => by cases h; rfl) hmembers
  cases left
  cases right
  simp_all [ModuleDef.record]

namespace Definitions

variable {defs defs' : Definitions} {changed : Definition} {change : Record → Record}

/-- A table holds the same objects if their records are the same. -/
theorem table_eq {α : Type} {read : α → Record} (hread : Function.Injective read)
    {left right : Table α} (hnext : left.next = right.next)
    (h : ∀ index, (left.get? index).map read = (right.get? index).map read) : left = right :=
  Table.eq_of_get? hnext fun index => Option.map_injective hread (h index)

/-- Definitions are determined by their records, the numbers handed out and the ledgers. -/
theorem eq_of_records (hrecords : ∀ definition, defs'.record? definition = defs.record? definition)
    (hnext : ∀ kind, defs'.next kind = defs.next kind)
    (hledgers : ∀ module, defs'.ledger module = defs.ledger module) : defs' = defs := by
  have hmodules : defs'.modules = defs.modules := by
    refine Table.eq_of_get? (hnext .module) fun index => ?_
    have hrecord := hrecords (.module ⟨index⟩)
    have hledger := hledgers ⟨index⟩
    simp only [record?, ledger, Definitions.module, Prod.mk.injEq] at hrecord hledger
    cases hleft : defs'.modules.get? index with
    | none =>
        rw [hleft, Option.map_none] at hrecord
        exact (Option.map_eq_none_iff.mp hrecord.symm).symm
    | some module =>
        rw [hleft, Option.map_some] at hrecord
        obtain ⟨module', hright, hsame⟩ := Option.map_eq_some_iff.mp hrecord.symm
        rw [hleft, hright] at hledger
        rw [hright, ModuleDef.eq_of_record hsame hledger.1.symm hledger.2.symm]
  have htypes : defs'.types = defs.types :=
    table_eq TypeDef.record_injective (hnext .type) fun index => hrecords (.type ⟨index⟩)
  have hfields : defs'.fields = defs.fields :=
    table_eq FieldDef.record_injective (hnext .field) fun index => hrecords (.field ⟨index⟩)
  have hmethods : defs'.methods = defs.methods :=
    table_eq MethodDef.record_injective (hnext .method) fun index => hrecords (.method ⟨index⟩)
  have hproperties : defs'.properties = defs.properties :=
    table_eq PropertyDef.record_injective (hnext .property) fun index => hrecords (.property ⟨index⟩)
  have hevents : defs'.events = defs.events :=
    table_eq EventDef.record_injective (hnext .event) fun index => hrecords (.event ⟨index⟩)
  cases defs
  cases defs'
  simp_all

/-- What changes one record and leaves it as it is changes nothing. -/
theorem Changes.eq_of_keeps (h : defs.Changes defs' changed change)
    (hmodule : changed.kind ≠ .module)
    (hkeeps : ∀ record, defs.record? changed = some record → change record = record) :
    defs' = defs := by
  refine eq_of_records (fun definition => ?_) h.next fun module => h.ledger module ?_
  · rw [h.record?]
    split
    · rename_i heq
      subst heq
      cases hrecord : defs.record? definition with
      | none => rfl
      | some record => rw [Option.map_some, hkeeps record hrecord]
    · rfl
  · rintro rfl
    exact hmodule rfl

end Definitions

end Graft
