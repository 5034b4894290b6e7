import Graft.Proofs.Declaration.Statement
import Graft.Proofs.Definition.Growth
import Mathlib.Tactic.ByContra

/-!
# Well-formed graphs of definitions

In a well-formed graph every definition that is listed is listed once, in the scope that it names
itself as the one around it, and types are nested only so deep (`WellFormed`). The full name of a
type is then the same in every graph that grows out of it (`Grows.typeName_eq`). Making and changing
definitions keeps graphs well-formed.
-/

namespace Graft

/-- Whether a record names a definition as the scope that it was declared in. -/
def Record.LiesIn (record : Record) : Definition → Prop
  | .module id => record.nature.owner = none ∧ record.nature.module = some id
  | .type id => record.nature.owner = some id
  | _ => False

instance (record : Record) : DecidablePred record.LiesIn
  | .module _ => inferInstanceAs (Decidable (_ ∧ _))
  | .type _ => inferInstanceAs (Decidable (_ = _))
  | .field _ | .method _ | .property _ | .event _ => inferInstanceAs (Decidable False)

theorem Record.LiesIn.of_nature {record record' : Record} {holder : Definition}
    (h : record.LiesIn holder) (hnature : record'.nature = record.nature) : record'.LiesIn holder := by
  cases holder with
  | module => exact ⟨hnature ▸ h.1, hnature ▸ h.2⟩
  | type => exact (congrArg Nature.owner hnature).trans h
  | field | method | property | event => exact h.elim

/-- What a definition refers to where references are compared by name: in its signature, its base
type and its interfaces. -/
def Record.named (record : Record) : List Target :=
  record.nature.shape.targets ++ record.details.base.elim [] TypeRef.targets
    ++ record.details.interfaces.flatMap TypeRef.targets

namespace Definitions

/-- Whether a type is nested a number of times. -/
inductive NestsAt (defs : Definitions) : Nat → DefId .type → Prop
  | top {id : DefId .type} (h : defs.outer? id = none) : NestsAt defs 0 id
  | inside {depth : Nat} {id outer : DefId .type} (houter : defs.outer? id = some outer)
      (h : NestsAt defs depth outer) : NestsAt defs (depth + 1) id

/-- Whether some targets are no types but those that have ever been made. -/
def Knows (defs : Definitions) (targets : List Target) : Prop :=
  ∀ id, .definition (.type id) ∈ targets → defs.Issued (.type id)

/-- Whether every definition that is listed is listed once, in the scope that it names as the one
around it. No type is nested in itself, so none is nested as deep as there are types. -/
structure WellFormed (defs : Definitions) : Prop where
  nodup : ∀ holder kind, (defs.members holder kind).Nodup
  linked : ∀ holder kind definition, definition ∈ defs.members holder kind →
    ∃ record, defs.record? definition = some record ∧ record.LiesIn holder
  nested : ∀ id, defs.has (.type id) = true → ∃ depth < defs.types.next, defs.NestsAt depth id
  owners : ∀ id record owner, defs.record? (.type id) = some record →
    record.nature.owner = some owner → defs.Issued (.type owner)
  named : ∀ definition record, defs.record? definition = some record → defs.Knows record.named

variable {defs defs' : Definitions} {definition holder holder' made parent changed : Definition}
  {record : Record} {change : Record → Record} {id outer : DefId .type} {targets : List Target}

theorem Knows.mono (h : defs.Knows targets) (hgrows : defs.Grows defs') : defs'.Knows targets :=
  fun id hmem => hgrows.issued _ (h id hmem)

theorem knows_append {targets' : List Target} :
    defs.Knows (targets ++ targets') ↔ defs.Knows targets ∧ defs.Knows targets' := by
  simp only [Knows, List.mem_append]
  exact ⟨fun h => ⟨fun id hmem => h id (.inl hmem), fun id hmem => h id (.inr hmem)⟩,
    fun h id hmem => hmem.elim (h.1 id) (h.2 id)⟩

theorem WellFormed.held (h : defs.WellFormed) : defs.Held := by
  intro holder kind definition hmem
  obtain ⟨record, hrecord, -⟩ := h.linked holder kind definition hmem
  exact has_iff.mpr ⟨record, hrecord⟩

/-- What is listed is listed in one place only. -/
theorem WellFormed.holder_eq (h : defs.WellFormed) {kind kind' : SymbolKind}
    (hmem : definition ∈ defs.members holder kind)
    (hmem' : definition ∈ defs.members holder' kind') : holder = holder' := by
  obtain ⟨record, hrecord, hlies⟩ := h.linked holder kind definition hmem
  obtain ⟨record', hrecord', hlies'⟩ := h.linked holder' kind' definition hmem'
  cases hrecord.symm.trans hrecord'
  cases holder <;> cases holder' <;> simp_all [Record.LiesIn]

/-- The type around a type that is listed in another one. -/
theorem WellFormed.outer?_eq_some (h : defs.WellFormed) {kind : SymbolKind}
    (hmem : .type id ∈ defs.members (.type outer) kind) : defs.outer? id = some outer := by
  obtain ⟨record, hrecord, hlies⟩ := h.linked _ _ _ hmem
  obtain ⟨holder, hholder, -⟩ := exists_of_mem_members hmem
  rw [Definitions.outer?_eq, hrecord, Option.bind_some, hlies, Option.filter_some,
    if_pos (has_iff.mpr ⟨holder, hholder⟩)]

/-! ## Names of types -/

/-- The name of a type does not depend on how deep types may be nested. -/
theorem NestsAt.typeNameWithin_eq {depth fuel fuel' : Nat} (h : defs.NestsAt depth id)
    (hfuel : depth < fuel) (hfuel' : depth < fuel') :
    defs.typeNameWithin fuel id = defs.typeNameWithin fuel' id := by
  induction h generalizing fuel fuel' with
  | top houter =>
      obtain ⟨fuel, rfl⟩ := Nat.exists_eq_succ_of_ne_zero (by omega : fuel ≠ 0)
      obtain ⟨fuel', rfl⟩ := Nat.exists_eq_succ_of_ne_zero (by omega : fuel' ≠ 0)
      simp [typeNameWithin, houter]
  | inside houter _ ih =>
      obtain ⟨fuel, rfl⟩ := Nat.exists_eq_succ_of_ne_zero (by omega : fuel ≠ 0)
      obtain ⟨fuel', rfl⟩ := Nat.exists_eq_succ_of_ne_zero (by omega : fuel' ≠ 0)
      simp [typeNameWithin, houter, ih (by omega : _ < fuel) (by omega : _ < fuel')]

/-- The full name of a type that is in no other one, where there are types at all. -/
theorem typeName_eq_qualify (htypes : defs.types.next ≠ 0) (houter : defs.outer? id = none) :
    defs.typeName id = Text.qualify (defs.type id).namespaceName (defs.type id).name := by
  obtain ⟨fuel, hfuel⟩ := Nat.exists_eq_succ_of_ne_zero htypes
  simp [typeName, hfuel, typeNameWithin, houter]

/-- The full name of a type at top level. -/
theorem WellFormed.typeName_top (h : defs.WellFormed) (hhas : defs.has (.type id) = true)
    (houter : defs.outer? id = none) :
    defs.typeName id = Text.qualify (defs.type id).namespaceName (defs.type id).name := by
  obtain ⟨depth, hdepth, -⟩ := h.nested id hhas
  exact typeName_eq_qualify (by omega) houter

/-- The full name of a nested type. -/
theorem WellFormed.typeName_nested (h : defs.WellFormed) (hhas : defs.has (.type id) = true)
    (houter : defs.outer? id = some outer) :
    defs.typeName id = defs.typeName outer ++ "/" ++ (defs.type id).name := by
  obtain ⟨depth, hdepth, hnests⟩ := h.nested id hhas
  obtain ⟨fuel, hfuel⟩ := Nat.exists_eq_succ_of_ne_zero (by omega : defs.types.next ≠ 0)
  cases hnests with
  | top hnone => simp [houter] at hnone
  | inside houter' hnests =>
      cases houter.symm.trans houter'
      rw [typeName, typeName, hnests.typeNameWithin_eq (by omega : _ < defs.types.next)
        (by omega : _ < fuel), hfuel, typeNameWithin, houter]

/-- What a type is nested in does not change. -/
theorem Grows.outer?_eq (h : defs.Grows defs') (hwell : defs.WellFormed)
    (hhas : defs.has (.type id) = true) : defs'.outer? id = defs.outer? id := by
  obtain ⟨record, hrecord⟩ := has_iff.mp hhas
  obtain ⟨record', hrecord', hnature, -⟩ := h.kept _ _ hrecord
  rw [Definitions.outer?_eq, Definitions.outer?_eq, hrecord, hrecord', Option.bind_some,
    Option.bind_some, hnature]
  cases howner : record.nature.owner with
  | none => rfl
  | some owner =>
      have hissued := hwell.owners id record owner hrecord howner
      have hsame : defs'.has (.type owner) = defs.has (.type owner) :=
        Bool.eq_iff_iff.mpr ⟨h.has_of_issued hissued, h.has⟩
      simp [Option.filter, hsame]

theorem has_of_outer? (h : defs.outer? id = some outer) : defs.has (.type outer) = true := by
  rw [Definitions.outer?_eq, Option.filter_eq_some_iff] at h
  exact h.2

theorem NestsAt.grows {depth : Nat} (hnests : defs.NestsAt depth id) (h : defs.Grows defs')
    (hwell : defs.WellFormed) (hhas : defs.has (.type id) = true) : defs'.NestsAt depth id := by
  induction hnests with
  | top houter => exact .top ((h.outer?_eq hwell hhas).trans houter)
  | inside houter _ ih =>
      exact .inside ((h.outer?_eq hwell hhas).trans houter) (ih (has_of_outer? houter))

/-- A type is nested in one way only. -/
theorem NestsAt.unique {depth depth' : Nat} (h : defs.NestsAt depth id)
    (h' : defs.NestsAt depth' id) : depth = depth' := by
  induction h generalizing depth' with
  | top houter =>
      cases h' with
      | top => rfl
      | inside houter' => simp [houter] at houter'
  | inside houter _ ih =>
      cases h' with
      | top houter' => simp [houter] at houter'
      | inside houter' hnests =>
          cases houter.symm.trans houter'
          rw [ih hnests]

theorem Grows.typeNameWithin_eq (h : defs.Grows defs') (hwell : defs.WellFormed)
    (hhas : defs.has (.type id) = true) (fuel : Nat) :
    defs'.typeNameWithin fuel id = defs.typeNameWithin fuel id := by
  induction fuel generalizing id with
  | zero => exact congrArg Nature.name (h.nature_eq (record?_type hhas) (record?_type (h.has hhas)))
  | succ fuel ih =>
      have hnature := h.nature_eq (record?_type hhas) (record?_type (h.has hhas))
      have hname : (defs'.type id).name = (defs.type id).name := congrArg Nature.name hnature
      have hspace : (defs'.type id).namespaceName = (defs.type id).namespaceName :=
        congrArg Nature.namespaceName hnature
      rw [typeNameWithin, typeNameWithin, h.outer?_eq hwell hhas, hname, hspace]
      cases houter : defs.outer? id with
      | none => rfl
      | some outer => simp [ih (has_of_outer? houter)]

/-- A type keeps its full name. -/
theorem Grows.typeName_eq (h : defs.Grows defs') (hwell : defs.WellFormed)
    (hwell' : defs'.WellFormed) (hhas : defs.has (.type id) = true) :
    defs'.typeName id = defs.typeName id := by
  obtain ⟨depth, hdepth, hnests⟩ := hwell.nested id hhas
  obtain ⟨depth', hdepth', hnests'⟩ := hwell'.nested id (h.has hhas)
  obtain rfl := (hnests.grows h hwell hhas).unique hnests'
  rw [typeName, typeName, hnests'.typeNameWithin_eq hdepth' hdepth, h.typeNameWithin_eq hwell hhas]

/-! ## Operations on well-formed graphs -/

theorem Changes.members_eq (h : defs.Changes defs' changed change)
    (hmembers : ∀ record, (change record).members = record.members) (holder : Definition)
    (kind : SymbolKind) : defs'.members holder kind = defs.members holder kind := by
  rw [Definitions.members_eq, Definitions.members_eq, h.record?]
  split
  · cases hrecord : defs.record? holder with
    | none => rfl
    | some record => simp [hmembers]
  · rfl

theorem Changes.has_eq (h : defs.Changes defs' changed change) (definition : Definition) :
    defs'.has definition = defs.has definition := by
  rw [has_eq_isSome, has_eq_isSome, h.record?]
  split <;> simp

theorem Makes.members_eq (h : defs.Makes defs' made record)
    (hempty : record.members = fun _ => []) (holder : Definition) (kind : SymbolKind) :
    defs'.members holder kind = defs.members holder kind := by
  rw [Definitions.members_eq, Definitions.members_eq, h.record?]
  split
  · rename_i heq
    simp [heq, hempty, record?_eq_none_of_fresh h.fresh]
  · rfl

/-- Only one list gets longer by an addition. -/
theorem Adds.members_other (h : defs.Adds defs' parent made record)
    (hempty : record.members = fun _ => []) {kind : SymbolKind}
    (hne : ¬ (holder = parent ∧ kind = made.kind)) :
    defs'.members holder kind = defs.members holder kind := by
  rw [Definitions.members_eq, Definitions.members_eq, h.record?]
  split
  · rename_i heq
    simp [heq, hempty, record?_eq_none_of_fresh h.fresh]
  · split
    · rename_i heq
      have hkind : kind ≠ made.kind := fun hkind => hne ⟨heq, hkind⟩
      cases hrecord : defs.record? holder with
      | none => rfl
      | some record => simp [Record.add, hkind]
    · rfl

/-- After an addition exists what did before, and what was added. -/
theorem Adds.has_iff (h : defs.Adds defs' parent made record) :
    defs'.has definition = true ↔ defs.has definition = true ∨ definition = made := by
  rw [has_eq_isSome, has_eq_isSome, h.record?]
  split
  · simp [*]
  · rename_i hne
    split <;> simp [hne]

/-- What a graph that grows has to add in order to stay well-formed. -/
theorem Grows.wellFormed (h : defs.Grows defs') (hwell : defs.WellFormed)
    (hnext : defs.types.next ≤ defs'.types.next)
    (hnodup : ∀ holder kind, (defs'.members holder kind).Nodup)
    (hlinked : ∀ holder kind definition, definition ∈ defs'.members holder kind →
      definition ∈ defs.members holder kind ∨
        ∃ record, defs'.record? definition = some record ∧ record.LiesIn holder)
    (hnested : ∀ id, defs'.has (.type id) = true → defs.has (.type id) = true ∨
      ∃ depth < defs'.types.next, defs'.NestsAt depth id)
    (howners : ∀ id record owner, defs'.record? (.type id) = some record →
      record.nature.owner = some owner → defs.has (.type id) = true ∨ defs'.Issued (.type owner))
    (hnamed : ∀ definition record, defs'.record? definition = some record →
      defs'.Knows record.named) : defs'.WellFormed where
  nodup := hnodup
  linked holder kind definition hmem := by
    obtain hmem | hnew := hlinked holder kind definition hmem
    · obtain ⟨record, hrecord, hlies⟩ := hwell.linked holder kind definition hmem
      obtain ⟨record', hrecord', hnature, -⟩ := h.kept _ _ hrecord
      exact ⟨record', hrecord', hlies.of_nature hnature⟩
    · exact hnew
  nested id hhas := by
    obtain hhas | hnew := hnested id hhas
    · obtain ⟨depth, hdepth, hnests⟩ := hwell.nested id hhas
      exact ⟨depth, by omega, hnests.grows h hwell hhas⟩
    · exact hnew
  owners id record owner hrecord howner := by
    obtain hhas | hissued := howners id record owner hrecord howner
    · obtain ⟨before, hbefore⟩ := has_iff.mp hhas
      rw [h.nature_eq hbefore hrecord] at howner
      exact h.issued _ (hwell.owners id before owner hbefore howner)
    · exact hissued
  named := hnamed

theorem Changes.wellFormed (h : defs.Changes defs' changed change)
    (hnature : ∀ record, (change record).nature = record.nature)
    (hmembers : ∀ record, (change record).members = record.members)
    (hnamed : ∀ record, defs.record? changed = some record → defs.Knows (change record).named)
    (hwell : defs.WellFormed) : defs'.WellFormed := by
  have hgrows := h.grows hnature hmembers
  have hlists := h.members_eq hmembers
  refine hgrows.wellFormed hwell (Nat.le_of_eq (h.next .type).symm) (fun holder kind => ?_)
    (fun holder kind definition hmem => .inl (hlists holder kind ▸ hmem))
    (fun id hhas => .inl (h.has_eq _ ▸ hhas))
    (fun id record owner hrecord _ => .inl (h.has_eq _ ▸ Definitions.has_iff.mpr ⟨record, hrecord⟩))
    (fun definition record hrecord => Knows.mono ?_ hgrows)
  · exact hlists holder kind ▸ hwell.nodup holder kind
  · rw [h.record?] at hrecord
    split at hrecord
    · rename_i heq
      subst heq
      obtain ⟨before, hbefore, rfl⟩ := Option.map_eq_some_iff.mp hrecord
      exact hnamed before hbefore
    · exact hwell.named definition record hrecord

theorem Makes.wellFormed (h : defs.Makes defs' made record) (hempty : record.members = fun _ => [])
    (hkind : made.kind ≠ .type) (hnamed : defs.Knows record.named) (hwell : defs.WellFormed) :
    defs'.WellFormed := by
  have hgrows := h.grows
  have hlists := h.members_eq hempty
  have hnext : defs'.types.next = defs.types.next := (h.next .type).trans (if_neg hkind.symm)
  have hhas (id : DefId .type) : defs'.has (.type id) = defs.has (.type id) := by
    have hne : Definition.type id ≠ made := fun heq => hkind (heq ▸ rfl)
    rw [has_eq_isSome, has_eq_isSome, h.record?, if_neg hne]
  refine hgrows.wellFormed hwell (Nat.le_of_eq hnext.symm) (fun holder kind => ?_)
    (fun holder kind definition hmem => .inl (hlists holder kind ▸ hmem))
    (fun id hid => .inl (hhas id ▸ hid))
    (fun id record owner hrecord _ => .inl (hhas id ▸ Definitions.has_iff.mpr ⟨record, hrecord⟩))
    (fun definition record hrecord => Knows.mono ?_ hgrows)
  · exact hlists holder kind ▸ hwell.nodup holder kind
  · rw [h.record?] at hrecord
    split at hrecord
    · cases hrecord
      exact hnamed
    · exact hwell.named definition record hrecord

/-- A type that is added is nested once more than the type it is added to. -/
theorem Adds.nestsAt (h : defs.Adds defs' parent (.type id) record)
    (hparent : defs.has parent = true) (hlies : record.LiesIn parent) (hwell : defs.WellFormed) :
    ∃ depth < defs'.types.next, defs'.NestsAt depth id := by
  have hnext : defs'.types.next = defs.types.next + 1 := (h.next .type).trans (if_pos rfl)
  have houter : defs'.outer? id =
      record.nature.owner.filter fun owner => defs'.has (.type owner) := by
    rw [Definitions.outer?_eq, h.record_made, Option.bind_some]
  cases parent with
  | module => exact ⟨0, by omega, .top (by rw [houter, hlies.1, Option.filter_none])⟩
  | type owner =>
      obtain ⟨depth, hdepth, hnests⟩ := hwell.nested owner hparent
      refine ⟨depth + 1, by omega, .inside ?_ (hnests.grows h.grows hwell hparent)⟩
      rw [houter, hlies, Option.filter_some, if_pos (h.grows.has hparent)]
  | field | method | property | event => exact hlies.elim

/-- What is added in the scope that it names itself is added well. -/
theorem Adds.wellFormed (h : defs.Adds defs' parent made record)
    (hempty : record.members = fun _ => []) (hparent : defs.has parent = true)
    (hlies : record.LiesIn parent) (hnamed : defs.Knows record.named) (hwell : defs.WellFormed) :
    defs'.WellFormed := by
  have hgrows := h.grows
  have hnext : defs.types.next ≤ defs'.types.next := by
    refine Nat.le_trans ?_ (Nat.le_of_eq (h.next .type).symm)
    split
    · exact Nat.le_succ _
    · exact Nat.le_refl _
  refine hgrows.wellFormed hwell hnext (fun holder kind => ?_) (fun holder kind definition hmem => ?_)
    (fun id hhas => ?_) (fun id record' owner hrecord howner => ?_)
    (fun definition record' hrecord => Knows.mono ?_ hgrows)
  · -- One list grows by what is new; the others stay.
    by_cases hplace : holder = parent ∧ kind = made.kind
    · obtain ⟨rfl, rfl⟩ := hplace
      rw [h.members_parent hparent]
      refine List.nodup_append.mpr ⟨hwell.nodup _ _, List.nodup_cons.mpr ⟨by simp, .nil⟩, ?_⟩
      intro definition hmem other hother
      rw [List.mem_singleton.mp hother]
      exact ne_of_has_of_fresh (hwell.held _ _ _ hmem) h.fresh
    · exact h.members_other hempty hplace ▸ hwell.nodup holder kind
  · obtain hmem | ⟨rfl, rfl, rfl, -⟩ := (h.mem_members hempty).mp hmem
    · exact .inl hmem
    · exact .inr ⟨record, h.record_made, hlies⟩
  · obtain hold | rfl := h.has_iff.mp hhas
    · exact .inl hold
    · exact .inr (h.nestsAt hparent hlies hwell)
  · obtain hold | rfl := h.has_iff.mp (Definitions.has_iff.mpr ⟨record', hrecord⟩)
    · exact .inl hold
    · cases h.record_made.symm.trans hrecord
      cases parent with
      | module => simp [hlies.1] at howner
      | type outer =>
          cases hlies.symm.trans howner
          exact .inr (hgrows.issued _ (issued_of_has hparent))
      | field | method | property | event => exact hlies.elim
  · rw [h.record?] at hrecord
    split at hrecord
    · cases hrecord
      exact hnamed
    · split at hrecord
      · obtain ⟨before, hbefore, rfl⟩ := Option.map_eq_some_iff.mp hrecord
        exact hwell.named definition before hbefore
      · exact hwell.named definition record' hrecord

theorem wellFormed_empty : ({} : Definitions).WellFormed where
  nodup holder kind := by cases holder <;> cases kind <;> exact List.nodup_nil
  linked holder kind definition hmem := by
    have hhas := held_empty holder kind definition hmem
    cases definition <;> cases hhas
  nested _ hhas := nomatch hhas
  owners _ _ _ hrecord := nomatch hrecord
  named definition _ hrecord := by cases definition <;> cases hrecord

/-- A new module is well-formed where the graph is. -/
theorem WellFormed.makeModule (h : defs.WellFormed) (name : String) :
    (defs.makeModule { name }).2.WellFormed :=
  (makeModule_makes defs { name }).wellFormed (members_new_module name) nofun nofun h

/-- A type that is added to a module is well-formed where the graph is. -/
theorem WellFormed.addType (h : defs.WellFormed) {module : DefId .module}
    (hmodule : defs.has (.module module) = true) (namespaceName name : String) (flags : UInt32) :
    (defs.addType module { namespaceName, name, flags }).2.WellFormed := by
  have hempty : (TypeDef.record { namespaceName, name, flags }).members = fun _ => [] :=
    TypeDef.members_eq_nil rfl rfl rfl rfl rfl
  obtain ⟨token, hadds⟩ := addType_adds { namespaceName, name, flags } hmodule hempty
  exact hadds.wellFormed hempty hmodule ⟨rfl, rfl⟩ nofun h

end Definitions

end Graft
