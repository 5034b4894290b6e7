import Graft.Proofs.Definition.Change

/-!
# Growth of definitions

What all operations on definitions have in common (`Grows`): a definition that exists goes on to
exist, its name, its signature, its token and its links stay, and its lists get longer at the end
only. Identities are handed out once, so what is made later never existed before.
-/

namespace Graft.Definitions

/-- Definitions stay what they are, their lists get longer at the end only, and what is new has a
new identity. -/
structure Grows (defs defs' : Definitions) : Prop where
  kept : ∀ definition record, defs.record? definition = some record →
    ∃ record', defs'.record? definition = some record' ∧ record'.nature = record.nature ∧
      ∀ kind, record.members kind <+: record'.members kind
  issued : ∀ definition, defs.Issued definition → defs'.Issued definition
  fresh : ∀ definition, defs'.has definition = true →
    defs.has definition = true ∨ ¬ defs.Issued definition

/-- Definitions keep their bodies. -/
def KeepsBodies (defs defs' : Definitions) : Prop :=
  ∀ definition record, defs.record? definition = some record →
    ∃ record', defs'.record? definition = some record' ∧ record'.body = record.body

/-- Definitions keep their details. -/
def KeepsDetails (defs defs' : Definitions) : Prop :=
  ∀ definition record, defs.record? definition = some record →
    ∃ record', defs'.record? definition = some record' ∧ record'.details = record.details

/-- Nothing changes about definitions that exist, and what is new has a new identity. -/
structure Extends (defs defs' : Definitions) : Prop where
  record? : ∀ definition, defs.has definition = true →
    defs'.record? definition = defs.record? definition
  tokens : ∀ id : DefId .module, defs.has (.module id) = true →
    (defs'.module id).tokens = (defs.module id).tokens
  issued : ∀ definition, defs.Issued definition → defs'.Issued definition
  fresh : ∀ definition, defs'.has definition = true →
    defs.has definition = true ∨ ¬ defs.Issued definition

/-- Whether everything that a definition lists exists. -/
def Held (defs : Definitions) : Prop :=
  ∀ holder kind definition, definition ∈ defs.members holder kind → defs.has definition = true

variable {defs defs' defs'' : Definitions} {made parent changed definition : Definition}
  {record : Record} {change : Record → Record}

theorem mem_members {kind : SymbolKind} (h : defs.record? parent = some record) :
    definition ∈ defs.members parent kind ↔ definition ∈ record.members kind := by
  simp [members_eq, h]

theorem exists_of_mem_members {kind : SymbolKind} (h : definition ∈ defs.members parent kind) :
    ∃ record, defs.record? parent = some record ∧ definition ∈ record.members kind := by
  rw [members_eq] at h
  cases hrecord : defs.record? parent with
  | none => simp [hrecord] at h
  | some record => exact ⟨record, rfl, by simpa [hrecord] using h⟩

/-- What lists something exists. -/
theorem has_of_mem_members {kind : SymbolKind} (h : definition ∈ defs.members parent kind) :
    defs.has parent = true := by
  obtain ⟨record, hrecord, -⟩ := exists_of_mem_members h
  exact has_iff.mpr ⟨record, hrecord⟩

/-- What stands in the list of a kind is of that kind. -/
theorem kind_of_mem_members {kind : SymbolKind} (h : definition ∈ defs.members parent kind) :
    definition.kind = kind := by
  unfold members at h
  split at h
  case h_7 => simp at h
  all_goals
    obtain ⟨id, -, rfl⟩ := List.mem_map.mp h
    rfl

theorem type_mem_module {module : DefId .module} {id : DefId .type} :
    .type id ∈ defs.members (.module module) .type ↔ id ∈ (defs.module module).types := by
  simp [members]

theorem type_mem_type {outer id : DefId .type} :
    .type id ∈ defs.members (.type outer) .type ↔ id ∈ (defs.type outer).nested := by
  simp [members]

/-! ## Growth -/

theorem Grows.refl (defs : Definitions) : defs.Grows defs where
  kept _ record h := ⟨record, h, rfl, fun _ => List.prefix_refl _⟩
  issued _ h := h
  fresh _ h := Or.inl h

theorem Grows.trans (h : defs.Grows defs') (h' : defs'.Grows defs'') : defs.Grows defs'' where
  kept definition record hrecord := by
    obtain ⟨record', hrecord', hnature, hmembers⟩ := h.kept definition record hrecord
    obtain ⟨record'', hrecord'', hnature', hmembers'⟩ := h'.kept definition record' hrecord'
    exact ⟨record'', hrecord'', hnature'.trans hnature,
      fun kind => (hmembers kind).trans (hmembers' kind)⟩
  issued definition hissued := h'.issued definition (h.issued definition hissued)
  fresh definition hhas := by
    rcases h'.fresh definition hhas with hhas | hfresh
    · exact h.fresh definition hhas
    · exact Or.inr fun hissued => hfresh (h.issued definition hissued)

theorem Grows.has (h : defs.Grows defs') (hhas : defs.has definition = true) :
    defs'.has definition = true := by
  obtain ⟨record, hrecord⟩ := has_iff.mp hhas
  obtain ⟨record', hrecord', -⟩ := h.kept definition record hrecord
  exact has_iff.mpr ⟨record', hrecord'⟩

/-- What is listed stays listed. -/
theorem Grows.mem_members (h : defs.Grows defs') {kind : SymbolKind}
    (hmem : definition ∈ defs.members parent kind) : definition ∈ defs'.members parent kind := by
  obtain ⟨record, hrecord, hmem⟩ := exists_of_mem_members hmem
  obtain ⟨record', hrecord', -, hmembers⟩ := h.kept parent record hrecord
  exact (Definitions.mem_members hrecord').mpr ((hmembers kind).subset hmem)

/-- What an identity that was handed out leads to existed from the start. -/
theorem Grows.has_of_issued (h : defs.Grows defs') (hissued : defs.Issued definition)
    (hhas : defs'.has definition = true) : defs.has definition = true :=
  (h.fresh definition hhas).resolve_right fun hnot => hnot hissued

theorem Grows.nature_eq (h : defs.Grows defs') {record record' : Record}
    (hrecord : defs.record? definition = some record)
    (hrecord' : defs'.record? definition = some record') : record'.nature = record.nature := by
  obtain ⟨_, hother, hnature, -⟩ := h.kept definition record hrecord
  rw [hrecord', Option.some.injEq] at hother
  rw [hother, hnature]

/-- What comes before a definition in a list does not change, nor does its nature. -/
theorem Grows.members_front (h : defs.Grows defs') (hheld : defs.Held) {kind : SymbolKind}
    {front rest : List Definition}
    (hlisted : defs.members parent kind = front ++ definition :: rest) :
    ∃ more, defs'.members parent kind = front ++ definition :: (rest ++ more) ∧
      ∀ other ∈ front, ∀ record', defs'.record? other = some record' →
        ∃ record, defs.record? other = some record ∧ record'.nature = record.nature := by
  have hmem : definition ∈ defs.members parent kind := by simp [hlisted]
  obtain ⟨holder, hholder, -⟩ := exists_of_mem_members hmem
  obtain ⟨holder', hholder', -, hmembers⟩ := h.kept _ _ hholder
  obtain ⟨more, hmore⟩ := hmembers kind
  refine ⟨more, ?_, fun other hother record' hrecord' => ?_⟩
  · rw [members_eq, hholder, Option.elim_some] at hlisted
    rw [members_eq, hholder', Option.elim_some, ← hmore, hlisted]
    simp
  · have hhas : defs.has other = true :=
      hheld parent kind other (by rw [hlisted]; exact List.mem_append_left _ hother)
    obtain ⟨record, hrecord⟩ := has_iff.mp hhas
    exact ⟨record, hrecord, h.nature_eq hrecord hrecord'⟩

/-- A module keeps its name. -/
theorem Grows.module_name (h : defs.Grows defs') {module : DefId .module}
    (hhas : defs.has (.module module) = true) :
    (defs'.module module).name = (defs.module module).name :=
  congrArg Nature.name (h.nature_eq (record?_module hhas) (record?_module (h.has hhas)))

theorem KeepsBodies.refl (defs : Definitions) : defs.KeepsBodies defs :=
  fun _ record h => ⟨record, h, rfl⟩

theorem KeepsBodies.trans (h : defs.KeepsBodies defs') (h' : defs'.KeepsBodies defs'') :
    defs.KeepsBodies defs'' := by
  intro definition record hrecord
  obtain ⟨record', hrecord', hbody⟩ := h definition record hrecord
  obtain ⟨record'', hrecord'', hbody'⟩ := h' definition record' hrecord'
  exact ⟨record'', hrecord'', hbody'.trans hbody⟩

/-! ## Operations as growth -/

/-- The definition that is made next does not exist yet. -/
theorem record?_eq_none_of_fresh (hfresh : made.index = defs.next made.kind) :
    defs.record? made = none := by
  rw [← not_has_iff, Bool.eq_false_iff]
  exact fun hhas => ne_of_has_of_fresh hhas hfresh rfl

theorem Changes.grows (h : defs.Changes defs' changed change)
    (hnature : ∀ record, (change record).nature = record.nature)
    (hmembers : ∀ record, (change record).members = record.members) : defs.Grows defs' where
  kept definition record hrecord := by
    rw [h.record?, hrecord]
    split
    · exact ⟨_, rfl, hnature record, fun kind => hmembers record ▸ List.prefix_refl _⟩
    · exact ⟨_, rfl, rfl, fun kind => List.prefix_refl _⟩
  issued definition hissued := by simpa only [Issued, h.next] using hissued
  fresh definition hhas := by
    left
    rw [has_eq_isSome, h.record?] at hhas
    rw [has_eq_isSome]
    split at hhas <;> simpa using hhas

theorem Makes.grows (h : defs.Makes defs' made record) : defs.Grows defs' where
  kept definition record hrecord := by
    have hne := ne_of_has_of_fresh (has_iff.mpr ⟨record, hrecord⟩) h.fresh
    rw [h.record?, if_neg hne]
    exact ⟨record, hrecord, rfl, fun kind => List.prefix_refl _⟩
  issued definition hissued := by
    unfold Issued at hissued ⊢
    rw [h.next]
    split <;> omega
  fresh definition hhas := by
    by_cases hmade : definition = made
    · right
      subst hmade
      simp [Issued, h.fresh]
    · left
      rwa [has_eq_isSome, h.record?, if_neg hmade, ← has_eq_isSome] at hhas

theorem Adds.grows (h : defs.Adds defs' parent made record) : defs.Grows defs' where
  kept definition record hrecord := by
    have hne := ne_of_has_of_fresh (has_iff.mpr ⟨record, hrecord⟩) h.fresh
    rw [h.record?, if_neg hne, hrecord]
    split
    · refine ⟨_, rfl, rfl, fun kind => ?_⟩
      simp only [Record.add]
      split
      · exact List.prefix_append _ _
      · exact List.prefix_refl _
    · exact ⟨_, rfl, rfl, fun kind => List.prefix_refl _⟩
  issued definition hissued := by
    unfold Issued at hissued ⊢
    rw [h.next]
    split <;> omega
  fresh definition hhas := by
    by_cases hmade : definition = made
    · right
      subst hmade
      simp [Issued, h.fresh]
    · left
      rw [has_eq_isSome, h.record?, if_neg hmade] at hhas
      rw [has_eq_isSome]
      split at hhas <;> simpa using hhas

theorem Extends.refl (defs : Definitions) : defs.Extends defs :=
  ⟨fun _ _ => rfl, fun _ _ => rfl, fun _ h => h, fun _ h => .inl h⟩

theorem Extends.trans (h : defs.Extends defs') (h' : defs'.Extends defs'') :
    defs.Extends defs'' where
  record? definition hhas := by
    have hrecord := h.record? definition hhas
    rw [h'.record? definition (by rwa [has_eq_isSome, hrecord, ← has_eq_isSome]), hrecord]
  tokens id hhas := by
    have hrecord := h.record? (.module id) hhas
    rw [h'.tokens id (by rwa [has_eq_isSome, hrecord, ← has_eq_isSome]), h.tokens id hhas]
  issued definition hissued := h'.issued definition (h.issued definition hissued)
  fresh definition hhas := by
    rcases h'.fresh definition hhas with hhas' | hnew
    · exact h.fresh definition hhas'
    · exact .inr fun hissued => hnew (h.issued definition hissued)

theorem Extends.grows (h : defs.Extends defs') : defs.Grows defs' where
  kept definition record hrecord := by
    rw [h.record? definition (has_iff.mpr ⟨record, hrecord⟩)]
    exact ⟨record, hrecord, rfl, fun kind => List.prefix_refl _⟩
  issued := h.issued
  fresh := h.fresh

theorem Changes.keepsBodies (h : defs.Changes defs' changed change)
    (hbody : ∀ record, (change record).body = record.body) : defs.KeepsBodies defs' := by
  intro definition record hrecord
  rw [h.record?, hrecord]
  split
  · exact ⟨_, rfl, hbody record⟩
  · exact ⟨_, rfl, rfl⟩

theorem Makes.keepsBodies (h : defs.Makes defs' made record) : defs.KeepsBodies defs' := by
  intro definition record hrecord
  have hne := ne_of_has_of_fresh (has_iff.mpr ⟨record, hrecord⟩) h.fresh
  rw [h.record?, if_neg hne]
  exact ⟨record, hrecord, rfl⟩

theorem Adds.keepsBodies (h : defs.Adds defs' parent made record) : defs.KeepsBodies defs' := by
  intro definition record hrecord
  have hne := ne_of_has_of_fresh (has_iff.mpr ⟨record, hrecord⟩) h.fresh
  rw [h.record?, if_neg hne, hrecord]
  split
  · exact ⟨_, rfl, rfl⟩
  · exact ⟨_, rfl, rfl⟩

theorem Extends.keepsBodies (h : defs.Extends defs') : defs.KeepsBodies defs' := by
  intro definition record hrecord
  rw [h.record? definition (has_iff.mpr ⟨record, hrecord⟩)]
  exact ⟨record, hrecord, rfl⟩

theorem KeepsDetails.refl (defs : Definitions) : defs.KeepsDetails defs :=
  fun _ record hrecord => ⟨record, hrecord, rfl⟩

theorem KeepsDetails.details_eq (h : defs.KeepsDetails defs') {record record' : Record}
    (hrecord : defs.record? definition = some record)
    (hrecord' : defs'.record? definition = some record') : record'.details = record.details := by
  obtain ⟨_, hsame, hdetails⟩ := h _ _ hrecord
  cases hrecord'.symm.trans hsame
  exact hdetails

theorem Changes.keepsDetails (h : defs.Changes defs' changed change)
    (hdetails : ∀ record, (change record).details = record.details) : defs.KeepsDetails defs' := by
  intro definition record hrecord
  rw [h.record?, hrecord]
  split
  · exact ⟨_, rfl, hdetails record⟩
  · exact ⟨_, rfl, rfl⟩

theorem Makes.keepsDetails (h : defs.Makes defs' made record) : defs.KeepsDetails defs' := by
  intro definition record hrecord
  have hne := ne_of_has_of_fresh (has_iff.mpr ⟨record, hrecord⟩) h.fresh
  rw [h.record?, if_neg hne]
  exact ⟨record, hrecord, rfl⟩

theorem Adds.keepsDetails (h : defs.Adds defs' parent made record) : defs.KeepsDetails defs' := by
  intro definition record hrecord
  have hne := ne_of_has_of_fresh (has_iff.mpr ⟨record, hrecord⟩) h.fresh
  rw [h.record?, if_neg hne, hrecord]
  split
  · exact ⟨_, rfl, rfl⟩
  · exact ⟨_, rfl, rfl⟩

theorem Extends.keepsDetails (h : defs.Extends defs') : defs.KeepsDetails defs' := by
  intro definition record hrecord
  rw [h.record? definition (has_iff.mpr ⟨record, hrecord⟩)]
  exact ⟨record, hrecord, rfl⟩

/-- A method that exists reads the same body. -/
theorem KeepsBodies.body_eq (h : defs.KeepsBodies defs') {id : DefId .method}
    (hhas : defs.has (.method id) = true) : (defs'.method id).body = (defs.method id).body := by
  obtain ⟨record, hrecord⟩ := has_iff.mp hhas
  obtain ⟨record', hrecord', hbody⟩ := h _ _ hrecord
  simp [Definitions.body_eq, hrecord, hrecord', hbody]

/-! ## Listed definitions exist -/

/-- Every definition that exists, and those that are gone. -/
def all (defs : Definitions) : List Definition :=
  (List.range (defs.next .module)).map (.module ⟨·⟩)
    ++ (List.range (defs.next .type)).map (.type ⟨·⟩)
    ++ (List.range (defs.next .field)).map (.field ⟨·⟩)
    ++ (List.range (defs.next .method)).map (.method ⟨·⟩)
    ++ (List.range (defs.next .property)).map (.property ⟨·⟩)
    ++ (List.range (defs.next .event)).map (.event ⟨·⟩)

theorem mem_all (h : defs.has definition = true) : definition ∈ defs.all := by
  have hissued := issued_of_has h
  cases definition <;> simp only [all, List.mem_append, List.mem_map, List.mem_range] <;> simp
  all_goals exact ⟨_, hissued, rfl⟩

/-- Whether all that is listed exists can be checked one definition after another. -/
theorem held_iff :
    defs.Held ↔ ∀ holder ∈ defs.all, ∀ kind ∈ SymbolKind.all,
      ∀ definition ∈ defs.members holder kind, defs.has definition = true := by
  refine ⟨fun h holder _ kind _ definition hmem => h holder kind definition hmem, ?_⟩
  intro h holder kind definition hmem
  obtain ⟨record, hrecord, -⟩ := exists_of_mem_members hmem
  exact h holder (mem_all (has_iff.mpr ⟨record, hrecord⟩)) kind
    kind.mem_all definition hmem

instance (defs : Definitions) : Decidable defs.Held :=
  decidable_of_iff _ held_iff.symm

theorem held_empty : ({} : Definitions).Held := by
  intro holder kind definition hmem
  have hnone : ({} : Definitions).record? holder = none := by cases holder <;> rfl
  simp [members_eq, hnone] at hmem

theorem Changes.held (h : defs.Changes defs' changed change)
    (hnature : ∀ record, (change record).nature = record.nature)
    (hmembers : ∀ record, (change record).members = record.members) (hheld : defs.Held) :
    defs'.Held := by
  intro holder kind definition hmem
  apply (h.grows hnature hmembers).has
  apply hheld holder kind
  rw [members_eq] at hmem ⊢
  rw [h.record?] at hmem
  split at hmem
  · cases hrecord : defs.record? holder with
    | none => simp [hrecord] at hmem
    | some record => simpa [hrecord, hmembers] using hmem
  · exact hmem

theorem Makes.held (h : defs.Makes defs' made record) (hempty : record.members = fun _ => [])
    (hheld : defs.Held) : defs'.Held := by
  intro holder kind definition hmem
  apply h.grows.has
  apply hheld holder kind
  rw [members_eq] at hmem ⊢
  rw [h.record?] at hmem
  split at hmem
  · simp [hempty] at hmem
  · exact hmem

/-- A new module is made beside what there is. -/
theorem makeModule_extends (defs : Definitions) (module : ModuleDef) :
    defs.Extends (defs.makeModule module).2 := by
  have hmakes := makeModule_makes defs module
  have hne {definition : Definition} (hhas : defs.has definition = true) :
      definition ≠ .module (defs.makeModule module).1 := ne_of_has_of_fresh hhas hmakes.fresh
  refine ⟨fun definition hhas => ?_, fun id hhas => ?_, hmakes.grows.issued, hmakes.grows.fresh⟩
  · rw [hmakes.record?, if_neg (hne hhas)]
  · have hindex : id.index ≠ defs.modules.next := fun heq => hne hhas (by simp [makeModule, ← heq])
    simp [Definitions.module, makeModule, Table.get?_push, hindex]

/-- After an addition a definition is listed if it was before, or if it is the one added. -/
theorem Adds.mem_members (h : defs.Adds defs' parent made record)
    (hempty : record.members = fun _ => []) {holder : Definition} {kind : SymbolKind} :
    definition ∈ defs'.members holder kind ↔
      definition ∈ defs.members holder kind ∨
        (holder = parent ∧ kind = made.kind ∧ definition = made ∧ defs.has parent = true) := by
  rw [members_eq, members_eq, h.record?]
  by_cases hmade : holder = made
  · subst hmade
    have hnone := record?_eq_none_of_fresh h.fresh
    have hne : holder = parent → defs.has parent = false := by
      rintro rfl
      exact not_has_iff.mpr hnone
    simp only [if_pos, hempty, hnone, Option.elim_some, Option.elim_none]
    simp_all
  · rw [if_neg hmade]
    by_cases hparent : holder = parent
    · subst hparent
      cases hrecord : defs.record? holder with
      | none => simp [not_has_iff.mpr hrecord]
      | some record =>
          have hhas : defs.has holder = true := has_iff.mpr ⟨record, hrecord⟩
          by_cases hkind : kind = made.kind <;> simp [Record.add, hkind, hhas]
    · simp [hparent]

/-- What is added comes last in the list of its kind. -/
theorem Adds.members_parent (h : defs.Adds defs' parent made record)
    (hparent : defs.has parent = true) :
    defs'.members parent made.kind = defs.members parent made.kind ++ [made] := by
  obtain ⟨holder, hholder⟩ := has_iff.mp hparent
  have hne := ne_of_has_of_fresh hparent h.fresh
  simp [members_eq, h.record?, hne, hholder, Record.add]

theorem Adds.held (h : defs.Adds defs' parent made record)
    (hempty : record.members = fun _ => []) (hheld : defs.Held) : defs'.Held := by
  intro holder kind definition hmem
  rcases (h.mem_members hempty).mp hmem with hmem | ⟨-, -, rfl, -⟩
  · exact h.grows.has (hheld holder kind definition hmem)
  · exact has_iff.mpr ⟨record, by simp [h.record?]⟩

end Graft.Definitions
