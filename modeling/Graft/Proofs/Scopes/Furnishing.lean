import Graft.Proofs.Members.Tending
import Graft.Proofs.Scopes.Underway

/-!
# Furnishing types

What resolving a type does to its details (`Furnishes`): flags are merged, interfaces that are not
there yet are appended, and a type that was made gets its base type and its generic parameters. As no
two declarations stand for the same type, nothing else is done to it (`Furnished`), and once all
details have been confirmed it is settled what they are (`Furnishes.complete`).
-/

namespace Graft

/-- The flags of a type merged with those that are declared for it, if any are. -/
def Declarations.typeFlags (decls : Declarations) (id : DeclId .type) (nested : Bool)
    (flags : UInt32) : UInt32 :=
  match (decls.statement (.type id)).flags with
  | some declared => FlagScheme.type.merge nested (decls.terms (.type id)).policy flags declared
  | none => flags

/-- Flags are merged once and for all. -/
theorem Declarations.typeFlags_typeFlags (decls : Declarations) (id : DeclId .type) (nested : Bool)
    (flags : UInt32) :
    decls.typeFlags id nested (decls.typeFlags id nested flags) = decls.typeFlags id nested flags := by
  unfold typeFlags
  cases (decls.statement (.type id)).flags with
  | none => rfl
  | some declared => exact FlagScheme.merge_merge (@Moment.masked_of_kind .type _ rfl) ..

theorem Statement.base_targets {statement : Statement} {type : TypeRef}
    (h : statement.base = some type) : type.targets ⊆ statement.targets :=
  fun _ hmem => by simp [targets, h, hmem]

theorem Statement.interface_targets {statement : Statement} {type : TypeRef}
    (h : type ∈ statement.interfaces) : type.targets ⊆ statement.targets := fun _ hmem => by
  simp only [targets, List.mem_append, List.mem_flatMap]
  exact .inl (.inl (.inr ⟨type, h, hmem⟩))

theorem Statement.param_targets {statement : Statement} {params : List GenericParam}
    {param : GenericParam} (h : statement.generics = some params) (hparam : param ∈ params) :
    param.targets ⊆ statement.targets := fun _ hmem => by
  simp only [targets, h, List.mem_append, Option.elim_some, List.mem_flatMap]
  exact .inl (.inr ⟨param, hparam, hmem⟩)

/-- Whether two references to types agree as an existing one has to agree with a declared one. -/
abbrev TypeRef.agrees (names : TypeNames) (left right : TypeRef) : Bool :=
  left.same names .declared right

/-- Whoever tells items apart in the same way appends the same ones. -/
theorem appendNew_congr {α : Type} {same same' : α → α → Bool} {base items : List α}
    (h : ∀ left ∈ base ++ items, ∀ right ∈ items, same' left right = same left right) :
    appendNew same' base items = appendNew same base items := by
  simpa using appendNew_map (f := id) h

namespace Moment

variable {now next : Moment} {id : DeclId .type} {type : DefId .type} {nested : Bool}
  {before after : Details} {record : Record}

/-- Whether the details of a type were changed by no more than what its declaration states about
them. -/
structure Furnishes (now : Moment) (id : DeclId .type) (type : DefId .type) (nested : Bool)
    (before after : Details) : Prop where
  flags : after.flags = before.flags ∨ after.flags = now.decls.typeFlags id nested before.flags
  base : after.base = before.base ∨ (.type id, .type type) ∈ now.made ∧ ∃ declared,
    (now.decls.statement (.type id)).base = some declared ∧
      now.answer.SettlesAll declared.targets ∧ after.base = some (declared.relink now.fill)
  generics : after.generics = before.generics ∨ (.type id, .type type) ∈ now.made ∧ ∃ declared,
    (now.decls.statement (.type id)).generics = some declared ∧
      now.answer.SettlesAll (declared.flatMap GenericParam.targets) ∧
      after.generics = declared.map (GenericParam.relink now.fill)
  interfaces : ∃ front rest, (now.decls.statement (.type id)).interfaces = front ++ rest ∧
    (∀ declared ∈ front, now.answer.SettlesAll declared.targets) ∧
    after.interfaces = appendNew (TypeRef.agrees now.world.typeNames) before.interfaces
      (front.map (TypeRef.relink now.fill))
  overrides : after.overrides = before.overrides
  accessors : after.accessors = before.accessors

theorem Furnishes.refl (now : Moment) (id : DeclId .type) (type : DefId .type) (nested : Bool)
    (details : Details) : now.Furnishes id type nested details details :=
  ⟨.inl rfl, .inl rfl, .inl rfl, ⟨[], _, rfl, by simp, rfl⟩, rfl, rfl⟩

/-- What is known later was known before. -/
theorem Furnishes.mono (h : now.Furnishes id type nested before after) (hlater : now.Later next)
    (hsound : now.Sound) (hwell : now.defs.WellFormed) (hwell' : next.defs.WellFormed)
    (hanswers : now.answer.Extends next.answer) (hmade : now.made ⊆ next.made)
    (hbefore : now.defs.Knows (before.interfaces.flatMap TypeRef.targets))
    (hstated : now.defs.Knows (now.decls.statement (.type id)).targets) :
    next.Furnishes id type nested before after := by
  have hdecls : next.decls = now.decls := hlater.decls
  refine ⟨hdecls ▸ h.flags, ?_, ?_, ?_, h.overrides, h.accessors⟩
  · refine h.base.imp_right fun ⟨hmem, declared, hdeclared, hsettles, hbase⟩ =>
      ⟨hmade hmem, declared, hdecls ▸ hdeclared, hsettles.mono hanswers, hbase.trans ?_⟩
    exact congrArg some (TypeRef.fill_mono hanswers hsettles).symm
  · refine h.generics.imp_right fun ⟨hmem, declared, hdeclared, hsettles, hgenerics⟩ =>
      ⟨hmade hmem, declared, hdecls ▸ hdeclared, hsettles.mono hanswers, hgenerics.trans ?_⟩
    refine List.map_congr_left fun param hparam => (GenericParam.fill_mono hanswers ?_).symm
    exact Answers.settlesAll_flatMap.mp hsettles param hparam
  · obtain ⟨front, rest, hdeclared, hsettles, hinterfaces⟩ := h.interfaces
    refine ⟨front, rest, hdecls ▸ hdeclared,
      fun declared hmem => (hsettles declared hmem).mono hanswers, hinterfaces.trans ?_⟩
    have hfilled : front.map (TypeRef.relink next.fill) = front.map (TypeRef.relink now.fill) :=
      List.map_congr_left fun declared hmem => TypeRef.fill_mono hanswers (hsettles declared hmem)
    rw [hfilled]
    -- What is compared was known before, and goes on to have the same names.
    have hagrees {ref : TypeRef}
        (hmem : ref ∈ before.interfaces ++ front.map (TypeRef.relink now.fill)) :
        now.world.typeNames.Agree next.world.typeNames .declared ref.targets := by
      refine hlater.agree hwell hwell' ?_
      obtain hmem | hmem := List.mem_append.mp hmem
      · exact fun found hfound => hbefore found (List.mem_flatMap.mpr ⟨ref, hmem, hfound⟩)
      · obtain ⟨declared, hdeclared', rfl⟩ := List.mem_map.mp hmem
        rw [TypeRef.targets_relink]
        refine hsound.knows_fill (hsettles declared hdeclared') fun found hfound => hstated found ?_
        exact Statement.interface_targets (by simp [hdeclared, hdeclared']) hfound
    exact appendNew_congr fun left hleft right hright =>
      TypeRef.same_congr (hagrees hleft) (hagrees (List.mem_append_right _ hright))

/-- An interface is there if a definition agrees on it with its declaration. -/
theorem holds_interface {declaration : Declaration} {definition : Definition} {declared : TypeRef}
    (hrecord : now.defs.record? definition = some record) :
    now.Holds declaration definition (.interface declared) ↔
      now.answer.SettlesAll declared.targets ∧ record.details.interfaces.any
        (TypeRef.agrees now.world.typeNames · (declared.relink now.fill)) = true := by
  simp only [Holds, hrecord, Option.some.injEq, exists_eq_left', List.any_eq_true]

/-- No two references are told apart that are written in the same way. -/
theorem agrees_self {declared : TypeRef} (hsettles : now.answer.SettlesAll declared.targets) :
    TypeRef.agrees now.world.typeNames (declared.relink now.fill) (declared.relink now.fill) =
      true := by
  refine TypeRef.same_self ?_
  rw [TypeRef.targets_relink]
  exact unknown_notMem_image_fill hsettles

/-- What a declaration states is put in by one change after another. -/
theorem Furnishes.amend {amendment : Amendment}
    (h : now.Furnishes id type record.nature.owner.isSome before record.details)
    (hrecord : now.defs.record? (.type type) = some record)
    (hstated : amendment.Stated now (.type id) (.type type))
    (hconfirmed : ∀ detail, (.type id, detail) ∈ now.confirmed →
      detail ∈ now.decls.details (.type id) → now.Holds (.type id) (.type type) detail) :
    now.Furnishes id type record.nature.owner.isSome before (amendment.apply record.details) := by
  cases amendment with
  | flags value =>
      obtain ⟨scheme, declared, _, hscheme, hdeclared, hrecord', rfl⟩ := hstated
      cases hrecord.symm.trans hrecord'
      cases hscheme
      refine { h with flags := .inr ?_ }
      have hmerged : now.decls.typeFlags id record.nature.owner.isSome record.details.flags =
          FlagScheme.type.merge record.nature.owner.isSome (now.decls.terms (.type id)).policy
            record.details.flags declared := by
        rw [Declarations.typeFlags, hdeclared]
      simp only [Amendment.apply, Declaration.kind, decide_true, Bool.true_and, ← hmerged]
      obtain hflags | hflags := h.flags
      · rw [hflags]
      · rw [hflags, Declarations.typeFlags_typeFlags]
  | base declaredType =>
      obtain ⟨declared, hdeclared, hsettles, rfl, hmade⟩ := hstated
      exact { h with base := .inr ⟨hmade, declared, hdeclared, hsettles, rfl⟩ }
  | generics params =>
      obtain ⟨declared, hdeclared, hsettles, rfl, hmade⟩ := hstated
      exact { h with generics := .inr ⟨hmade, declared, hdeclared, hsettles, rfl⟩ }
  | interface added =>
      obtain ⟨front, declared, rest, hdeclared, hsettled, rfl, hfront, hnot⟩ := hstated
      obtain ⟨front', rest', hdeclared', hsettled', hinterfaces⟩ := h.interfaces
      rw [holds_interface hrecord] at hnot
      -- Interfaces are put in from the front, so all before this one are there.
      have hthere (other : TypeRef) (hmem : other ∈ front) :=
        (holds_interface hrecord).mp (hconfirmed _ (hfront other hmem)
          (Declarations.mem_details.mpr (by simp [hdeclared, hmem])))
      refine { h with interfaces := ⟨front ++ [declared], rest, by simp [hdeclared], ?_, ?_⟩ }
      · intro other hmem
        obtain hmem | hmem := List.mem_append.mp hmem
        · exact (hthere other hmem).1
        · exact List.mem_singleton.mp hmem ▸ hsettled
      · exact appendNew_next (fun other hmem => agrees_self (hsettled' other hmem))
          (hdeclared'.symm.trans hdeclared) hinterfaces (fun other hmem => (hthere other hmem).2)
          fun hany => hnot ⟨hsettled, hany⟩
  | override added =>
      obtain ⟨front, declared, rest, hdeclared, -⟩ := hstated
      simp [Declarations.statement] at hdeclared
  | accessor role method =>
      obtain ⟨front, declared, rest, hdeclared, -⟩ := hstated
      simp [Declarations.statement] at hdeclared

/-- The details of a type with all that its declaration states put in. -/
def furnished (now : Moment) (id : DeclId .type) (made nested : Bool) (before : Details) : Details :=
  { before with
    flags := now.decls.typeFlags id nested before.flags
    base :=
      if made then (now.decls.statement (.type id)).base.map (TypeRef.relink now.fill)
      else before.base
    interfaces := appendNew (TypeRef.agrees now.world.typeNames) before.interfaces
      ((now.decls.statement (.type id)).interfaces.map (TypeRef.relink now.fill))
    generics :=
      if made then
        ((now.decls.statement (.type id)).generics.getD []).map (GenericParam.relink now.fill)
      else before.generics }

section Complete

variable {made : Bool}
  (h : now.Furnishes id type record.nature.owner.isSome before record.details)
  (hrecord : now.defs.record? (.type type) = some record)
  (hmade : (.type id, .type type) ∈ now.made ↔ made = true)
  (hbare : made = true → before.base = none ∧ before.generics = [])
  (hholds : ∀ detail ∈ now.decls.details (.type id), now.Holds (.type id) (.type type) detail)

include h hrecord hholds

theorem Furnishes.flags_eq : record.details.flags =
    now.decls.typeFlags id record.nature.owner.isSome before.flags := by
  obtain hflags | hflags := h.flags
  · obtain ⟨_, hother, hmerged⟩ := hholds .flags (Declarations.mem_details.mpr nofun)
    cases hrecord.symm.trans hother
    rw [← hflags, Declarations.typeFlags]
    cases hdeclared : (now.decls.statement (.type id)).flags with
    | none => rfl
    | some declared => exact (hmerged .type declared rfl hdeclared).symm
  · exact hflags

theorem Furnishes.interfaces_eq : record.details.interfaces =
    appendNew (TypeRef.agrees now.world.typeNames) before.interfaces
      ((now.decls.statement (.type id)).interfaces.map (TypeRef.relink now.fill)) := by
  obtain ⟨front, rest, hdeclared, -, hinterfaces⟩ := h.interfaces
  rw [hdeclared, List.map_append, appendNew_append, ← hinterfaces]
  refine (appendNew_of_any fun ref hmem => ?_).symm
  obtain ⟨declared, hrest, rfl⟩ := List.mem_map.mp hmem
  have hmem : declared ∈ (now.decls.statement (.type id)).interfaces := by simp [hdeclared, hrest]
  exact ((holds_interface hrecord).mp (hholds _ (Declarations.mem_details.mpr hmem))).2

include hmade hbare

theorem Furnishes.base_eq : record.details.base =
    if made then (now.decls.statement (.type id)).base.map (TypeRef.relink now.fill)
    else before.base := by
  obtain ⟨_, hother, hexists⟩ := hholds .base (Declarations.mem_details.mpr rfl)
  cases hrecord.symm.trans hother
  obtain hbase | ⟨hmem, declared, hdeclared, -, hbase⟩ := h.base
  · split
    · cases hdeclared : (now.decls.statement (.type id)).base with
      | none => simp [hbase, hbare ‹_›]
      | some declared =>
          obtain ⟨-, existing, hexisting, -⟩ := hexists declared hdeclared
          simp [hbase, hbare ‹_›] at hexisting
    · exact hbase
  · rw [if_pos (hmade.mp hmem), hbase, hdeclared, Option.map_some]

theorem Furnishes.generics_eq : record.details.generics =
    if made then
      ((now.decls.statement (.type id)).generics.getD []).map (GenericParam.relink now.fill)
    else before.generics := by
  obtain ⟨_, hother, hlength⟩ := hholds .generics (Declarations.mem_details.mpr rfl)
  cases hrecord.symm.trans hother
  obtain hgenerics | ⟨hmem, declared, hdeclared, -, hgenerics⟩ := h.generics
  · split
    · cases hdeclared : (now.decls.statement (.type id)).generics with
      | none => simp [hgenerics, hbare ‹_›]
      | some declared =>
          -- There are as many parameters as are declared, and there are none.
          have hempty := hlength declared hdeclared
          rw [hgenerics, (hbare ‹_›).2, List.length_nil] at hempty
          rw [hgenerics, (hbare ‹_›).2, Option.getD_some, List.eq_nil_of_length_eq_zero hempty.symm,
            List.map_nil]
    · exact hgenerics
  · rw [if_pos (hmade.mp hmem), hgenerics, hdeclared, Option.getD_some]

/-- Once a type agrees with its declaration on every detail, it is settled what its details are. -/
theorem Furnishes.complete :
    record.details = now.furnished id made record.nature.owner.isSome before := by
  rw [furnished, ← h.flags_eq hrecord hholds, ← h.base_eq hrecord hmade hbare hholds,
    ← h.generics_eq hrecord hmade hbare hholds, ← h.interfaces_eq hrecord hholds, ← h.overrides,
    ← h.accessors]

end Complete

end Moment

end Graft
