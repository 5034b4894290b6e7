import Graft.Proofs.Members.Resolving
import Graft.Proofs.Session.Holding
import Graft.Proofs.Session.Reconciling

/-!
# Amending members one after another

What resolving a member does to the details of its definition (`Amended`): flags are merged once,
and of what is declared everything is appended that is not there yet. As no two members stand for
the same definition, nothing else is done to it (`Tended`), and once all details have been confirmed
it is settled what they are (`Amended.complete`).
-/

namespace Graft

/-! ## Appending what is new -/

section AppendNew

variable {α β : Type} {same : α → α → Bool}

/-- A list with more items, each of them unless one like it is there already. -/
def appendNew (same : α → α → Bool) (base items : List α) : List α :=
  items.foldl (fun base item => if base.any (same · item) then base else base ++ [item]) base

theorem appendNew_append (base front rest : List α) :
    appendNew same base (front ++ rest) = appendNew same (appendNew same base front) rest :=
  List.foldl_append

theorem appendNew_singleton (base : List α) (item : α) :
    appendNew same base [item] = if base.any (same · item) then base else base ++ [item] := rfl

theorem appendNew_cons (base : List α) (item : α) (items : List α) :
    appendNew same base (item :: items) = appendNew same (appendNew same base [item]) items := rfl

/-- What is there already is not appended. -/
theorem appendNew_of_any {base items : List α} (h : ∀ item ∈ items, base.any (same · item) = true) :
    appendNew same base items = base := by
  induction items with
  | nil => rfl
  | cons item items ih =>
      obtain ⟨hitem, hitems⟩ := List.forall_mem_cons.mp h
      rw [appendNew_cons, appendNew_singleton, if_pos hitem]
      exact ih hitems

theorem subset_appendNew (base items : List α) : base ⊆ appendNew same base items := by
  induction items generalizing base with
  | nil => exact List.Subset.refl _
  | cons item items ih =>
      rw [appendNew_cons]
      refine List.Subset.trans ?_ (ih _)
      rw [appendNew_singleton]
      split
      · exact List.Subset.refl _
      · exact List.subset_append_left _ _

/-- What was to be appended is there. -/
theorem any_appendNew {base items : List α} {item : α} (hmem : item ∈ items)
    (hself : same item item = true) : (appendNew same base items).any (same · item) = true := by
  obtain ⟨front, rest, rfl⟩ := List.append_of_mem hmem
  rw [show front ++ item :: rest = front ++ [item] ++ rest by simp, appendNew_append,
    appendNew_append, appendNew_singleton]
  have hany : (if (appendNew same base front).any (same · item) then appendNew same base front
      else appendNew same base front ++ [item]).any (same · item) = true := by
    split
    · assumption
    · simp [hself]
  obtain ⟨other, hother, hsame⟩ := List.any_eq_true.mp hany
  exact List.any_eq_true.mpr ⟨other, subset_appendNew _ _ hother, hsame⟩

/-- Only items of the one list or the other are there. -/
theorem mem_of_mem_appendNew {base items : List α} {item : α}
    (hmem : item ∈ appendNew same base items) : item ∈ base ∨ item ∈ items := by
  induction items generalizing base with
  | nil => exact .inl hmem
  | cons other items ih =>
      rw [appendNew_cons] at hmem
      obtain hmem | hmem := ih hmem
      · rw [appendNew_singleton] at hmem
        split at hmem
        · exact .inl hmem
        · obtain hmem | hmem := List.mem_append.mp hmem
          · exact .inl hmem
          · exact .inr (List.mem_singleton.mp hmem ▸ List.mem_cons_self)
      · exact .inr (List.mem_cons_of_mem _ hmem)

/-- Whoever tells items apart in the same way appends the same ones. -/
theorem appendNew_map {same' : β → β → Bool} {f : α → β} {base items : List α}
    (h : ∀ left ∈ base ++ items, ∀ right ∈ items, same' (f left) (f right) = same left right) :
    appendNew same' (base.map f) (items.map f) = (appendNew same base items).map f := by
  induction items generalizing base with
  | nil => rfl
  | cons item items ih =>
      have hany : (base.map f).any (same' · (f item)) = base.any (same · item) := by
        rw [List.any_map, Bool.eq_iff_iff, List.any_eq_true, List.any_eq_true]
        refine exists_congr fun left => and_congr_right fun hmem => ?_
        rw [Function.comp_apply, h left (List.mem_append_left _ hmem) item List.mem_cons_self]
      have hstep : appendNew same' (base.map f) [f item] = (appendNew same base [item]).map f := by
        rw [appendNew_singleton, appendNew_singleton, hany]
        split <;> simp
      rw [List.map_cons, appendNew_cons, appendNew_cons, hstep]
      refine ih fun left hleft right hright => h left ?_ right (List.mem_cons_of_mem _ hright)
      obtain hleft | hleft := List.mem_append.mp hleft
      · obtain hleft | hleft := mem_of_mem_appendNew hleft
        · exact List.mem_append_left _ hleft
        · exact List.mem_append_right _ (List.mem_singleton.mp hleft ▸ List.mem_cons_self)
      · exact List.mem_append_right _ (List.mem_cons_of_mem _ hleft)

/-- If all that comes before an item is there and the item is not, then with the item appended all
that comes before the next one is there. -/
theorem appendNew_next {f : α → β} {same : β → β → Bool} {base current : List β}
    {front rest front' rest' : List α} {item : α}
    (hself : ∀ other ∈ front, same (f other) (f other) = true)
    (hsplit : front ++ rest = front' ++ item :: rest')
    (hcurrent : current = appendNew same base (front.map f))
    (hthere : ∀ other ∈ front', current.any (same · (f other)) = true)
    (hnot : ¬ current.any (same · (f item)) = true) :
    current ++ [f item] = appendNew same base ((front' ++ [item]).map f) := by
  obtain ⟨between, rfl, -⟩ | ⟨between, rfl, hbetween⟩ := List.append_eq_append_iff.mp hsplit
  · have hsame : appendNew same current (between.map f) = current := by
      refine appendNew_of_any fun other hmem => ?_
      obtain ⟨other, hother, rfl⟩ := List.mem_map.mp hmem
      exact hthere other (List.mem_append_right _ hother)
    rw [List.append_assoc, List.map_append, appendNew_append, ← hcurrent, List.map_append,
      appendNew_append, hsame, List.map_singleton, appendNew_singleton, if_neg hnot]
  · cases between with
    | nil =>
        rw [List.append_nil] at hcurrent
        rw [List.map_append, appendNew_append, ← hcurrent, List.map_singleton, appendNew_singleton,
          if_neg hnot]
    | cons other between =>
        obtain ⟨rfl, -⟩ := List.cons_eq_cons.mp hbetween
        refine absurd ?_ hnot
        rw [hcurrent]
        exact any_appendNew (by simp) (hself _ (by simp))

end AppendNew

/-! ## What is declared -/

/-- Whether two overrides are the same. -/
def Override.same (names : TypeNames) (left right : Override) : Bool :=
  left.body.same names .strict right.body && left.declaration.same names .strict right.declaration

/-- A declared accessor with the method put in. -/
def Answers.accessor (answers : Answers) (entry : AccessorRole × DeclId .method) :
    AccessorRole × DefId .method :=
  match answers (.method entry.2) with
  | some (.method found) => (entry.1, found)
  | _ => (entry.1, default)

theorem Answers.accessor_eq {answers : Answers} {role : AccessorRole} {declared : DeclId .method}
    {method : DefId .method} (h : answers (.method declared) = some (.method method)) :
    answers.accessor (role, declared) = (role, method) := by
  simp [accessor, h]

/-- What is linked is appended unless it is there. -/
theorem Accessors.link_eq (accessors : Accessors) (role : AccessorRole) (method : DefId .method) :
    accessors.link role method = appendNew (· == ·) accessors [(role, method)] := by
  rw [link, plays, List.contains_eq_any_beq, appendNew_singleton]
  simp only [BEq.comm]

namespace Declarations

/-- Flags merged with those that a member declares, if it declares any. -/
def mergedFlags (decls : Declarations) (declaration : Declaration) (flags : UInt32) : UInt32 :=
  match declaration.kind.scheme?, (decls.statement declaration).flags with
  | some scheme, some declared =>
    scheme.merge false (decls.terms declaration).policy flags declared
  | _, _ => flags

variable {decls : Declarations} {declaration : Declaration}

theorem mergedFlags_eq {scheme : FlagScheme} {declared flags : UInt32}
    (hscheme : declaration.kind.scheme? = some scheme)
    (hdeclared : (decls.statement declaration).flags = some declared) :
    decls.mergedFlags declaration flags =
      scheme.merge false (decls.terms declaration).policy flags declared := by
  simp [mergedFlags, hscheme, hdeclared]

/-- Flags are merged once and for all. -/
theorem mergedFlags_mergedFlags (flags : UInt32) :
    decls.mergedFlags declaration (decls.mergedFlags declaration flags) =
      decls.mergedFlags declaration flags := by
  cases hscheme : declaration.kind.scheme? with
  | none => simp [mergedFlags, hscheme]
  | some scheme =>
      cases hdeclared : (decls.statement declaration).flags with
      | none => simp [mergedFlags, hdeclared]
      | some declared =>
          simp only [mergedFlags_eq hscheme hdeclared]
          exact FlagScheme.merge_merge (Moment.masked_of_kind hscheme) _ _ _ _

/-- A member states no base type, interfaces or generic parameters. -/
theorem statement_of_member (hmember : declaration.kind.isScope = false) :
    (decls.statement declaration).base = none ∧ (decls.statement declaration).interfaces = [] ∧
      (decls.statement declaration).generics = none := by
  cases declaration <;> first | exact ⟨rfl, rfl, rfl⟩ | cases hmember

end Declarations

namespace Moment

variable {now next : Moment} {declaration : Declaration} {definition : Definition}
  {before after : Details} {record : Record}

/-- Details with all that a member states about them put in. -/
def amended (now : Moment) (declaration : Declaration) (details : Details) : Details :=
  { details with
    flags := now.decls.mergedFlags declaration details.flags
    overrides := appendNew (Override.same now.world.typeNames) details.overrides
      ((now.decls.statement declaration).overrides.map (·.relink now.fill))
    accessors := appendNew (· == ·) details.accessors
      ((now.decls.statement declaration).accessors.map now.answer.accessor) }

/-- Whether details were changed by no more than what a member states about them. -/
structure Amended (now : Moment) (declaration : Declaration) (before after : Details) : Prop where
  base : after.base = before.base
  interfaces : after.interfaces = before.interfaces
  generics : after.generics = before.generics
  flags : after.flags = before.flags ∨
    after.flags = now.decls.mergedFlags declaration before.flags
  overrides : ∃ front rest, (now.decls.statement declaration).overrides = front ++ rest ∧
    (∀ override ∈ front, now.answer.SettlesAll override.targets) ∧
    after.overrides = appendNew (Override.same now.world.typeNames) before.overrides
      (front.map (·.relink now.fill))
  accessors : ∃ front rest, (now.decls.statement declaration).accessors = front ++ rest ∧
    (∀ entry ∈ front, ∃ method, now.answer (.method entry.2) = some (.method method)) ∧
    after.accessors = appendNew (· == ·) before.accessors (front.map now.answer.accessor)

theorem Amended.refl (now : Moment) (declaration : Declaration) (details : Details) :
    now.Amended declaration details details :=
  ⟨rfl, rfl, rfl, .inl rfl, ⟨[], _, rfl, by simp, rfl⟩, ⟨[], _, rfl, by simp, rfl⟩⟩

/-- What is known later was known before. -/
theorem Amended.mono (h : now.Amended declaration before after) (hdecls : next.decls = now.decls)
    (hnames : next.world.typeNames = now.world.typeNames)
    (hanswers : now.answer.Extends next.answer) : next.Amended declaration before after := by
  obtain ⟨front, rest, hstated, hsettled, hoverrides⟩ := h.overrides
  obtain ⟨front', rest', hstated', hsettled', haccessors⟩ := h.accessors
  refine ⟨h.base, h.interfaces, h.generics, hdecls ▸ h.flags, ⟨front, rest, hdecls ▸ hstated,
    fun override hmem => (hsettled override hmem).mono hanswers, ?_⟩,
    ⟨front', rest', hdecls ▸ hstated', fun entry hmem => ?_, ?_⟩⟩
  · rw [hoverrides, hnames]
    refine congrArg _ (List.map_congr_left fun override hmem => ?_)
    exact (Override.fill_mono hanswers (hsettled override hmem)).symm
  · obtain ⟨method, hanswer⟩ := hsettled' entry hmem
    exact ⟨method, hanswers _ _ hanswer⟩
  · rw [haccessors]
    refine congrArg _ (List.map_congr_left fun entry hmem => ?_)
    obtain ⟨method, hanswer⟩ := hsettled' entry hmem
    obtain ⟨role, declared⟩ := entry
    rw [Answers.accessor_eq hanswer, Answers.accessor_eq (hanswers _ _ hanswer)]

/-- An override is there if a definition agrees on it with its declaration. -/
theorem holds_override {override : Override} (hrecord : now.defs.record? definition = some record) :
    now.Holds declaration definition (.override override) ↔
      now.answer.SettlesAll override.targets ∧ record.details.overrides.any
        (Override.same now.world.typeNames · (override.relink now.fill)) = true := by
  simp only [Holds, hrecord, Option.some.injEq, exists_eq_left', List.any_eq_true, Override.same,
    Bool.and_eq_true, Override.relink]

/-- An accessor is there if a definition agrees on it with its declaration. -/
theorem holds_accessor {role : AccessorRole} {declared : DeclId .method}
    (hrecord : now.defs.record? definition = some record) :
    now.Holds declaration definition (.accessor role declared) ↔
      ∃ method, now.answer (.method declared) = some (.method method) ∧
        record.details.accessors.any (· == now.answer.accessor (role, declared)) = true := by
  simp only [Holds, hrecord, Option.some.injEq, exists_eq_left']
  refine exists_congr fun method => and_congr_right fun hanswer => ?_
  rw [Answers.accessor_eq hanswer, List.any_beq', List.contains_iff_mem]

/-- The flags of a member are merged if its definition agrees on them. -/
theorem Holds.mergedFlags (h : now.Holds declaration definition .flags)
    (hrecord : now.defs.record? definition = some record)
    (hmember : declaration.kind.isScope = false) :
    now.decls.mergedFlags declaration record.details.flags = record.details.flags := by
  obtain ⟨_, hrecord', hflags⟩ := h
  cases hrecord.symm.trans hrecord'
  have hkind : declaration.kind ≠ .type := by
    intro hkind
    simp [hkind, SymbolKind.isScope] at hmember
  unfold Declarations.mergedFlags
  split
  · simpa [hkind] using hflags _ _ ‹_› ‹_›
  · rfl

/-- No two overrides are told apart that are written in the same way. -/
theorem override_same_self {override : Override} (hsettled : now.answer.SettlesAll override.targets) :
    Override.same now.world.typeNames (override.relink now.fill) (override.relink now.fill) = true := by
  rw [Override.targets, Answers.settlesAll_append] at hsettled
  have hself (ref : MethodRef) (hsettled : now.answer.SettlesAll ref.targets) :
      (ref.relink now.fill).same now.world.typeNames .strict (ref.relink now.fill) = true := by
    refine MethodRef.same_self ?_
    rw [MethodRef.targets_relink]
    exact unknown_notMem_image_fill hsettled
  rw [Override.same, Bool.and_eq_true]
  exact ⟨hself _ hsettled.1, hself _ hsettled.2⟩

/-- What a member states is put in by one change after another. -/
theorem Amended.amend {amendment : Amendment}
    (h : now.Amended declaration before record.details)
    (hrecord : now.defs.record? definition = some record)
    (hmember : declaration.kind.isScope = false)
    (hstated : amendment.Stated now declaration definition)
    (hconfirmed : ∀ detail, (declaration, detail) ∈ now.confirmed →
      now.Holds declaration definition detail) :
    now.Amended declaration before (amendment.apply record.details) := by
  obtain ⟨hbase, hinterfaces, hgenerics⟩ := now.decls.statement_of_member hmember
  cases amendment with
  | flags value =>
      obtain ⟨scheme, declared, _, hscheme, hdeclared, hrecord', rfl⟩ := hstated
      cases hrecord.symm.trans hrecord'
      have hkind : declaration.kind ≠ .type := by
        intro hkind
        simp [hkind, SymbolKind.isScope] at hmember
      refine { h with flags := .inr ?_ }
      have hmerged : now.decls.mergedFlags declaration record.details.flags = _ :=
        Declarations.mergedFlags_eq hscheme hdeclared
      simp only [Amendment.apply, hkind, decide_false, Bool.false_and, ← hmerged]
      obtain hflags | hflags := h.flags
      · rw [hflags]
      · rw [hflags, Declarations.mergedFlags_mergedFlags]
  | base type =>
      obtain ⟨declared, hdeclared, -⟩ := hstated
      simp [hbase] at hdeclared
  | interface type =>
      obtain ⟨front, declared, rest, hdeclared, -⟩ := hstated
      simp [hinterfaces] at hdeclared
  | generics params =>
      obtain ⟨declared, hdeclared, -⟩ := hstated
      simp [hgenerics] at hdeclared
  | override added =>
      obtain ⟨front, declared, rest, hdeclared, hsettled, rfl, hfront, hnot⟩ := hstated
      obtain ⟨front', rest', hdeclared', hsettled', hoverrides⟩ := h.overrides
      rw [holds_override hrecord] at hnot
      -- Overrides are put in from the front, so all before this one are there.
      have hthere (other : Override) (hmem : other ∈ front) :=
        (holds_override hrecord).mp (hconfirmed _ (hfront other hmem))
      refine { h with overrides := ⟨front ++ [declared], rest, by simp [hdeclared], ?_, ?_⟩ }
      · intro override hmem
        obtain hmem | hmem := List.mem_append.mp hmem
        · exact (hthere override hmem).1
        · exact List.mem_singleton.mp hmem ▸ hsettled
      · exact appendNew_next (fun other hmem => override_same_self (hsettled' other hmem))
          (hdeclared'.symm.trans hdeclared) hoverrides (fun other hmem => (hthere other hmem).2)
          fun hany => hnot ⟨hsettled, hany⟩
  | accessor role method =>
      obtain ⟨front, declared, rest, hdeclared, hanswer, hfront⟩ := hstated
      obtain ⟨front', rest', hdeclared', hsettled', haccessors⟩ := h.accessors
      have hthere (other : AccessorRole × DeclId .method) (hmem : other ∈ front) :=
        (holds_accessor hrecord).mp (hconfirmed _ (hfront other hmem))
      -- Linking a method that plays the part already changes nothing, so it makes no progress in
      -- the list.
      by_cases hplays : (record.details.accessors.any (· == (role, method))) = true
      · refine { h with accessors := ⟨front', rest', hdeclared', hsettled', ?_⟩ }
        rw [← haccessors]
        simp only [Amendment.apply, Accessors.link_eq, appendNew_singleton, if_pos hplays]
      · refine { h with
          accessors := ⟨front ++ [(role, declared)], rest, by simp [hdeclared], ?_, ?_⟩ }
        · intro entry hmem
          obtain hmem | hmem := List.mem_append.mp hmem
          · obtain ⟨method, hanswer, -⟩ := hthere entry hmem
            exact ⟨method, hanswer⟩
          · exact List.mem_singleton.mp hmem ▸ ⟨method, hanswer⟩
        · simp only [Amendment.apply, Accessors.link_eq, appendNew_singleton, if_neg hplays]
          rw [← Answers.accessor_eq hanswer] at hplays ⊢
          refine appendNew_next (fun _ _ => beq_self_eq_true _) (hdeclared'.symm.trans hdeclared)
            haccessors (fun other hmem => ?_) hplays
          obtain ⟨_, _, hany⟩ := hthere other hmem
          exact hany

/-- Once a definition agrees on every detail with its member, it is settled what its details are. -/
theorem Amended.complete (h : now.Amended declaration before record.details)
    (hrecord : now.defs.record? definition = some record)
    (hmember : declaration.kind.isScope = false)
    (hholds : ∀ detail ∈ now.decls.details declaration, now.Holds declaration definition detail) :
    record.details = now.amended declaration before := by
  obtain ⟨front, rest, hdeclared, -, hoverrides⟩ := h.overrides
  obtain ⟨front', rest', hdeclared', -, haccessors⟩ := h.accessors
  have hflags : record.details.flags = now.decls.mergedFlags declaration before.flags := by
    have hmodule : declaration.kind ≠ .module := by
      intro hkind
      simp [hkind, SymbolKind.isScope] at hmember
    have hmerged := (hholds .flags (Declarations.mem_details.mpr hmodule)).mergedFlags hrecord hmember
    obtain hflags | hflags := h.flags
    · rw [← hmerged, hflags]
    · exact hflags
  have hfull : record.details.overrides = appendNew (Override.same now.world.typeNames)
      before.overrides ((now.decls.statement declaration).overrides.map (·.relink now.fill)) := by
    rw [hdeclared, List.map_append, appendNew_append, ← hoverrides]
    refine (appendNew_of_any fun override hmem => ?_).symm
    obtain ⟨override, hoverride, rfl⟩ := List.mem_map.mp hmem
    have hmem : override ∈ (now.decls.statement declaration).overrides := by simp [hdeclared, hoverride]
    exact ((holds_override hrecord).mp (hholds _ (Declarations.mem_details.mpr hmem))).2
  have hfull' : record.details.accessors = appendNew (· == ·) before.accessors
      ((now.decls.statement declaration).accessors.map now.answer.accessor) := by
    rw [hdeclared', List.map_append, appendNew_append, ← haccessors]
    refine (appendNew_of_any fun entry hmem => ?_).symm
    obtain ⟨⟨role, declared⟩, hentry, rfl⟩ := List.mem_map.mp hmem
    have hmem : (role, declared) ∈ (now.decls.statement declaration).accessors := by
      simp [hdeclared', hentry]
    obtain ⟨_, _, hany⟩ :=
      (holds_accessor hrecord).mp (hholds _ (Declarations.mem_details.mpr hmem))
    exact hany
  rw [amended, ← hflags, ← hfull, ← hfull', ← h.base, ← h.interfaces, ← h.generics]

end Moment

end Graft
