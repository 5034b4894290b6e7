import Graft.Proofs.Transplant.Stacking

/-!
# Lists grow without duplicates

Whatever a session is asked for, the lists of definitions get one entry at a time, and each of them is
new to its list when it is put there (`accretes_after`): a definition by its key, an interface and an
override by what they refer to, an accessor as it is. For one step this is what the step looked at
before it was taken (`Moment.Step.accretes`).
-/

namespace Graft

/-- The names of all types that exist, among some definitions and declarations. -/
def Definitions.typeNames (defs : Definitions) (decls : Declarations) : TypeNames :=
  World.typeNames { defs, decls }

/-- Whether two definitions of a kind have the same key in the list of a holder: the same name, in a
module the same namespace too, and for methods signatures of the same overload. -/
structure Record.SameKey (names : TypeNames) (holder kind : SymbolKind) (existing record : Record) :
    Prop where
  name : existing.nature.name = record.nature.name
  namespaceName : holder = .module → existing.nature.namespaceName = record.nature.namespaceName
  overload : kind = .method → existing.nature.shape.Overloads names record.nature.shape

/-- Whether two definitions are of the same nature and have the same lists. -/
structure Record.SameLists (record record' : Record) : Prop where
  nature : record'.nature = record.nature
  members : record'.members = record.members
  interfaces : record'.details.interfaces = record.details.interfaces
  overrides : record'.details.overrides = record.details.overrides
  accessors : record'.details.accessors = record.details.accessors

/-- Whether a definition has empty lists. -/
structure Record.Unlisted (record : Record) : Prop where
  members : record.members = fun _ => []
  interfaces : record.details.interfaces = []
  overrides : record.details.overrides = []
  accessors : record.details.accessors = []

/-- What becomes of definitions when their lists get one entry at a time, each of which is new to its
list when it is put there. -/
inductive Definitions.Accretes (decls : Declarations) (start : Definitions) : Definitions → Prop where
  | start : Accretes decls start start
  /-- A definition is changed, and not in its lists. -/
  | change {now next : Definitions} {definition : Definition} {change : Record → Record}
      (h : Accretes decls start now) (hchanges : now.Changes next definition change)
      (hsame : ∀ record, now.record? definition = some record → record.SameLists (change record)) :
      Accretes decls start next
  /-- A source hands out a module with all that is in it. -/
  | load {now next : Definitions} (h : Accretes decls start now) (hextends : now.Extends next) :
      Accretes decls start next
  /-- An empty module is made. -/
  | makeModule {now next : Definitions} {module : DefId .module} {record : Record}
      (h : Accretes decls start now) (hmakes : now.Makes next (.module module) record)
      (hempty : record.Unlisted) : Accretes decls start next
  /-- A definition is made, and none before it in the list has its key. -/
  | list {now next : Definitions} {holder made : Definition} {record : Record}
      (h : Accretes decls start now) (hadds : now.Adds next holder made record)
      (hempty : record.Unlisted)
      (hnew : ∀ other ∈ now.members holder made.kind, ∀ existing,
        now.record? other = some existing →
          ¬ Record.SameKey (now.typeNames decls) holder.kind made.kind existing record) :
      Accretes decls start next
  /-- A hidden method is made, and no method of the type has its name. -/
  | hide {now next : Definitions} {owner : DefId .type} {hidden : DefId .method} {record : Record}
      (h : Accretes decls start now) (hadds : now.Adds next (.type owner) (.method hidden) record)
      (hempty : record.Unlisted)
      (hnew : ∀ other ∈ now.members (.type owner) .method, ∀ existing,
        now.record? other = some existing → existing.nature.name ≠ record.nature.name) :
      Accretes decls start next
  /-- An interface is added that none is equal to, as declarations give them. -/
  | interface {now next : Definitions} {definition : Definition} {record : Record} {type : TypeRef}
      (h : Accretes decls start now) (hrecord : now.record? definition = some record)
      (hchanges : now.Changes next definition (Record.alter fun details =>
        { details with interfaces := details.interfaces ++ [type] }))
      (hnew : ∀ existing ∈ record.details.interfaces,
        existing.same (now.typeNames decls) .declared type = false) :
      Accretes decls start next
  /-- An override is added that none is strictly equal to. -/
  | override {now next : Definitions} {definition : Definition} {record : Record}
      {override : Override} (h : Accretes decls start now)
      (hrecord : now.record? definition = some record)
      (hchanges : now.Changes next definition (Record.alter fun details =>
        { details with overrides := details.overrides ++ [override] }))
      (hnew : ∀ existing ∈ record.details.overrides,
        (existing.body.same (now.typeNames decls) .strict override.body
          && existing.declaration.same (now.typeNames decls) .strict override.declaration) = false) :
      Accretes decls start next
  /-- An accessor is linked that was not linked before. -/
  | accessor {now next : Definitions} {definition : Definition} {record : Record}
      {role : AccessorRole} {method : DefId .method} (h : Accretes decls start now)
      (hrecord : now.record? definition = some record)
      (hchanges : now.Changes next definition (Record.alter fun details =>
        { details with accessors := details.accessors ++ [(role, method)] }))
      (hnew : (role, method) ∉ record.details.accessors) :
      Accretes decls start next

/-- Whether a method has a name that none before it in the list of its type has. -/
def Definitions.Unnamed (defs : Definitions) (method : DefId .method) : Prop :=
  ∃ record owner front rest, defs.record? (.method method) = some record ∧
    defs.members (.type owner) .method = front ++ .method method :: rest ∧
    ∀ other ∈ front, ∀ sibling, defs.record? other = some sibling →
      sibling.nature.name ≠ record.nature.name

/-- A name that is new stays new to those that came before. -/
theorem Definitions.Unnamed.mono {defs defs' : Definitions} {method : DefId .method}
    (h : defs.Unnamed method) (hheld : defs.Held) (hgrows : defs.Grows defs') :
    defs'.Unnamed method := by
  obtain ⟨record, owner, front, rest, hrecord, hlisted, hnames⟩ := h
  obtain ⟨record', hrecord', hnature, -⟩ := hgrows.kept _ _ hrecord
  obtain ⟨more, hlisted', hfront⟩ := hgrows.members_front hheld hlisted
  refine ⟨record', owner, front, rest ++ more, hrecord', hlisted',
    fun other hother sibling hsibling => ?_⟩
  obtain ⟨before, hbefore, hsame⟩ := hfront other hother sibling hsibling
  rw [hsame, hnature]
  exact hnames other hother before hbefore

namespace Moment

variable {asked : Declaration → Prop} {mode : Mode} {now next : Moment} {start : Definitions}

/-- What is missing is in no list under its key. -/
theorem Missing.not_sameKey {declaration parent : Declaration} {holder other : Definition}
    {record existing : Record} (hmissing : now.Missing declaration) (hsound : now.Sound)
    (hparent : now.decls.parent? declaration = some parent) (hholder : now.answer parent = some holder)
    (hrenders : now.Renders declaration holder record)
    (hmem : other ∈ now.defs.members holder declaration.kind)
    (hexisting : now.defs.record? other = some existing) :
    ¬ Record.SameKey (now.defs.typeNames now.decls) holder.kind declaration.kind existing record := by
  intro hsame
  cases hmissing with
  | module =>
      -- A module is in no list.
      cases hparent
  | @member _ parent' holder' hparent' hholder' hnone =>
      cases hparent.symm.trans hparent'
      cases hholder.symm.trans hholder'
      refine hnone other hmem ⟨existing, hexisting, ?_, ?_, ?_⟩
      · exact hsame.name.trans hrenders.name
      · intro scope hscope hkind
        cases hparent.symm.trans hscope
        have hmodule : holder.kind = .module := (hsound.kinds _ _ hholder).trans hkind
        exact (hsame.namespaceName hmodule).trans hrenders.namespaceName
      · intro hmethod
        refine ⟨existing, hexisting, hrenders.settled, ?_⟩
        rw [← hrenders.shape]
        exact hsame.overload hmethod

/-- What is added to the details of a definition was not there. -/
theorem accretes_amend {declaration : Declaration} {definition : Definition} {amendment : Amendment}
    {defs : Definitions} (h : start.Accretes now.decls now.defs)
    (hhas : now.defs.has definition = true)
    (hstated : amendment.Stated now declaration definition)
    (hchanges : now.defs.Changes defs definition (Record.alter (amendment.apply ·))) :
    start.Accretes now.decls defs := by
  obtain ⟨record, hrecord⟩ := Definitions.has_iff.mp hhas
  cases amendment with
  | flags | base | generics => exact .change h hchanges fun _ _ => ⟨rfl, rfl, rfl, rfl, rfl⟩
  | interface type =>
      obtain ⟨front, declared, rest, -, hsettled, rfl, -, hlacks⟩ := hstated
      refine .interface h hrecord hchanges fun existing hmem => ?_
      refine Bool.eq_false_iff.mpr fun hsame => hlacks ?_
      exact ⟨record, hrecord, hsettled, existing, hmem, hsame⟩
  | override added =>
      obtain ⟨front, declared, rest, -, hsettled, rfl, -, hlacks⟩ := hstated
      refine .override h hrecord hchanges fun existing hmem => ?_
      refine Bool.eq_false_iff.mpr fun hsame => hlacks ?_
      rw [Bool.and_eq_true] at hsame
      exact ⟨record, hrecord, hsettled, existing, hmem, hsame⟩
  | accessor role method =>
      by_cases hplays : (role, method) ∈ record.details.accessors
      · -- Linking it once more changes nothing.
        refine .change h hchanges fun found hfound => ?_
        cases hrecord.symm.trans hfound
        exact ⟨rfl, rfl, rfl, rfl, if_pos (List.contains_iff_mem.mpr hplays)⟩
      · refine .accessor h hrecord ⟨fun other => ?_, hchanges.next, hchanges.ledger⟩ hplays
        rw [hchanges.record?]
        by_cases heq : other = definition
        · subst heq
          rw [if_pos rfl, if_pos rfl, hrecord]
          have hlink : Accessors.link record.details.accessors role method =
              record.details.accessors ++ [(role, method)] :=
            if_neg fun hcontains => hplays (List.contains_iff_mem.mp hcontains)
          simp [Record.alter, Amendment.apply, hlink]
        · rw [if_neg heq, if_neg heq]

/-- A step puts at most one entry into a list, and one that is new to it. -/
theorem Step.accretes (hstep : Step asked mode now next) (hsound : now.Sound)
    (h : start.Accretes now.decls now.defs) : start.Accretes next.decls next.defs := by
  have hdecls := (hstep.later hsound).decls
  rw [hdecls]
  cases hstep with
  | quiet hquiet =>
      rw [withState_defs, hquiet.defs]
      exact h
  | load hstack hasked hname hnone hload =>
      exact .load h (Task.load_ok hsound.source hsound.held hload).1
  | enter | locate | confirm | remember | abandon => exact h
  | makeModule =>
      exact .makeModule h (Definitions.makeModule_makes _ _)
        ⟨Definitions.members_new_module _, rfl, rfl, rfl⟩
  | create hstack hasked hwritable hpolicy hmissing hparent hholder hkind hrenders hadds =>
      have hempty : Record.Unlisted _ := ⟨hrenders.members, by rw [hrenders.details],
        by rw [hrenders.details], by rw [hrenders.details]⟩
      refine .list h hadds hempty fun other hmem existing hexisting => ?_
      rw [hkind] at hmem ⊢
      exact hmissing.not_sameKey hsound hparent hholder hrenders hmem hexisting
  | amend hstack hasked hwritable hstated hchanges =>
      have hhas := hsound.has_answer (hsound.answer_top hstack)
      exact accretes_amend h hhas hstated hchanges
  | hide hhides hasked hwritable hmemo hrecord howner hunused hnature hdetails hbody hmembers hadds =>
      have hempty : Record.Unlisted _ := ⟨hmembers, by rw [hdetails], by rw [hdetails],
        by rw [hdetails]⟩
      exact .hide h hadds hempty hunused
  | graft hgrafts hasked hwritable hmemo hchanges =>
      exact .change h hchanges fun _ _ => ⟨rfl, rfl, rfl, rfl, rfl⟩

/-- All the lists of a run grow in this way. -/
theorem Run.accretes (hrun : Run asked mode now next) (hsound : now.Sound) :
    now.defs.Accretes next.decls next.defs :=
  hrun.keeps (P := fun later => now.defs.Accretes later.decls later.defs) hsound
    (fun hstep hsound h => hstep.accretes hsound h) .start

/-- The hidden method of a transplant has a name of its own. -/
theorem Sound.unnamed {state last : SessionState} (hsound : Sound { state }) {id : DeclId .method}
    {suffix : String} {hidden : DefId .method}
    (hon : (SessionTask.transplant id suffix).on state = (.ok (some hidden), last)) :
    last.world.defs.Unnamed hidden := by
  have hreaches := World.reaches_all state.world []
  have htransplant := @transplant_on _ { state } id suffix hsound rfl hreaches.closed trivial
    fun graft hgraft hwritable => hreaches.bodies id graft trivial hwritable hgraft
  rw [hon] at htransplant
  rcases htransplant with ⟨-, hnone, -⟩ | ⟨graft, context, body, done, hhidden, -, hgrafted⟩
  · cases hnone
  · have hworking := hgrafted.working
    obtain ⟨-, hhides⟩ := hworking.hidden hidden hhidden
    obtain ⟨_, made, owner, front, rest, -, -, hmade, -, -, -, hlisted, hnames⟩ := hhides
    have hdone : done.defs.Unnamed hidden := ⟨made, owner, front, rest, hmade, hlisted, hnames⟩
    exact hdone.mono hworking.sound.held (hgrafted.replaces.later hworking.sound).grows

end Moment

end Graft
