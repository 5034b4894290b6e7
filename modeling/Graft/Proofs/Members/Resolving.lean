import Graft.Proofs.Members.Rooted
import Mathlib.Data.List.Find

/-!
# Resolving members one after another

While members are resolved in a rooted session, each of them comes to stand for what it finds or for
what is made for it where it finds nothing (`Resolving`), whatever has been resolved before it. What
was made for one member is of no use to another one, and so it makes no difference that it is there.
-/

namespace Graft.Moment

open SessionState

variable {state : SessionState} {asked : Declaration → Prop} {now next : Moment}
  {declaration other parent : Declaration} {definition holder : Definition} {rest : InFlight}

/-- Whether a definition was made for a member, where it found none and as it says. -/
structure Supplied (state : SessionState) (asked : Declaration → Prop) (now : Moment)
    (declaration : Declaration) (definition : Definition) : Prop where
  asked : asked declaration
  member : declaration.kind.isScope = false
  missing : state.finds? declaration = none
  writable : state.world.decls.Writable declaration
  policy : (state.world.decls.terms declaration).policy ≠ .failIfMissing
  new : ¬ state.world.defs.Issued definition
  rendered : ∃ holder record, state.holder? declaration = some holder ∧
    now.defs.record? definition = some record ∧
    record.nature = state.nature declaration holder record.nature.token

/-- Whether only members are being resolved, and all of them but the innermost one have been
located. -/
structure Nested (state : SessionState) (asked : Declaration → Prop) (stack : InFlight) : Prop where
  member : ∀ entry ∈ stack, asked entry.1 ∧ entry.1.kind.isScope = false ∧
    state.session.resolved.get? entry.1 = none
  located : ∀ entry rest, stack = entry :: rest → ∀ other ∈ rest, other.2.isSome = true

/-- Whether a session has done nothing but resolve members since it was in a given state. -/
structure Resolving (state : SessionState) (asked : Declaration → Prop) (now : Moment) : Prop where
  sound : now.Sound
  later : Later { state } now
  slots : now.world.slots = state.world.slots
  modules : now.session.modules = state.session.modules
  types : now.defs.types.next = state.world.defs.types.next
  scopes : ∀ declaration, declaration.kind.isScope = true →
    now.answer declaration = state.session.resolved.get? declaration
  nested : Nested state asked now.stack
  answered : ∀ declaration definition, now.answer declaration = some definition →
    (declaration, definition) ∈ now.made ∨ state.finds? declaration = some definition ∧
      (state.session.resolved.get? declaration = none →
        asked declaration ∧ (state.world.decls.terms declaration).policy ≠ .failIfPresent)
  supplied : ∀ declaration definition, (declaration, definition) ∈ now.made →
    Supplied state asked now declaration definition
  single : ∀ left right definition, (left, definition) ∈ now.made →
    (right, definition) ∈ now.made → left = right
  lists : ∀ holder kind, ∃ added,
    now.defs.members holder kind = state.world.defs.members holder kind ++ added ∧ added.Nodup ∧
      ∀ definition, definition ∈ added ↔ ∃ declaration, (declaration, definition) ∈ now.made ∧
        declaration.kind = kind ∧ state.holder? declaration = some holder
  there : ∀ definition, now.defs.has definition = true →
    state.world.defs.has definition = true ∨ ∃ declaration, (declaration, definition) ∈ now.made

/-- Nothing has been done yet. -/
theorem resolving_start (h : state.Rooted asked) : Resolving state asked { state } where
  sound := h.sound
  later := .refl _
  slots := rfl
  modules := rfl
  types := rfl
  scopes _ _ := by simp [answer]
  nested := ⟨by simp, nofun⟩
  answered declaration definition hanswer := by
    have hmemo : state.session.resolved.get? declaration = some definition := by
      simpa [answer] using hanswer
    refine .inr ⟨by simp [finds?, hmemo], fun hnone => ?_⟩
    simp [hmemo] at hnone
  supplied := by simp
  single := by simp
  lists _ _ := ⟨[], by simp, List.nodup_nil, by simp⟩
  there _ hhas := .inl hhas

theorem Supplied.later (h : Supplied state asked now declaration definition)
    (hgrows : now.defs.Grows next.defs) : Supplied state asked next declaration definition := by
  obtain ⟨holder, record, hholder, hrecord, hnature⟩ := h.rendered
  obtain ⟨record', hrecord', hsame, -⟩ := hgrows.kept _ _ hrecord
  exact { h with rendered := ⟨holder, record', hholder, hrecord', by rw [hsame]; exact hnature⟩ }

section Nested

theorem Nested.tail {entry : Declaration × Option Definition} (h : Nested state asked (entry :: rest)) :
    Nested state asked rest where
  member other hmem := h.member other (List.mem_cons_of_mem _ hmem)
  located _ _ hrest other hmem :=
    h.located entry rest rfl other (hrest ▸ List.mem_cons_of_mem _ hmem)

theorem Nested.locate {found : Option Definition} (h : Nested state asked ((declaration, found) :: rest))
    (found' : Option Definition) : Nested state asked ((declaration, found') :: rest) where
  member := by
    have hmember := List.forall_mem_cons.mp h.member
    exact List.forall_mem_cons.mpr hmember
  located _ _ hrest other hmem := by
    cases hrest
    exact h.located _ _ rfl other hmem

theorem Nested.enter {stack : InFlight} (h : Nested state asked stack) (hasked : asked declaration)
    (hmember : declaration.kind.isScope = false)
    (hmemo : state.session.resolved.get? declaration = none) (hlets : Lets stack declaration) :
    Nested state asked ((declaration, none) :: stack) where
  member := List.forall_mem_cons.mpr ⟨⟨hasked, hmember, hmemo⟩, h.member⟩
  located _ _ hrest other hmem := by
    cases hrest
    cases stack with
    | nil => cases hmem
    | cons entry rest =>
        obtain ⟨top, found⟩ := entry
        cases found with
        | none => simp [hlets top rest rfl] at hmember
        | some found =>
            obtain rfl | hmem := List.mem_cons.mp hmem
            · rfl
            · exact h.located _ _ rfl other hmem

/-- What is being resolved is a member. -/
theorem Nested.top {found : Option Definition} (h : Nested state asked ((declaration, found) :: rest)) :
    asked declaration ∧ declaration.kind.isScope = false ∧
      state.session.resolved.get? declaration = none :=
  h.member _ List.mem_cons_self

end Nested

namespace Resolving

variable (h : Resolving state asked now)

include h

theorem decls : now.decls = state.world.decls := h.later.decls

theorem grows : state.world.defs.Grows now.defs := h.later.grows

/-- No type gets another name. -/
theorem names : now.world.typeNames = state.world.typeNames := by
  have hhas (id : DefId .type) :
      now.world.defs.types.has id.index = state.world.defs.types.has id.index :=
    h.grows.has_type_eq h.types id
  have hdecls : now.world.decls = state.world.decls := h.decls
  have hnames : (fun id => if now.world.defs.types.has id.index
        then some (now.world.defs.typeName id) else none) =
      fun id : DefId .type => if state.world.defs.types.has id.index
        then some (state.world.defs.typeName id) else none := by
    funext id
    rw [hhas]
    split
    · exact congrArg some (h.grows.typeName_of_next h.types ‹_›)
    · rfl
  simp only [World.typeNames, hdecls, hnames]

/-- What is put in for types stays the same. -/
theorem answer_type (id : DeclId .type) :
    now.answer (.type id) = state.session.resolved.get? (.type id) :=
  h.scopes _ rfl

theorem shape_eq (declaration : Declaration) :
    (now.decls.statement declaration).shape.relink now.fill = state.shape declaration := by
  rw [h.decls, SessionState.shape]
  have htypes := (state.world.decls.statement declaration).shape.targets_ofType
  refine Shape.relink_congr fill_onOwner _ fun target hmem => ?_
  have htype := htypes target hmem
  match target with
  | .declaration (.type id) => simp [Relink.AgreesAt, Relink.fill, h.answer_type]
  | .definition (.type _) => simp [Relink.AgreesAt, Relink.fill]
  | .unknown => trivial
  | .definition (.module _) | .definition (.field _) | .definition (.method _)
  | .definition (.property _) | .definition (.event _) | .declaration (.module _)
  | .declaration (.field _) | .declaration (.method _) | .declaration (.property _)
  | .declaration (.event _) => cases htype

/-- The type around a member was resolved before. -/
theorem holder?_eq (hparent : now.decls.parent? declaration = some parent)
    (hholder : now.answer parent = some holder) : state.holder? declaration = some holder := by
  rw [h.decls] at hparent
  have hscope : parent.kind.isScope = true := by
    rcases Declarations.kind_of_parent? hparent with hkind | ⟨hkind, -⟩ <;> rw [hkind] <;> rfl
  rw [SessionState.holder?, hparent, Option.bind_some, ← h.scopes parent hscope, hholder]

/-- A definition matches a member when it is as the member describes it. -/
theorem matches_iff (hmember : declaration.kind.isScope = false)
    (hsettled : declaration.kind = .method →
      now.answer.SettlesAll (now.decls.statement declaration).shape.targets) :
    now.Matches declaration definition ↔ ∃ record, now.defs.record? definition = some record ∧
      state.Describes declaration record.nature := by
  refine exists_congr fun record => and_congr_right fun hrecord => ?_
  have hscope (parent : Declaration) (hparent : now.decls.parent? declaration = some parent) :
      parent.kind ≠ .module := by
    rcases Declarations.kind_of_parent? hparent with hkind | ⟨-, hkind⟩
    · simp [hkind]
    · simp [hkind, SymbolKind.isScope] at hmember
  have hoverload : (declaration.kind = .method → now.Holds declaration definition .overload) ↔
      (declaration.kind = .method →
        record.nature.shape.Overloads state.world.typeNames (state.shape declaration)) := by
    refine forall_congr' fun hmethod => ?_
    simp only [Holds, hrecord, Option.some.injEq, exists_eq_left', h.names, h.shape_eq]
    exact and_iff_right (hsettled hmethod)
  rw [hoverload, SessionState.Describes, h.decls]
  exact and_congr_right fun _ => and_iff_right fun parent hparent hkind =>
    absurd hkind (hscope parent (h.decls ▸ hparent))

/-- What was there before is described as it was before. -/
theorem describes_iff (hhas : state.world.defs.has definition = true) :
    state.describes declaration definition = true ↔ ∃ record,
      now.defs.record? definition = some record ∧ state.Describes declaration record.nature := by
  obtain ⟨record, hrecord⟩ := Definitions.has_iff.mp hhas
  obtain ⟨record', hrecord', hnature, -⟩ := h.grows.kept _ _ hrecord
  simp [SessionState.describes, hrecord, hrecord', hnature]

/-- What is made for a member is as the member says. -/
theorem nature_eq {record : Record} (hrenders : now.Renders declaration holder record)
    (hmember : declaration.kind.isScope = false) :
    record.nature = state.nature declaration holder record.nature.token := by
  have hkind : declaration.kind ≠ .type := by
    intro hkind
    simp [hkind, SymbolKind.isScope] at hmember
  have hmodule := hrenders.module
  rw [if_neg hkind] at hmodule
  rw [SessionState.nature, ← h.shape_eq, ← h.decls, ← hrenders.name, ← hrenders.namespaceName,
    ← hrenders.shape, ← hrenders.owner, ← hmodule]

/-- What was made for one member is not what another one describes. -/
theorem eq_of_describes (hrooted : state.Rooted asked) {record : Record}
    (hmade : (other, definition) ∈ now.made) (hasked : asked declaration)
    (hmemo : state.session.resolved.get? declaration = none)
    (hkind : other.kind = declaration.kind) (hother : state.holder? other = some holder)
    (hholder : state.holder? declaration = some holder)
    (hrecord : now.defs.record? definition = some record)
    (hdescribes : state.Describes declaration record.nature) : other = declaration := by
  have hsupplied := h.supplied other definition hmade
  obtain ⟨holder', record', hother', hrecord', hnature⟩ := hsupplied.rendered
  cases hother.symm.trans hother'
  cases hrecord.symm.trans hrecord'
  rw [hnature] at hdescribes
  exact hrooted.apart other declaration holder hsupplied.asked hasked hsupplied.member hkind
    hsupplied.missing hmemo hother hholder hdescribes

/-- What a member finds was there before. -/
theorem finds?_of_found (hrooted : state.Rooted asked) (hasked : asked declaration)
    (hmember : declaration.kind.isScope = false)
    (hmemo : state.session.resolved.get? declaration = none)
    (hanswer : now.answer declaration = none) (hfound : now.Found declaration definition) :
    state.finds? declaration = some definition := by
  cases hfound with
  | module => cases hmember
  | @member _ parent _ holder front rest hparent hholder hkind hmembers hmatches hfirst =>
      have hsettled (hmethod : declaration.kind = .method) :
          now.answer.SettlesAll (now.decls.statement declaration).shape.targets := by
        obtain ⟨_, _, _, _, hoverload⟩ := hmatches
        obtain ⟨_, _, hsettled, -⟩ := hoverload hmethod
        exact hsettled
      have hholder' := h.holder?_eq hparent hholder
      rw [h.matches_iff hmember hsettled] at hmatches
      obtain ⟨added, hlist, -, hadded⟩ := h.lists holder declaration.kind
      -- Nothing that was added is described, and so the first one that is was there before.
      have hnew (item : Definition) (hmem : item ∈ added) : ¬ ∃ record,
          now.defs.record? item = some record ∧ state.Describes declaration record.nature := by
        rintro ⟨record, hrecord, hdescribes⟩
        obtain ⟨other, hmade, hsame, hother⟩ := (hadded item).mp hmem
        cases h.eq_of_describes hrooted hmade hasked hmemo hsame hother hholder' hrecord hdescribes
        simpa [hanswer] using h.sound.made _ hmade
      let describes (item : Definition) : Bool :=
        (now.defs.record? item).any fun record => state.Describes declaration record.nature
      have hdescribes (item : Definition) : describes item = true ↔ ∃ record,
          now.defs.record? item = some record ∧ state.Describes declaration record.nature := by
        simp [describes, Option.any_eq_true]
      have hold (item : Definition) (hmem : item ∈ state.world.defs.members holder declaration.kind) :
          state.describes declaration item = describes item := by
        rw [Bool.eq_iff_iff, hdescribes, h.describes_iff (hrooted.sound.held _ _ _ hmem)]
      have hfind : (now.defs.members holder declaration.kind).find? describes = some definition := by
        refine List.find?_eq_some_iff_append.mpr
          ⟨(hdescribes _).mpr hmatches, front, rest, hmembers, fun item hmem => ?_⟩
        have hnot := (h.matches_iff hmember hsettled).not.mp (hfirst item hmem)
        rw [Bool.not_eq_true', ← Bool.not_eq_true, hdescribes]
        exact hnot
      have hnone : added.find? describes = none :=
        List.find?_eq_none.mpr fun item hmem => (hdescribes item).not.mpr (hnew item hmem)
      rw [hlist, List.find?_append, hnone, Option.or_none] at hfind
      rw [SessionState.finds?, hmemo, Option.none_or, hholder', Option.bind_some, ← hfind]
      exact List.find?_congr hold

/-- A member for which a definition is missing finds none. -/
theorem finds?_of_missing (hrooted : state.Rooted asked)
    (hmember : declaration.kind.isScope = false)
    (hmemo : state.session.resolved.get? declaration = none)
    (hsettled : now.answer.SettlesAll (now.decls.statement declaration).shape.targets)
    (hmissing : now.Missing declaration) : state.finds? declaration = none := by
  cases hmissing with
  | module => cases hmember
  | @member _ parent holder hparent hholder hnone =>
      obtain ⟨added, hlist, -, -⟩ := h.lists holder declaration.kind
      rw [SessionState.finds?, hmemo, Option.none_or, h.holder?_eq hparent hholder,
        Option.bind_some, List.find?_eq_none]
      intro item hmem hdescribes
      refine hnone item (hlist ▸ List.mem_append_left _ hmem) ?_
      rw [h.matches_iff hmember fun _ => hsettled]
      exact (h.describes_iff (hrooted.sound.held _ _ _ hmem)).mp hdescribes

/-- What stands for a member was made for it, or found and not made. -/
theorem made_or_found (hanswer : now.answer declaration = some definition)
    (hmemo : state.session.resolved.get? declaration = none) :
    (declaration, definition) ∈ now.made ∧ state.finds? declaration = none ∨
      state.finds? declaration = some definition ∧ state.world.defs.has definition = true := by
  obtain hmade | ⟨hfinds, -⟩ := h.answered _ _ hanswer
  · exact .inl ⟨hmade, (h.supplied _ _ hmade).missing⟩
  · obtain ⟨_, record, -, -, hrecord, -⟩ := exists_of_finds? hfinds hmemo
    exact .inr ⟨hfinds, Definitions.has_iff.mpr ⟨record, hrecord⟩⟩

/-- What stands for something was asked for, if it was not resolved before. -/
theorem asked_of_answer (hanswer : now.answer declaration = some definition)
    (hmemo : state.session.resolved.get? declaration = none) :
    asked declaration ∧ declaration.kind.isScope = false := by
  refine ⟨?_, Bool.eq_false_iff.mpr fun hscope => ?_⟩
  · obtain hmade | ⟨-, hnew⟩ := h.answered _ _ hanswer
    · exact (h.supplied _ _ hmade).asked
    · exact (hnew hmemo).1
  · simp [h.scopes declaration hscope, hmemo] at hanswer

/-- Different members that were not resolved before stand for different definitions. -/
theorem injective (hrooted : state.Rooted asked) (hanswer : now.answer declaration = some definition)
    (hanswer' : now.answer other = some definition)
    (hmemo : state.session.resolved.get? declaration = none)
    (hmemo' : state.session.resolved.get? other = none) : declaration = other := by
  obtain ⟨hasked, -⟩ := h.asked_of_answer hanswer hmemo
  obtain ⟨hasked', -⟩ := h.asked_of_answer hanswer' hmemo'
  obtain ⟨hmade, -⟩ | ⟨hfinds, hhas⟩ := h.made_or_found hanswer hmemo <;>
    obtain ⟨hmade', -⟩ | ⟨hfinds', hhas'⟩ := h.made_or_found hanswer' hmemo'
  · exact h.single _ _ _ hmade hmade'
  · exact absurd (Definitions.issued_of_has hhas') (h.supplied _ _ hmade).new
  · exact absurd (Definitions.issued_of_has hhas) (h.supplied _ _ hmade').new
  · exact hrooted.single _ _ _ hasked hasked' hmemo hmemo' hfinds hfinds'

/-- Nothing changes but some details, what has been confirmed and what is being resolved. -/
theorem keep (hsound : next.Sound) (hlater : now.Later next)
    (hslots : next.world.slots = now.world.slots)
    (hmodules : next.session.modules = now.session.modules)
    (htypes : next.defs.types.next = now.defs.types.next)
    (hanswer : next.answer = now.answer) (hmade : next.made = now.made)
    (hmembers : ∀ holder kind, next.defs.members holder kind = now.defs.members holder kind)
    (hhas : ∀ definition, next.defs.has definition = now.defs.has definition)
    (hnested : Nested state asked next.stack) : Resolving state asked next where
  sound := hsound
  later := h.later.trans hlater
  slots := hslots.trans h.slots
  modules := hmodules.trans h.modules
  types := htypes.trans h.types
  scopes := hanswer ▸ h.scopes
  nested := hnested
  answered := by simpa only [hanswer, hmade] using h.answered
  supplied declaration definition hmem :=
    (h.supplied declaration definition (hmade ▸ hmem)).later hlater.grows
  single := hmade ▸ h.single
  lists := by simpa only [hmade, hmembers] using h.lists
  there := by simpa only [hmade, hhas] using h.there

/-- What a member finds stands for it from then on. -/
theorem locate (hsound : (now.withStack ((declaration, some definition) :: rest)).Sound)
    (hstack : now.stack = (declaration, none) :: rest)
    (hpolicy : (now.decls.terms declaration).policy ≠ .failIfPresent)
    (hfinds : state.finds? declaration = some definition) :
    Resolving state asked (now.withStack ((declaration, some definition) :: rest)) := by
  have hnested := hstack ▸ h.nested
  obtain ⟨hasked, hmember, hmemo⟩ := hnested.top
  refine { h with
    sound := hsound
    later := h.later.trans { Later.refl now with }
    scopes := fun other hscope => ?_
    nested := hnested.locate _
    answered := fun other found hanswer => ?_
    supplied := fun other found hmem =>
      (h.supplied other found hmem).later (.refl _) }
  · rw [h.sound.answer_locate hstack, if_neg, h.scopes other hscope]
    rintro rfl
    simp [hmember] at hscope
  · rw [h.sound.answer_locate hstack] at hanswer
    split at hanswer
    · cases hanswer
      subst other
      exact .inr ⟨hfinds, fun _ => ⟨hasked, h.decls ▸ hpolicy⟩⟩
    · exact h.answered other found hanswer

/-- What is new has been supplied to no declaration. -/
theorem not_made_of_fresh {made : Definition} (hfresh : now.defs.has made = false)
    (other : Declaration) : (other, made) ∉ now.made := fun hmem => by
  simp [h.sound.has_answer (h.sound.made _ hmem)] at hfresh

/-- Where a new member is made, the list of its kind gains this member, and no other list changes. -/
theorem lists_create {made : Definition} {record : Record} {defs : Definitions}
    (hplace : state.holder? declaration = some holder) (hhas : now.defs.has holder = true)
    (hkind : made.kind = declaration.kind) (hempty : record.members = fun _ => [])
    (hfresh : now.defs.has made = false) (hadds : now.defs.Adds defs holder made record)
    (other : Definition) (kind : SymbolKind) : ∃ added,
      defs.members other kind = state.world.defs.members other kind ++ added ∧ added.Nodup ∧
        ∀ found, found ∈ added ↔ ∃ maker, (maker, found) ∈ (declaration, made) :: now.made ∧
          maker.kind = kind ∧ state.holder? maker = some other := by
  obtain ⟨added, hlist, hnodup, hadded⟩ := h.lists other kind
  by_cases hsame : other = holder ∧ kind = made.kind
  · obtain ⟨rfl, rfl⟩ := hsame
    refine ⟨added ++ [made], ?_, ?_, fun found => ?_⟩
    · rw [hadds.members_parent hhas, hlist, List.append_assoc]
    · refine List.nodup_append.mpr ⟨hnodup, List.pairwise_singleton _ _, ?_⟩
      rintro found hmem _ (_ | ⟨_, ⟨⟩⟩) rfl
      obtain ⟨maker, hmade, -⟩ := (hadded found).mp hmem
      exact h.not_made_of_fresh hfresh maker hmade
    · rw [List.mem_append, List.mem_singleton, hadded]
      simp only [List.mem_cons, Prod.mk.injEq]
      constructor
      · rintro (⟨maker, hmade, hmaker⟩ | rfl)
        · exact ⟨maker, .inr hmade, hmaker⟩
        · exact ⟨declaration, .inl ⟨rfl, rfl⟩, hkind.symm, hplace⟩
      · rintro ⟨maker, ⟨rfl, rfl⟩ | hmade, hmaker⟩
        · exact .inr rfl
        · exact .inl ⟨maker, hmade, hmaker⟩
  · refine ⟨added, (hadds.members_other hempty hsame).trans hlist, hnodup, fun found => ?_⟩
    rw [hadded]
    refine exists_congr fun maker => and_congr_left fun ⟨hmaker, hlies⟩ => ?_
    refine ⟨List.mem_cons_of_mem _, fun hmem => (List.mem_cons.mp hmem).resolve_left ?_⟩
    rintro heq
    cases heq
    exact hsame ⟨Option.some.inj (hlies.symm.trans hplace), hmaker.symm.trans hkind.symm⟩

/-- What is made for a member that finds nothing stands for it from then on. -/
theorem create {made : Definition} {record : Record} {defs : Definitions}
    (hsound : (((now.withDefs defs).withStack ((declaration, some made) :: rest)).withMade
      ((declaration, made) :: now.made)).Sound)
    (hstack : now.stack = (declaration, none) :: rest) (hwritable : now.decls.Writable declaration)
    (hpolicy : (now.decls.terms declaration).policy ≠ .failIfMissing)
    (hfinds : state.finds? declaration = none) (hparent : now.decls.parent? declaration = some parent)
    (hholder : now.answer parent = some holder) (hkind : made.kind = declaration.kind)
    (hrenders : now.Renders declaration holder record)
    (hadds : now.defs.Adds defs holder made record) :
    Resolving state asked (((now.withDefs defs).withStack ((declaration, some made) :: rest)).withMade
      ((declaration, made) :: now.made)) := by
  have hnested := hstack ▸ h.nested
  obtain ⟨hasked, hmember, hmemo⟩ := hnested.top
  have hholder' := h.holder?_eq hparent hholder
  have hlater : now.Later (now.withDefs defs) := Later.withDefs hadds.grows
  have hfresh : now.defs.has made = false :=
    Definitions.not_has_iff.mpr (Definitions.record?_eq_none_of_fresh hadds.fresh)
  have hanswer (other : Declaration) :
      (((now.withDefs defs).withStack ((declaration, some made) :: rest)).withMade
        ((declaration, made) :: now.made)).answer other =
          if other = declaration then some made else now.answer other :=
    h.sound.answer_locate hstack other
  refine { h with
    sound := hsound
    later := h.later.trans { hlater with }
    types := ?_
    scopes := fun other hscope => ?_
    nested := hnested.locate _
    answered := fun other found hother => ?_
    supplied := fun other found hmem => ?_
    single := fun left right found hleft hright => ?_
    lists := h.lists_create hholder' (h.sound.has_answer hholder) hkind hrenders.members hfresh hadds
    there := fun found hhas => ?_ }
  · have hne : SymbolKind.type ≠ made.kind := by
      rw [hkind]
      intro heq
      simp [← heq, SymbolKind.isScope] at hmember
    exact (hadds.next .type).trans ((if_neg hne).trans h.types)
  · rw [hanswer, if_neg, h.scopes other hscope]
    rintro rfl
    simp [hmember] at hscope
  · rw [hanswer] at hother
    split at hother
    · cases hother
      subst other
      exact .inl List.mem_cons_self
    · exact (h.answered other found hother).imp_left (List.mem_cons_of_mem _)
  · obtain heq | hmem := List.mem_cons.mp hmem
    · cases heq
      refine ⟨hasked, hmember, hfinds, h.decls ▸ hwritable, h.decls ▸ hpolicy, fun hissued => ?_,
        holder, record, hholder', hadds.record_made, ?_⟩
      · have hless : made.index < now.defs.next made.kind := h.grows.issued _ hissued
        exact hless.ne hadds.fresh
      · exact h.nature_eq hrenders hmember
    · exact (h.supplied other found hmem).later hadds.grows
  · obtain heq | hleft := List.mem_cons.mp hleft
    · cases heq
      obtain heq | hright := List.mem_cons.mp hright
      · cases heq
        rfl
      · exact absurd hright (h.not_made_of_fresh hfresh right)
    · obtain heq | hright := List.mem_cons.mp hright
      · cases heq
        exact absurd hleft (h.not_made_of_fresh hfresh left)
      · exact h.single left right found hleft hright
  · obtain hhas | rfl := hadds.has_iff.mp hhas
    · exact (h.there found hhas).imp_right fun ⟨maker, hmade⟩ => ⟨maker, List.mem_cons_of_mem _ hmade⟩
    · exact .inr ⟨declaration, List.mem_cons_self⟩

end Resolving

/-- What is resolved next is a member again. -/
theorem Step.resolving (hrooted : state.Rooted asked) (h : Resolving state asked now)
    (hstep : Step asked {} now next) : Resolving state asked next := by
  have hsound := hstep.sound h.sound
  have hlater := hstep.later h.sound
  cases hstep with
  | @quiet world hits hquiet hslots =>
      have hdefs : world.defs = now.defs := hquiet.defs
      exact h.keep hsound hlater (hslots rfl) rfl (by simp [hdefs]) rfl rfl (by simp [hdefs])
        (by simp [hdefs]) h.nested
  | load hstack | makeModule hstack =>
      have hmember := (hstack ▸ h.nested).top.2.1
      simp [Declaration.kind, SymbolKind.isScope] at hmember
  | @enter declaration hasked hmemo hstack hlets =>
      -- What is in flight is not remembered, so it was not remembered at the start.
      have hstart : state.session.resolved.get? declaration = none := by
        refine Option.eq_none_iff_forall_ne_some.mpr fun definition hstart => ?_
        simp [h.later.remembered _ _ hstart] at hmemo
      have hmember : declaration.kind.isScope = false := by
        refine Bool.eq_false_iff.mpr fun hscope => ?_
        obtain ⟨definition, hknown⟩ := hrooted.scopes declaration hasked hscope
        simp [hstart] at hknown
      exact h.keep hsound hlater rfl rfl rfl (answer_enter hstack) rfl (fun _ _ => rfl) (fun _ => rfl)
        (h.nested.enter hasked hmember hstart hlets)
  | @create declaration parent rest holder made record defs hstack hasked hwritable hpolicy hmissing
      hparent hholder hkind hrenders hadds =>
      obtain ⟨-, hmember, hmemo⟩ := (hstack ▸ h.nested).top
      exact h.create hsound hstack hwritable hpolicy
        (h.finds?_of_missing hrooted hmember hmemo hrenders.settled hmissing) hparent hholder hkind
        hrenders hadds
  | @locate declaration definition rest hstack hasked hpolicy hfound =>
      obtain ⟨-, hmember, hmemo⟩ := (hstack ▸ h.nested).top
      have hanswer := h.sound.answer_pending hstack
      exact h.locate hsound hstack hpolicy
        (h.finds?_of_found hrooted hasked hmember hmemo hanswer hfound)
  | confirm hstack =>
      exact h.keep hsound hlater rfl rfl rfl rfl rfl (fun _ _ => rfl) (fun _ => rfl) h.nested
  | amend hstack hasked hwritable hstated hchanges =>
      exact h.keep hsound hlater rfl rfl (hchanges.next .type) rfl rfl
        (hchanges.members_eq fun _ => rfl) hchanges.has_eq h.nested
  | remember hstack =>
      exact h.keep hsound hlater rfl rfl rfl (h.sound.answer_remember hstack) rfl (fun _ _ => rfl)
        (fun _ => rfl) (hstack ▸ h.nested).tail
  | abandon hfails | hide hfails | graft hfails => cases hfails

theorem Run.resolving (hrooted : state.Rooted asked) (hrun : Run asked {} { state } now) :
    Resolving state asked now :=
  hrun.keeps hrooted.sound (fun hstep _ h => hstep.resolving hrooted h) (resolving_start hrooted)

end Graft.Moment
