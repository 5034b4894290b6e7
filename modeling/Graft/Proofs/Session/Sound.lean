import Graft.Proofs.Session.Step
import Graft.Proofs.Source.Loading

/-!
# What every step keeps

`Sound` moments stay sound, and what is known at a moment is known at every later one (`Later`):
the memo is never taken back, definitions only grow, and declarations do not change at all. Both
are proved for one step and then for a run.
-/

namespace Graft.Moment

/-- Whether everything that is kept exists, nothing is both remembered and being resolved, and what
was made is what its declaration stands for. -/
structure Sound (now : Moment) : Prop where
  held : now.defs.Held
  modules : ∀ name module, now.session.modules.get? name = some module →
    now.defs.has (.module module) = true
  source : (now.world.source now.session.source).Sound now.defs
  remembered : ∀ declaration definition,
    now.session.resolved.get? declaration = some definition → now.defs.has definition = true
  located : ∀ declaration definition, (declaration, some definition) ∈ now.stack →
    now.defs.has definition = true
  unfinished : ∀ entry ∈ now.stack, now.session.resolved.get? entry.1 = none
  distinct : (now.stack.map Prod.fst).Nodup
  kinds : ∀ declaration definition, now.answer declaration = some definition →
    definition.kind = declaration.kind
  made : ∀ entry ∈ now.made, now.answer entry.1 = some entry.2

/-- What a moment tells about all later ones. -/
structure Later (now later : Moment) : Prop where
  decls : later.decls = now.decls
  grows : now.defs.Grows later.defs
  source : later.session.source = now.session.source
  sources : later.world.sources = now.world.sources
  modules : ∀ name module, now.session.modules.get? name = some module →
    later.session.modules.get? name = some module
  remembered : ∀ declaration definition,
    now.session.resolved.get? declaration = some definition →
      later.session.resolved.get? declaration = some definition
  confirmed : ∀ entry ∈ now.confirmed, entry ∈ later.confirmed
  slots : ∀ slot, (now.world.slot? slot).isSome = true → (later.world.slot? slot).isSome = true
  scope : ∀ id, (later.world.importer id).scope = (now.world.importer id).scope
  types : ∀ id, (later.world.importer id).types = (now.world.importer id).types
  fields : ∀ id, (later.world.importer id).fields = (now.world.importer id).fields
  methods : ∀ id, (later.world.importer id).methods = (now.world.importer id).methods

variable {asked : Declaration → Prop} {mode : Mode} {now next last : Moment}
  {declaration : Declaration} {definition : Definition} {rest : InFlight}

/-- What has been confirmed so far has no part in being sound. -/
theorem Sound.plain (h : now.Sound) : Sound { state := now.state } where
  held := h.held
  modules := h.modules
  source := h.source
  remembered := h.remembered
  located := by simp
  unfinished := by simp
  distinct := by simp
  kinds declaration definition hanswer :=
    h.kinds declaration definition (by
      cases hmemo : now.session.resolved.get? declaration <;> simp_all [answer, Moment.session])
  made := by simp

theorem Later.refl (now : Moment) : now.Later now :=
  ⟨rfl, .refl _, rfl, rfl, fun _ _ h => h, fun _ _ h => h, fun _ h => h, fun _ h => h,
    fun _ => rfl, fun _ => rfl, fun _ => rfl, fun _ => rfl⟩

theorem Later.trans (h : now.Later next) (h' : next.Later last) : now.Later last where
  decls := h'.decls.trans h.decls
  grows := h.grows.trans h'.grows
  source := h'.source.trans h.source
  sources := h'.sources.trans h.sources
  modules name module hmodule := h'.modules name module (h.modules name module hmodule)
  remembered declaration definition hknown :=
    h'.remembered declaration definition (h.remembered declaration definition hknown)
  confirmed entry hentry := h'.confirmed entry (h.confirmed entry hentry)
  slots slot hfilled := h'.slots slot (h.slots slot hfilled)
  scope id := (h'.scope id).trans (h.scope id)
  types id := (h'.types id).trans (h.types id)
  fields id := (h'.fields id).trans (h.fields id)
  methods id := (h'.methods id).trans (h.methods id)

/-! ## Answers -/

theorem answer_of_remembered
    (h : now.session.resolved.get? declaration = some definition) :
    now.answer declaration = some definition := by
  simp [answer, h]

/-- An answer is remembered, or it has been located for a declaration in flight. -/
theorem cases_of_answer (hanswer : now.answer declaration = some definition) :
    now.session.resolved.get? declaration = some definition ∨
      (declaration, some definition) ∈ now.stack := by
  unfold answer at hanswer
  cases hmemo : now.session.resolved.get? declaration with
  | some found => exact .inl (by simpa [hmemo] using hanswer)
  | none =>
      right
      rw [hmemo, Option.none_or] at hanswer
      cases hlookup : now.stack.lookup declaration with
      | none => simp [hlookup] at hanswer
      | some entry =>
          obtain ⟨before, after, hsplit, -⟩ := List.lookup_eq_some_iff.mp hlookup
          rw [hlookup, Option.join_some] at hanswer
          simp [hsplit, hanswer]

/-- While nothing is being resolved all that is known is remembered. -/
theorem answer_idle (hidle : now.stack = []) :
    now.answer declaration = now.session.resolved.get? declaration := by
  simp [answer, hidle]

/-- On the same stack nothing that is known is forgotten. -/
theorem Later.answers (h : now.Later next) (hsound : next.Sound)
    (hstack : next.stack = now.stack) : now.answer.Extends next.answer := by
  intro declaration definition hknown
  obtain hmemo | hmem := cases_of_answer hknown
  · exact answer_of_remembered (h.remembered declaration definition hmemo)
  · have hlater : next.session.resolved.get? declaration = none :=
      hsound.unfinished _ (hstack ▸ hmem)
    -- nothing remembered is forgotten, so what is not remembered later is not remembered now
    have hmemo : now.session.resolved.get? declaration = none := by
      refine Option.eq_none_iff_forall_ne_some.mpr fun found hfound => ?_
      simp [h.remembered declaration found hfound] at hlater
    unfold answer at hknown ⊢
    rwa [hlater, hstack, ← hmemo]

/-- A declaration that is about to be resolved has no answer yet. -/
theorem answer_enter (hlookup : now.stack.lookup declaration = none) :
    (now.withStack ((declaration, none) :: now.stack)).answer = now.answer := by
  funext other
  unfold answer
  rw [withStack_session, withStack_stack, List.lookup_cons]
  by_cases heq : (other == declaration) = true
  · obtain rfl := eq_of_beq heq
    simp [hlookup]
  · simp only [heq]

/-- The definition that is put on the stack is an answer, and the only new one. -/
theorem Sound.answer_locate (h : now.Sound) (hstack : now.stack = (declaration, none) :: rest)
    (other : Declaration) :
    (now.withStack ((declaration, some definition) :: rest)).answer other =
      if other = declaration then some definition else now.answer other := by
  have hmemo := h.unfinished (declaration, none) (by simp [hstack])
  unfold answer
  rw [withStack_session, withStack_stack, hstack, List.lookup_cons, List.lookup_cons]
  by_cases heq : other = declaration
  · subst heq
    simp [hmemo]
  · simp [heq, beq_false_of_ne heq]

/-- What was located is the answer before and after it is remembered. -/
theorem Sound.answer_remember (h : now.Sound)
    (hstack : now.stack = (declaration, some definition) :: rest) :
    ((now.withState
      { now.session with resolved := now.session.resolved.insert declaration definition }
      now.world).withStack rest).answer = now.answer := by
  funext other
  have hmemo := h.unfinished (declaration, some definition) (by simp [hstack])
  unfold answer
  rw [withStack_session, withState_session, withStack_stack, hstack, List.lookup_cons,
    Dictionary.get?_insert]
  by_cases heq : other = declaration
  · subst heq
    simp [hmemo]
  · simp [Ne.symm heq, beq_false_of_ne heq]

/-- What is given up has no answer any more, and everything else keeps its answer. -/
theorem Sound.answer_abandon {entry : Declaration × Option Definition} (h : now.Sound)
    (hstack : now.stack = entry :: rest) (other : Declaration) :
    (now.withStack rest).answer other = if other = entry.1 then none else now.answer other := by
  have hmemo := h.unfinished entry (by simp [hstack])
  have hdistinct := h.distinct
  rw [hstack, List.map_cons, List.nodup_cons] at hdistinct
  unfold answer
  rw [withStack_session, withStack_stack, hstack, List.lookup_cons]
  by_cases heq : other = entry.1
  · subst heq
    have hlookup : rest.lookup entry.1 = none := by
      refine List.lookup_eq_none_iff.mpr fun found hfound => ?_
      simp only [bne_iff_ne, ne_eq]
      intro hsame
      exact hdistinct.1 (List.mem_map.mpr ⟨found, hfound, hsame.symm⟩)
    simp [hmemo, hlookup]
  · simp [heq, beq_false_of_ne heq]

/-- The definition on top of the stack is the answer for its declaration. -/
theorem Sound.answer_top (h : now.Sound)
    (hstack : now.stack = (declaration, some definition) :: rest) :
    now.answer declaration = some definition := by
  have hmemo := h.unfinished (declaration, some definition) (by simp [hstack])
  simp [answer, hmemo, hstack]

/-- The declaration on top of the stack has no answer before its definition has been located. -/
theorem Sound.answer_pending (h : now.Sound) (hstack : now.stack = (declaration, none) :: rest) :
    now.answer declaration = none := by
  have hmemo := h.unfinished (declaration, none) (by simp [hstack])
  simpa [answer, hstack] using hmemo

/-- Every answer exists. -/
theorem Sound.has_answer (h : now.Sound) (hanswer : now.answer declaration = some definition) :
    now.defs.has definition = true :=
  (cases_of_answer hanswer).elim (h.remembered _ _) (h.located _ _)

/-- A definition that was found exists. -/
theorem Sound.has_found (h : now.Sound) (hfound : now.Found declaration definition) :
    now.defs.has definition = true := by
  cases hfound with
  | module hmodule => exact h.modules _ _ hmodule
  | member _ _ _ hmembers => exact h.held _ _ _ (hmembers ▸ List.mem_append_right _ List.mem_cons_self)

/-- A definition that was found is of the kind of its declaration. -/
theorem Found.kind (h : now.Found declaration definition) : definition.kind = declaration.kind := by
  cases h with
  | module => rfl
  | member _ _ hkind => exact hkind

/-! ## One step -/

theorem Sound.withDefs {defs : Definitions} (h : now.Sound) (hgrows : now.defs.Grows defs)
    (hheld : defs.Held) : (now.withDefs defs).Sound where
  held := hheld
  modules name module hmodule := hgrows.has (h.modules name module hmodule)
  source := h.source.grows hgrows
  remembered _ _ hknown := hgrows.has (h.remembered _ _ hknown)
  located _ _ hmem := hgrows.has (h.located _ _ hmem)
  unfinished := h.unfinished
  distinct := h.distinct
  kinds := h.kinds
  made := h.made

/-- The definition of the innermost declaration is put on the stack. -/
theorem Sound.locate (h : now.Sound) (hstack : now.stack = (declaration, none) :: rest)
    (hhas : now.defs.has definition = true) (hkind : definition.kind = declaration.kind) :
    (now.withStack ((declaration, some definition) :: rest)).Sound := by
  obtain ⟨hmemo, hrest⟩ := List.forall_mem_cons.mp (hstack ▸ h.unfinished)
  have hanswer (other : Declaration) :
      (now.withStack ((declaration, some definition) :: rest)).answer other =
        if other = declaration then some definition else now.answer other :=
    h.answer_locate hstack other
  have hnone : now.answer declaration = none := by
    simpa [answer, hstack] using hmemo
  refine { h with located := ?_, unfinished := ?_, distinct := ?_, kinds := ?_, made := ?_ }
  · intro other found hmem
    rcases List.mem_cons.mp hmem with heq | hmem
    · cases heq
      exact hhas
    · exact h.located other found (by rw [hstack]; exact List.mem_cons_of_mem _ hmem)
  · exact List.forall_mem_cons.mpr ⟨hmemo, hrest⟩
  · simpa [hstack] using h.distinct
  · intro other found hother
    rw [hanswer] at hother
    split at hother
    · cases hother
      rename_i heq
      exact heq ▸ hkind
    · exact h.kinds other found hother
  · intro entry hentry
    have hmade := h.made entry hentry
    rw [hanswer, if_neg, hmade]
    intro heq
    simp [heq, hnone] at hmade

/-- What was just made is noted. -/
theorem Sound.withMade (h : now.Sound) (hanswer : now.answer declaration = some definition) :
    (now.withMade ((declaration, definition) :: now.made)).Sound :=
  { h with made := List.forall_mem_cons.mpr ⟨hanswer, h.made⟩ }

/-- What is no longer being resolved does not matter. -/
theorem Sound.pop {entry : Declaration × Option Definition} (h : now.Sound)
    (hstack : now.stack = entry :: rest) :
    ((now.withStack rest).withMade (now.made.filter (·.1 ≠ entry.1))).Sound where
  held := h.held
  modules := h.modules
  source := h.source
  remembered := h.remembered
  located other found hmem :=
    h.located other found (by rw [hstack]; exact List.mem_cons_of_mem _ hmem)
  unfinished other hmem := h.unfinished other (by rw [hstack]; exact List.mem_cons_of_mem _ hmem)
  distinct := by
    have hdistinct := h.distinct
    rw [hstack, List.map_cons, List.nodup_cons] at hdistinct
    exact hdistinct.2
  kinds other found hother := by
    rw [withMade_answer, h.answer_abandon hstack] at hother
    split at hother
    · cases hother
    · exact h.kinds other found hother
  made other hmem := by
    simp only [withMade_made, List.mem_filter, decide_eq_true_eq] at hmem
    rw [withMade_answer, h.answer_abandon hstack, if_neg hmem.2]
    exact h.made other hmem.1

theorem Later.withDefs {defs : Definitions} (hgrows : now.defs.Grows defs) :
    now.Later (now.withDefs defs) :=
  { Later.refl now with grows := hgrows }

/-- What a resolution in a sound moment knows stays known. -/
theorem Step.later (hstep : Step asked mode now next) (h : now.Sound) : now.Later next := by
  cases hstep with
  | quiet hquiet hslots =>
      exact ⟨hquiet.decls, by simpa [hquiet.defs] using Definitions.Grows.refl now.defs, rfl,
        hquiet.sources, fun _ _ h => h, fun _ _ h => h, fun _ h => h,
        fun _ => hquiet.isSome_slot?, hquiet.scope, hquiet.types, hquiet.fields, hquiet.methods⟩
  | load hstack hasked hname hnone hload =>
      obtain ⟨hextends, -, -, hworld⟩ := Task.load_ok h.source h.held hload
      rw [hworld]
      refine { Later.refl now with grows := hextends.grows, modules := ?_ }
      intro other found hfound
      simp only [withState_session, Dictionary.get?_insert]
      rw [if_neg, hfound]
      rintro rfl
      simp [hnone] at hfound
  | enter => exact { Later.refl now with }
  | makeModule hstack hasked hwritable hname hpolicy hnone hmissing =>
      refine { Later.refl now with
        grows := (Definitions.makeModule_makes _ _).grows
        modules := ?_ }
      intro other found hfound
      simp only [withMade_session, withStack_session, withState_session, Dictionary.get?_insert]
      rw [if_neg, hfound]
      rintro rfl
      simp [hnone] at hfound
  | create _ _ _ _ _ _ _ _ _ hadds =>
      exact { (Later.withDefs hadds.grows : now.Later _) with }
  | locate => exact { Later.refl now with }
  | confirm =>
      exact { Later.refl now with confirmed := fun entry hentry => List.mem_cons_of_mem _ hentry }
  | amend hstack hasked hwritable hstated hchanges =>
      exact Later.withDefs (hchanges.grows (fun _ => rfl) fun _ => rfl)
  | remember hstack hconfirmed =>
      refine { Later.refl now with remembered := ?_ }
      intro other found hfound
      simp only [withStack_session, withState_session, Dictionary.get?_insert]
      rw [if_neg, hfound]
      -- What is in flight was not remembered, so no entry is overwritten.
      rintro rfl
      have hmemo := h.unfinished _ (by rw [hstack]; exact List.mem_cons_self)
      simp [hmemo] at hfound
  | abandon => exact { Later.refl now with }
  | hide _ _ _ _ _ _ _ _ _ _ _ hadds =>
      exact { (Later.withDefs hadds.grows : now.Later _) with }
  | graft _ _ _ _ hchanges =>
      exact Later.withDefs (hchanges.grows (fun _ => rfl) fun _ => rfl)

/-- Nothing that a resolution does makes a sound moment unsound. -/
theorem Step.sound (hstep : Step asked mode now next) (h : now.Sound) : next.Sound := by
  cases hstep with
  | @quiet world hits hquiet hslots =>
      have hsource : world.source = now.world.source := by
        funext id
        simp [World.source, hquiet.sources]
      constructor
      · simpa [hquiet.defs] using h.held
      · simpa [hquiet.defs] using h.modules
      · simpa [hquiet.defs, hsource] using h.source
      · simpa [hquiet.defs] using h.remembered
      · simpa [hquiet.defs] using h.located
      · exact h.unfinished
      · exact h.distinct
      · exact h.kinds
      · exact h.made
  | @load _ _ _ module world hstack hasked hname hnone hload =>
      obtain ⟨hextends, hheld, hhas, hworld⟩ := Task.load_ok h.source h.held hload
      refine { h.withDefs hextends.grows hheld with modules := ?_, source := ?_ }
      · intro other found hfound
        obtain ⟨-, rfl⟩ | hfound := Dictionary.of_get?_insert hfound
        · exact hhas
        · exact hextends.grows.has (h.modules other found hfound)
      · have hsource := h.source.grows hextends.grows
        rw [hworld]
        exact hsource
  | enter hasked hmemo hstack hlets =>
      have hanswer := answer_enter hstack
      refine { h with
        located := ?_
        unfinished := ?_
        distinct := ?_
        kinds := hanswer ▸ h.kinds
        made := hanswer ▸ h.made }
      · intro other found hmem
        rcases List.mem_cons.mp hmem with heq | hmem
        · cases heq
        · exact h.located other found hmem
      · intro entry hmem
        rcases List.mem_cons.mp hmem with rfl | hmem
        · exact hmemo
        · exact h.unfinished entry hmem
      · refine List.nodup_cons.mpr ⟨?_, h.distinct⟩
        simp only [List.mem_map, not_exists, not_and]
        rintro entry hmem rfl
        simpa using List.lookup_eq_none_iff.mp hstack entry hmem
  | @makeModule id rest name hstack hasked hwritable hname hpolicy hnone hmissing =>
      have hmakes := Definitions.makeModule_makes now.defs { name }
      have hhas : (now.defs.makeModule { name }).2.has (.module ⟨now.defs.modules.next⟩) = true :=
        Definitions.has_iff.mpr ⟨_, hmakes.record_made⟩
      have hsound : (now.withState
          { now.session with modules := now.session.modules.insert name ⟨now.defs.modules.next⟩ }
          { now.world with defs := (now.defs.makeModule { name }).2 }).Sound := by
        refine { h.withDefs hmakes.grows
          (hmakes.held (Definitions.members_new_module name) h.held) with modules := ?_ }
        intro other found hfound
        obtain ⟨-, rfl⟩ | hfound := Dictionary.of_get?_insert hfound
        · exact hhas
        · exact hmakes.grows.has (h.modules other found hfound)
      have hlocated := hsound.locate hstack hhas rfl
      exact hlocated.withMade (hlocated.answer_top rfl)
  | create hstack _ _ _ _ _ _ hkind hrenders hadds =>
      have hsound := h.withDefs hadds.grows (hadds.held hrenders.members h.held)
      have hlocated := hsound.locate hstack
        (Definitions.has_iff.mpr ⟨_, hadds.record_made⟩) hkind
      exact hlocated.withMade (hlocated.answer_top rfl)
  | locate hstack hasked hpolicy hfound => exact h.locate hstack (h.has_found hfound) hfound.kind
  | confirm => exact { h with }
  | amend hstack hasked hwritable hstated hchanges =>
      exact h.withDefs (hchanges.grows (fun _ => rfl) fun _ => rfl)
        (hchanges.held (fun _ => rfl) (fun _ => rfl) h.held)
  | remember hstack hconfirmed =>
      have hpop := h.pop hstack
      have hanswer := h.answer_remember hstack
      refine { hpop with
        remembered := ?_
        unfinished := ?_
        kinds := hanswer ▸ h.kinds
        made := hanswer ▸ h.made }
      · intro other found hfound
        obtain ⟨-, rfl⟩ | hfound := Dictionary.of_get?_insert hfound
        · exact h.located _ _ (by rw [hstack]; exact List.mem_cons_self)
        · exact h.remembered other found hfound
      · -- What is remembered now has left the stack, and nothing is on the stack twice.
        intro entry hmem
        have hdistinct := h.distinct
        rw [hstack, List.map_cons, List.nodup_cons] at hdistinct
        simp only [withStack_session, withState_session, Dictionary.get?_insert]
        rw [if_neg]
        · exact hpop.unfinished entry hmem
        · rintro rfl
          exact hdistinct.1 (List.mem_map.mpr ⟨entry, hmem, rfl⟩)
  | abandon hfails hstack => exact h.pop hstack
  | hide _ _ _ _ _ _ _ _ _ _ hmembers hadds =>
      exact { h.withDefs hadds.grows (hadds.held hmembers h.held) with }
  | graft _ _ _ _ hchanges =>
      exact h.withDefs (hchanges.grows (fun _ => rfl) fun _ => rfl)
        (hchanges.held (fun _ => rfl) (fun _ => rfl) h.held)

/-- While no resolution is given up, no answer is taken back. -/
theorem Step.answers (hstep : Step asked mode now next) (hmode : mode.fails = false)
    (h : now.Sound) : now.answer.Extends next.answer := by
  have hlocate {top : Declaration} {found : Definition} {rest : InFlight}
      (hstack : now.stack = (top, none) :: rest) :
      now.answer.Extends (now.withStack ((top, some found) :: rest)).answer := by
    intro other known hknown
    rw [h.answer_locate hstack, if_neg, hknown]
    rintro rfl
    have hmemo := h.unfinished (other, none) (by simp [hstack])
    simp [answer, hstack, hmemo] at hknown
  cases hstep with
  | quiet | load | confirm | amend | hide | graft => exact fun _ _ hknown => hknown
  | enter _ _ hstack _ => exact (answer_enter hstack).symm ▸ fun _ _ hknown => hknown
  | makeModule hstack => exact hlocate hstack
  | create hstack => exact hlocate hstack
  | locate hstack => exact hlocate hstack
  | remember hstack => exact (h.answer_remember hstack).symm ▸ fun _ _ hknown => hknown
  | abandon hfails => simp [hmode] at hfails

/-- What is known to have been there is not made, and what was made stays made. -/
theorem Step.made (hstep : Step asked mode now next) (hmode : mode.fails = false) (h : now.Sound)
    (hanswer : now.answer declaration = some definition) :
    (declaration, definition) ∈ next.made ↔ (declaration, definition) ∈ now.made := by
  have hnew {top : Declaration} {found : Definition} {rest : InFlight}
      (hstack : now.stack = (top, none) :: rest) :
      (declaration, definition) ∈ (top, found) :: now.made ↔
        (declaration, definition) ∈ now.made := by
    refine ⟨fun hmem => (List.mem_cons.mp hmem).resolve_left fun heq => ?_,
      List.mem_cons_of_mem _⟩
    cases heq
    have hmemo := h.unfinished (declaration, none) (by simp [hstack])
    simp [answer, hstack, hmemo] at hanswer
  cases hstep with
  | quiet | load | enter | locate | confirm | amend | remember | hide | graft => exact Iff.rfl
  | makeModule hstack => exact hnew hstack
  | create hstack => exact hnew hstack
  | abandon hfails => simp [hmode] at hfails

/-- A resolution leaves the bodies of methods alone. -/
theorem Step.keepsBodies (hstep : Step asked mode now next) (hmode : mode.grafts = false)
    (h : now.Sound) : now.defs.KeepsBodies next.defs := by
  cases hstep with
  | @quiet world hits hquiet hslots =>
      simpa [hquiet.defs] using Definitions.KeepsBodies.refl now.defs
  | load hstack hasked hname hnone hload => exact (Task.load_ok h.source h.held hload).1.keepsBodies
  | enter | locate | confirm | remember | abandon => exact Definitions.KeepsBodies.refl _
  | @makeModule id rest name =>
      exact (Definitions.makeModule_makes now.defs { name }).keepsBodies
  | create _ _ _ _ _ _ _ _ _ hadds => exact hadds.keepsBodies
  | amend hstack hasked hwritable hstated hchanges => exact hchanges.keepsBodies fun _ => rfl
  | hide _ _ _ _ _ _ _ _ _ _ _ hadds => exact hadds.keepsBodies
  | graft hgrafts => simp [hmode] at hgrafts

/-- Unless methods may be hidden none is. -/
theorem Step.hidden_eq (hstep : Step asked mode now next) (hmode : mode.hides = false) :
    next.hidden = now.hidden := by
  cases hstep with
  | hide hhides => simp [hmode] at hhides
  | quiet | load | enter | makeModule | create | locate | confirm | amend | remember | abandon
  | graft => rfl

/-! ## Runs -/

/-- What may happen in a stricter mode may happen in a laxer one. -/
theorem Step.weaken {mode' : Mode} (hfails : mode.fails = true → mode'.fails = true)
    (hhides : mode.hides = true → mode'.hides = true)
    (hgrafts : mode.grafts = true → mode'.grafts = true) (hstep : Step asked mode now next) :
    Step asked mode' now next := by
  cases hstep with
  | quiet hquiet hslots =>
      refine .quiet hquiet fun hmode => hslots (Bool.eq_false_iff.mpr fun htrue => ?_)
      simp [hhides htrue] at hmode
  | load hstack hasked hname hnone hload => exact .load hstack hasked hname hnone hload
  | enter hasked hmemo hstack hlets => exact .enter hasked hmemo hstack hlets
  | makeModule hstack hasked hwritable hname hpolicy hnone hmissing =>
      exact .makeModule hstack hasked hwritable hname hpolicy hnone hmissing
  | create hstack hasked hwritable hpolicy hmissing hparent hholder hkind hrenders hadds hbuilds =>
      exact .create hstack hasked hwritable hpolicy hmissing hparent hholder hkind hrenders hadds
        hbuilds
  | locate hstack hasked hpolicy hfound => exact .locate hstack hasked hpolicy hfound
  | confirm hstack hholds hcovers => exact .confirm hstack hholds hcovers
  | amend hstack hasked hwritable hstated hchanges =>
      exact .amend hstack hasked hwritable hstated hchanges
  | remember hstack hconfirmed => exact .remember hstack hconfirmed
  | abandon hmode hstack => exact .abandon (hfails hmode) hstack
  | hide hmode hasked hwritable hmemo hrecord howner hunused hnature hdetails hbody hmembers hadds
      hbuilds =>
      exact .hide (hhides hmode) hasked hwritable hmemo hrecord howner hunused hnature hdetails hbody
        hmembers hadds hbuilds
  | graft hmode hasked hwritable hmemo hchanges =>
      exact .graft (hgrafts hmode) hasked hwritable hmemo hchanges

theorem Run.weaken {mode' : Mode} (hfails : mode.fails = true → mode'.fails = true)
    (hhides : mode.hides = true → mode'.hides = true)
    (hgrafts : mode.grafts = true → mode'.grafts = true) (hrun : Run asked mode now next) :
    Run asked mode' now next :=
  Relation.ReflTransGen.mono (fun _ _ hstep => hstep.weaken hfails hhides hgrafts) _ _ hrun

/-- A property that every step from a sound moment keeps holds after a run. -/
theorem Run.keeps {P : Moment → Prop} (hrun : Run asked mode now next) (hsound : now.Sound)
    (hkeeps : ∀ {now next}, Step asked mode now next → now.Sound → P now → P next)
    (h : P now) : P next := by
  suffices next.Sound ∧ P next from this.2
  induction hrun with
  | refl => exact ⟨hsound, h⟩
  | tail _ hstep ih => exact ⟨hstep.sound ih.1, hkeeps hstep ih.1 ih.2⟩

theorem Run.sound (hrun : Run asked mode now next) (h : now.Sound) : next.Sound :=
  hrun.keeps h (fun hstep _ hsound => hstep.sound hsound) h

theorem Run.later (hrun : Run asked mode now next) (h : now.Sound) : now.Later next :=
  hrun.keeps h (fun hstep hsound hlater => hlater.trans (hstep.later hsound)) (Later.refl now)

theorem Run.answers (hrun : Run asked mode now next) (hmode : mode.fails = false) (h : now.Sound) :
    now.answer.Extends next.answer :=
  hrun.keeps (P := fun later => now.answer.Extends later.answer) h
    (fun hstep hsound hextends _ _ hknown =>
      hstep.answers hmode hsound _ _ (hextends _ _ hknown))
    fun _ _ hknown => hknown

theorem Run.made (hrun : Run asked mode now next) (hmode : mode.fails = false) (h : now.Sound)
    (hanswer : now.answer declaration = some definition) :
    (declaration, definition) ∈ next.made ↔ (declaration, definition) ∈ now.made := by
  suffices next.answer declaration = some definition ∧
      ((declaration, definition) ∈ next.made ↔ (declaration, definition) ∈ now.made) from this.2
  refine hrun.keeps (P := fun later => later.answer declaration = some definition ∧
    ((declaration, definition) ∈ later.made ↔ (declaration, definition) ∈ now.made)) h ?_
    ⟨hanswer, Iff.rfl⟩
  rintro now next hstep hsound ⟨hknown, hmade⟩
  exact ⟨hstep.answers hmode hsound _ _ hknown, (hstep.made hmode hsound hknown).trans hmade⟩

theorem Run.hidden_eq (hrun : Run asked mode now next) (hmode : mode.hides = false) :
    next.hidden = now.hidden := by
  induction hrun with
  | refl => rfl
  | tail _ hstep ih => exact (hstep.hidden_eq hmode).trans ih

theorem Run.keepsBodies (hrun : Run asked mode now next) (hmode : mode.grafts = false)
    (h : now.Sound) : now.defs.KeepsBodies next.defs :=
  hrun.keeps (P := fun later => now.defs.KeepsBodies later.defs) h
    (fun hstep hsound hkeeps => hkeeps.trans (hstep.keepsBodies hmode hsound))
    (Definitions.KeepsBodies.refl _)

end Graft.Moment
