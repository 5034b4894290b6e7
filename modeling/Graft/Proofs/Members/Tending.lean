import Graft.Proofs.Members.Amending

/-!
# What becomes of definitions while members are resolved

While members are resolved in a rooted session the details of a definition are changed by the one
member that it stands for, and by nothing else (`Tended`). What has been confirmed about a member
goes on to hold, and so the details of what it stands for are settled once it has been resolved
(`Tended.details_eq`).
-/

namespace Graft

/-- The details with which a definition is found by a member, or is made for it. -/
def SessionState.original (state : SessionState) (declaration : Declaration)
    (definition : Definition) : Details :=
  match state.world.defs.record? definition with
  | some record => record.details
  | none =>
    { flags := (state.world.decls.statement declaration).flags.getD
        (Moment.presetFlags state.world.decls declaration) }

namespace Moment

variable {state : SessionState} {asked : Declaration → Prop} {now next : Moment}
  {declaration : Declaration} {definition : Definition} {detail : Detail} {rest : InFlight}

/-- Whether definitions have been changed by the members that they stand for, and by these only as
they say. -/
structure Tended (state : SessionState) (now : Moment) : Prop where
  amended : ∀ declaration definition, now.answer declaration = some definition →
    state.session.resolved.get? declaration = none →
    ∃ record, now.defs.record? definition = some record ∧
      now.Amended declaration (state.original declaration definition) record.details
  touched : ∀ definition before after, state.world.defs.record? definition = some before →
    now.defs.record? definition = some after → after.details = before.details ∨
      ∃ declaration, now.answer declaration = some definition ∧
        state.session.resolved.get? declaration = none ∧ state.world.decls.Writable declaration
  bare : ∀ declaration definition, (declaration, definition) ∈ now.made →
    ∃ record, now.defs.record? definition = some record ∧ record.body = none
  bodies : state.world.defs.KeepsBodies now.defs
  confirmed : ∀ declaration detail, (declaration, detail) ∈ now.confirmed →
    state.session.resolved.get? declaration = none ∧
      ∃ definition, now.answer declaration = some definition ∧
        now.Confirms declaration definition detail
  remembered : ∀ declaration definition,
    now.session.resolved.get? declaration = some definition →
    state.session.resolved.get? declaration = none →
    ∀ detail ∈ state.world.decls.details declaration, (declaration, detail) ∈ now.confirmed

/-- Nothing has been done yet. -/
theorem tended_start : Tended state { state } where
  amended declaration definition hanswer hmemo := by simp [answer, hmemo] at hanswer
  touched definition before after hbefore hafter := by
    cases hbefore.symm.trans hafter
    exact .inl rfl
  bare := by simp
  bodies := .refl _
  confirmed := by simp
  remembered declaration definition hknown hmemo := by simp [hmemo] at hknown

/-- What holds goes on to hold as long as the details that it can be read off stay. -/
theorem Resolving.holds_later (h : Resolving state asked now) (hnext : Resolving state asked next)
    (hlater : now.Later next) (hanswers : now.answer.Extends next.answer)
    (hholds : now.Holds declaration definition detail)
    (hsurvives : ∀ record record', now.defs.record? definition = some record →
      next.defs.record? definition = some record' →
      detail.Survives record.details record'.details) :
    next.Holds declaration definition detail := by
  have hnames : next.world.typeNames = now.world.typeNames := hnext.names.trans h.names.symm
  refine hholds.carry hlater hanswers ?_ ?_ hsurvives
  · exact fun _ _ => hnames ▸ TypeNames.agree_refl
  · exact fun _ _ _ => hnames ▸ TypeNames.agree_refl

theorem Confirms.later (h : now.Confirms declaration definition detail) (hlater : now.Later next)
    (hanswers : now.answer.Extends next.answer) (hholds : next.Holds declaration definition detail) :
    next.Confirms declaration definition detail := by
  refine ⟨hholds, ?_⟩
  rw [hlater.decls]
  exact ⟨h.covers.settled.mono hanswers, fun slot hmem => hlater.slots slot (h.covers.owned slot hmem)⟩

/-! ## One step -/

/-- What becomes of definitions where the details of none is changed. -/
theorem Tended.onward (h : Resolving state asked now) (hnext : Resolving state asked next)
    (htended : Tended state now) (hlater : now.Later next)
    (hanswers : now.answer.Extends next.answer) (hdetails : now.defs.KeepsDetails next.defs)
    (hbodies : now.defs.KeepsBodies next.defs)
    (hnew : ∀ declaration definition, next.answer declaration = some definition →
      state.session.resolved.get? declaration = none → now.answer declaration = some definition ∨
        ∃ record, next.defs.record? definition = some record ∧
          record.details = state.original declaration definition)
    (hmade : ∀ declaration definition, (declaration, definition) ∈ next.made →
      (declaration, definition) ∈ now.made ∨
        ∃ record, next.defs.record? definition = some record ∧ record.body = none)
    (hconfirmed : ∀ declaration detail, (declaration, detail) ∈ next.confirmed →
      (declaration, detail) ∈ now.confirmed ∨ state.session.resolved.get? declaration = none ∧
        ∃ definition, next.answer declaration = some definition ∧
          next.Confirms declaration definition detail)
    (hremembered : ∀ declaration definition,
      next.session.resolved.get? declaration = some definition →
      state.session.resolved.get? declaration = none →
      now.session.resolved.get? declaration = some definition ∨
        ∀ detail ∈ state.world.decls.details declaration, (declaration, detail) ∈ next.confirmed) :
    Tended state next where
  amended declaration definition hanswer hmemo := by
    obtain hanswer | ⟨record, hrecord, hsame⟩ := hnew declaration definition hanswer hmemo
    · obtain ⟨record, hrecord, hamended⟩ := htended.amended declaration definition hanswer hmemo
      obtain ⟨record', hrecord', hsame⟩ := hdetails _ _ hrecord
      refine ⟨record', hrecord', ?_⟩
      rw [hsame]
      exact hamended.mono hlater.decls (hnext.names.trans h.names.symm) hanswers
    · exact ⟨record, hrecord, hsame ▸ Amended.refl next declaration _⟩
  touched definition before after hbefore hafter := by
    obtain ⟨record, hrecord, -⟩ := h.grows.kept _ _ hbefore
    rw [hdetails.details_eq hrecord hafter]
    refine (htended.touched definition before record hbefore hrecord).imp_right ?_
    rintro ⟨declaration, hanswer, hmemo⟩
    exact ⟨declaration, hanswers _ _ hanswer, hmemo⟩
  bare declaration definition hmem := by
    obtain hmem | hnew := hmade declaration definition hmem
    · obtain ⟨record, hrecord, hbare⟩ := htended.bare declaration definition hmem
      obtain ⟨record', hrecord', hsame⟩ := hbodies _ _ hrecord
      exact ⟨record', hrecord', hsame.trans hbare⟩
    · exact hnew
  bodies := htended.bodies.trans hbodies
  confirmed declaration detail hmem := by
    obtain hmem | hnew := hconfirmed declaration detail hmem
    · obtain ⟨hmemo, definition, hanswer, hconfirms⟩ := htended.confirmed declaration detail hmem
      refine ⟨hmemo, definition, hanswers _ _ hanswer, hconfirms.later hlater hanswers ?_⟩
      refine h.holds_later hnext hlater hanswers hconfirms.holds fun record record' hrecord hrecord' => ?_
      rw [hdetails.details_eq hrecord hrecord']
      exact detail.survives_self _
    · exact hnew
  remembered declaration definition hknown hmemo := by
    obtain hknown | hnew := hremembered declaration definition hknown hmemo
    · exact fun detail hmem =>
        hlater.confirmed _ (htended.remembered declaration definition hknown hmemo detail hmem)
    · exact hnew

/-- The details of the definition of the innermost member are changed, and of no other one. -/
theorem Tended.amend {amendment : Amendment} {defs : Definitions} (hrooted : state.Rooted asked)
    (h : Resolving state asked now) (hnext : Resolving state asked (now.withDefs defs))
    (htended : Tended state now) (hstack : now.stack = (declaration, some definition) :: rest)
    (hwritable : now.decls.Writable declaration)
    (hstated : amendment.Stated now declaration definition)
    (hchanges : now.defs.Changes defs definition (Record.alter (amendment.apply ·))) :
    Tended state (now.withDefs defs) := by
  obtain ⟨hasked, hmember, hmemo⟩ := (hstack ▸ h.nested).top
  have htop := h.sound.answer_top hstack
  have hlater : now.Later (now.withDefs defs) :=
    Later.withDefs (hchanges.grows (fun _ => rfl) fun _ => rfl)
  have hnames : (now.withDefs defs).world.typeNames = now.world.typeNames :=
    hnext.names.trans h.names.symm
  have hother {found : Definition} (hne : found ≠ definition) :
      defs.record? found = now.defs.record? found := by
    rw [hchanges.record?, if_neg hne]
  -- No two declarations that are resolved here share a definition, so one may not undo what another
  -- one asks for.
  have hsole {other : Declaration} (hanswer : now.answer other = some definition)
      (hmemo' : state.session.resolved.get? other = none) : other = declaration :=
    h.injective hrooted hanswer htop hmemo' hmemo
  constructor
  · intro other found hanswer hmemo'
    obtain ⟨record, hrecord, hamended⟩ := htended.amended other found hanswer hmemo'
    by_cases heq : found = definition
    · subst heq
      cases hsole hanswer hmemo'
      refine ⟨record.alter (amendment.apply ·), by simp [hchanges.record?, hrecord], ?_⟩
      have hmore := hamended.amend hrecord hmember hstated fun detail hmem => by
        obtain ⟨-, found, hfound, hconfirms⟩ := htended.confirmed _ detail hmem
        cases hfound.symm.trans htop
        exact hconfirms.holds
      exact hmore.mono rfl hnames fun _ _ hknown => hknown
    · exact ⟨record, (hother heq).trans hrecord, hamended.mono rfl hnames fun _ _ hknown => hknown⟩
  · intro found before after hbefore hafter
    by_cases heq : found = definition
    · subst heq
      exact .inr ⟨declaration, htop, hmemo, h.decls ▸ hwritable⟩
    · exact htended.touched found before after hbefore ((hother heq).symm.trans hafter)
  · intro other found hmem
    obtain ⟨record, hrecord, hbare⟩ := htended.bare other found hmem
    obtain ⟨record', hrecord', hsame⟩ := hchanges.keepsBodies (fun _ => rfl) _ _ hrecord
    exact ⟨record', hrecord', hsame.trans hbare⟩
  · exact htended.bodies.trans (hchanges.keepsBodies fun _ => rfl)
  · intro other detail hmem
    obtain ⟨hmemo', found, hanswer, hconfirms⟩ := htended.confirmed other detail hmem
    refine ⟨hmemo', found, hanswer, hconfirms.later hlater (fun _ _ hknown => hknown) ?_⟩
    by_cases heq : found = definition
    · subst heq
      cases hsole hanswer hmemo'
      exact hconfirms.holds.amend hstated hchanges
        (h.holds_later hnext hlater (fun _ _ hknown => hknown) hconfirms.holds)
    · refine h.holds_later hnext hlater (fun _ _ hknown => hknown) hconfirms.holds
        fun record record' hrecord hrecord' => ?_
      cases hrecord.symm.trans ((hother heq).symm.trans hrecord')
      exact detail.survives_self _
  · exact htended.remembered

/-- Only the details of what a member stands for are changed, and only to what it says. -/
theorem Step.tended (hrooted : state.Rooted asked) (h : Resolving state asked now)
    (htended : Tended state now) (hstep : Step asked {} now next) : Tended state next := by
  have hnext := hstep.resolving hrooted h
  have hlater := hstep.later h.sound
  have hanswers := hstep.answers rfl h.sound
  have hbodies := hstep.keepsBodies rfl h.sound
  have hidle (hanswer : next.answer = now.answer) (hmade : next.made = now.made)
      (hconfirmed : next.confirmed = now.confirmed)
      (hresolved : next.session.resolved = now.session.resolved)
      (hdetails : now.defs.KeepsDetails next.defs) : Tended state next :=
    htended.onward h hnext hlater hanswers hdetails hbodies (fun _ _ hknown _ => .inl (hanswer ▸ hknown))
      (fun _ _ hmem => .inl (hmade ▸ hmem)) (fun _ _ hmem => .inl (hconfirmed ▸ hmem))
      fun _ _ hknown _ => .inl (hresolved ▸ hknown)
  cases hstep with
  | @quiet world hits hquiet =>
      have hdefs : world.defs = now.defs := hquiet.defs
      exact hidle rfl rfl rfl rfl (by simpa [hdefs] using Definitions.KeepsDetails.refl now.defs)
  | load hstack | makeModule hstack =>
      have hmember := (hstack ▸ h.nested).top.2.1
      simp [Declaration.kind, SymbolKind.isScope] at hmember
  | enter _ _ hstack => exact hidle (answer_enter hstack) rfl rfl rfl (.refl _)
  | @create declaration parent rest holder made record defs hstack hasked hwritable hpolicy hmissing
      hparent hholder hkind hrenders hadds =>
      have hfresh : state.world.defs.record? made = none := by
        refine Definitions.not_has_iff.mp (Bool.eq_false_iff.mpr fun hhas => ?_)
        exact Definitions.ne_of_has_of_fresh (h.grows.has hhas) hadds.fresh rfl
      refine htended.onward h hnext hlater hanswers hadds.keepsDetails hbodies ?_ ?_
        (fun _ _ hmem => .inl hmem) fun _ _ hknown _ => .inl hknown
      · intro other found hanswer _
        have hlocate : ((now.withDefs defs).withStack ((declaration, some made) :: rest)).answer
            other = _ := h.sound.answer_locate hstack other
        rw [withMade_answer, hlocate] at hanswer
        split at hanswer
        · cases hanswer
          subst other
          refine .inr ⟨record, hadds.record_made, ?_⟩
          rw [SessionState.original, hfresh, hrenders.details, hrenders.flags, h.decls]
        · exact .inl hanswer
      · intro other found hmem
        obtain heq | hmem := List.mem_cons.mp hmem
        · cases heq
          exact .inr ⟨record, hadds.record_made, hrenders.body⟩
        · exact .inl hmem
  | @locate declaration definition rest hstack hasked hpolicy hfound =>
      obtain ⟨-, hmember, hmemo⟩ := (hstack ▸ h.nested).top
      have hnone := h.sound.answer_pending hstack
      refine htended.onward h hnext hlater hanswers (.refl _) hbodies ?_ (fun _ _ hmem => .inl hmem)
        (fun _ _ hmem => .inl hmem) fun _ _ hknown _ => .inl hknown
      intro other found hanswer _
      have htop : (now.withStack ((declaration, some definition) :: rest)).answer declaration =
          some definition := by
        rw [h.sound.answer_locate hstack, if_pos rfl]
      rw [h.sound.answer_locate hstack] at hanswer
      split at hanswer
      · cases hanswer
        subst other
        have hfinds := h.finds?_of_found hrooted hasked hmember hmemo hnone hfound
        obtain ⟨_, before, -, -, hbefore, -⟩ := SessionState.exists_of_finds? hfinds hmemo
        obtain ⟨after, hafter, -⟩ := h.grows.kept _ _ hbefore
        refine .inr ⟨after, hafter, ?_⟩
        rw [SessionState.original, hbefore]
        obtain hsame | ⟨other, hother, hmemo', -⟩ :=
          htended.touched definition before after hbefore hafter
        · exact hsame
        -- Nothing has been done to it yet, as it stands for no other member.
        · cases hnext.injective hrooted (hanswers _ _ hother) htop hmemo' hmemo
          simp [hnone] at hother
      · exact .inl hanswer
  | @confirm declaration definition rest detail hstack hholds hcovers =>
      refine htended.onward h hnext hlater hanswers (.refl _) hbodies (fun _ _ hknown _ => .inl hknown)
        (fun _ _ hmem => .inl hmem) ?_ fun _ _ hknown _ => .inl hknown
      intro other detail' hmem
      obtain heq | hmem := List.mem_cons.mp hmem
      · cases heq
        exact .inr ⟨(hstack ▸ h.nested).top.2.2, definition, h.sound.answer_top hstack,
          hholds.mono rfl hanswers, ⟨hcovers.settled, hcovers.owned⟩⟩
      · exact .inl hmem
  | amend hstack hasked hwritable hstated hchanges =>
      exact htended.amend hrooted h hnext hstack hwritable hstated hchanges
  | @remember declaration definition rest hstack hconfirmed =>
      have hanswer := h.sound.answer_remember hstack
      refine htended.onward h hnext hlater hanswers (.refl _) hbodies
        (fun _ _ hknown _ => .inl (hanswer ▸ hknown)) (fun _ _ hmem => .inl hmem)
        (fun _ _ hmem => .inl hmem) ?_
      intro other found hknown hmemo
      obtain ⟨rfl, -⟩ | hknown := Dictionary.of_get?_insert hknown
      · exact .inr (h.decls ▸ hconfirmed)
      · exact .inl hknown
  | abandon hfails | hide hfails | graft hfails => cases hfails

theorem Run.tended (hrooted : state.Rooted asked) (hrun : Run asked {} { state } now) :
    Resolving state asked now ∧ Tended state now :=
  hrun.keeps (P := fun now => Resolving state asked now ∧ Tended state now) hrooted.sound
    (fun hstep _ ⟨h, htended⟩ => ⟨hstep.resolving hrooted h, hstep.tended hrooted h htended⟩)
    ⟨resolving_start hrooted, tended_start⟩

end Moment

end Graft
