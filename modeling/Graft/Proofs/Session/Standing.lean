import Graft.Proofs.Session.Locating

/-!
# What declarations stand for

`Stands state declaration definition`: the definition is where the declaration says, inside the one
that the declaration around it stands for, and has its name; a method also has its parameters. Every
answer that a session has found stands in this sense, and goes on to stand (`Run.standing`).
-/

namespace Graft

namespace SessionState

/-- Whether a definition is the one that a declaration describes. The signature of a method is
compared under the names that types had, and with the answers that there were, at some time
before. -/
inductive Stands (state : SessionState) : Declaration → Definition → Prop where
  | module {id : DeclId .module} {found : DefId .module}
      (hmodule : state.session.modules.get? (state.world.decls.module id).name = some found) :
      Stands state (.module id) (.module found)
  | member {declaration parent : Declaration} {definition holder : Definition} {record : Record}
      (hparent : state.world.decls.parent? declaration = some parent)
      (hholder : Stands state parent holder) (hmethod : declaration.kind ≠ .method)
      (hmem : definition ∈ state.world.defs.members holder declaration.kind)
      (hrecord : state.world.defs.record? definition = some record)
      (hname : record.nature.name = (state.world.decls.statement declaration).name)
      (hnamespace : parent.kind = .module →
        record.nature.namespaceName = (state.world.decls.statement declaration).namespaceName) :
      Stands state declaration definition
  | method {declaration parent : Declaration} {definition holder : Definition} {record : Record}
      {before : Definitions} {answers : Answers}
      (hparent : state.world.decls.parent? declaration = some parent)
      (hholder : Stands state parent holder) (hmethod : declaration.kind = .method)
      (hmem : definition ∈ state.world.defs.members holder .method)
      (hrecord : state.world.defs.record? definition = some record)
      (hname : record.nature.name = (state.world.decls.statement declaration).name)
      (hbefore : before.Grows state.world.defs)
      (hanswers : ∀ other found, answers other = some found → Stands state other found)
      (hoverload : record.nature.shape.Overloads
        (World.typeNames { state.world with defs := before })
        ((state.world.decls.statement declaration).shape.relink (.fill answers))) :
      Stands state declaration definition

end SessionState

namespace Moment

open SessionState

variable {asked : Declaration → Prop} {mode : Mode} {now next : Moment}
  {declaration : Declaration} {definition : Definition}

/-- What stands goes on to stand. -/
theorem Later.stands (h : now.Later next) (hstands : Stands now.state declaration definition) :
    Stands next.state declaration definition := by
  have hdecls : next.state.world.decls = now.state.world.decls := h.decls
  have hnames (before : Definitions) :
      World.typeNames { now.state.world with defs := before } =
        World.typeNames { next.state.world with defs := before } := by
    simp only [World.typeNames, hdecls]
  induction hstands with
  | module hmodule => exact .module (h.modules _ _ (by rw [hdecls]; exact hmodule))
  | member hparent _ hmethod hmem hrecord hname hnamespace ih =>
      obtain ⟨record, hrecord', hnature, -⟩ := h.grows.kept _ _ hrecord
      exact .member (by rw [hdecls]; exact hparent) ih hmethod (h.grows.mem_members hmem) hrecord'
        (by rw [hnature, hdecls]; exact hname) (by rw [hnature, hdecls]; exact hnamespace)
  | method hparent _ hmethod hmem hrecord hname hbefore _ hoverload ih ihanswers =>
      obtain ⟨record, hrecord', hnature, -⟩ := h.grows.kept _ _ hrecord
      exact .method (by rw [hdecls]; exact hparent) ih hmethod (h.grows.mem_members hmem) hrecord'
        (by rw [hnature, hdecls]; exact hname) (hbefore.trans h.grows) ihanswers
        (by rw [hnature, hdecls, ← hnames]; exact hoverload)

/-- Whether every answer stands. -/
structure Standing (now : Moment) : Prop where
  remembered : ∀ declaration definition,
    now.session.resolved.get? declaration = some definition →
      Stands now.state declaration definition
  located : ∀ declaration definition, (declaration, some definition) ∈ now.stack →
    Stands now.state declaration definition

theorem Standing.answer (h : now.Standing) (hanswer : now.answer declaration = some definition) :
    Stands now.state declaration definition :=
  (cases_of_answer hanswer).elim (h.remembered _ _) (h.located _ _)

/-- What is inside the definition of the declaration around it, and has the declared name, stands.
-/
theorem Standing.matches {parent : Declaration} {holder : Definition} (h : now.Standing)
    (hparent : now.decls.parent? declaration = some parent)
    (hholder : now.answer parent = some holder)
    (hmem : definition ∈ now.defs.members holder declaration.kind)
    (hmatches : now.Matches declaration definition) : Stands now.state declaration definition := by
  obtain ⟨record, hrecord, hname, hnamespace, hoverload⟩ := hmatches
  by_cases hmethod : declaration.kind = .method
  · obtain ⟨record', hrecord', -, hoverload⟩ := hoverload hmethod
    cases hrecord.symm.trans hrecord'
    exact .method hparent (h.answer hholder) hmethod (hmethod ▸ hmem) hrecord hname (.refl _)
      (fun _ _ => h.answer) hoverload
  · exact .member hparent (h.answer hholder) hmethod hmem hrecord hname (hnamespace parent hparent)

/-- What is found stands. -/
theorem Standing.found (h : now.Standing) (hfound : now.Found declaration definition) :
    Stands now.state declaration definition := by
  cases hfound with
  | module hmodule => exact .module hmodule
  | member hparent hholder hkind hmembers hmatches =>
      exact h.matches hparent hholder (hmembers ▸ List.mem_append_right _ List.mem_cons_self)
        hmatches

theorem Step.standing (hstep : Step asked mode now next) (hsound : now.Sound) (h : now.Standing) :
    next.Standing := by
  have hlater := hstep.later hsound
  -- Most steps give no new answers; the three that locate something give one, for the top of the
  -- stack.
  have hkept : (∀ declaration definition,
      next.session.resolved.get? declaration = some definition →
        now.session.resolved.get? declaration = some definition) →
      (∀ declaration definition, (declaration, some definition) ∈ next.stack →
        (declaration, some definition) ∈ now.stack) → next.Standing := fun hresolved hstack =>
    ⟨fun _ _ hmemo => hlater.stands (h.remembered _ _ (hresolved _ _ hmemo)),
      fun _ _ hmem => hlater.stands (h.located _ _ (hstack _ _ hmem))⟩
  have hlocated {top : Declaration} {found : Definition} {rest : InFlight}
      (hresolved : next.session.resolved = now.session.resolved)
      (hnext : next.stack = (top, some found) :: rest) (hstack : now.stack = (top, none) :: rest)
      (hfound : Stands next.state top found) : next.Standing := by
    refine ⟨fun _ _ hmemo => hlater.stands (h.remembered _ _ (hresolved ▸ hmemo)), ?_⟩
    intro other definition hmem
    rw [hnext] at hmem
    rcases List.mem_cons.mp hmem with heq | hmem
    · cases heq
      exact hfound
    · exact hlater.stands (h.located _ _ (by rw [hstack]; exact List.mem_cons_of_mem _ hmem))
  cases hstep with
  | quiet | load | confirm | amend | hide | graft =>
      exact hkept (fun _ _ h => h) fun _ _ h => h
  | enter =>
      refine hkept (fun _ _ h => h) fun other found hmem => ?_
      rcases List.mem_cons.mp hmem with heq | hmem
      · cases heq
      · exact hmem
  | makeModule hstack _ _ hname =>
      exact hlocated rfl rfl hstack (.module (by simp [hname]))
  | create hstack _ _ _ _ hparent hholder hkind hrenders hadds =>
      have hstanding : (now.withDefs _).Standing :=
        ⟨fun _ _ hmemo => hlater.stands (h.remembered _ _ hmemo),
          fun _ _ hmem => hlater.stands (h.located _ _ hmem)⟩
      refine hlocated rfl rfl hstack (hstanding.matches hparent hholder ?_ (hrenders.matches hadds))
      exact (hadds.mem_members hrenders.members).mpr
        (.inr ⟨rfl, hkind.symm, rfl, hsound.has_answer hholder⟩)
  | locate hstack hasked hpolicy hfound =>
      exact hlocated rfl rfl hstack (hlater.stands (h.found hfound))
  | @remember declaration definition rest hstack hconfirmed =>
      have hrest : ∀ entry ∈ rest, entry ∈ now.stack := fun entry hmem => by
        rw [hstack]
        exact List.mem_cons_of_mem _ hmem
      refine ⟨fun other found hmemo => ?_, fun other found hmem =>
        hlater.stands (h.located _ _ (hrest _ hmem))⟩
      obtain ⟨rfl, rfl⟩ | hmemo := Dictionary.of_get?_insert hmemo
      · exact hlater.stands (h.located _ _ (by rw [hstack]; exact List.mem_cons_self))
      · exact hlater.stands (h.remembered _ _ hmemo)
  | abandon hfails hstack =>
      exact hkept (fun _ _ h => h) fun _ _ hmem => by
        rw [hstack]
        exact List.mem_cons_of_mem _ hmem

theorem Run.standing (hrun : Run asked mode now next) (hsound : now.Sound) (h : now.Standing) :
    next.Standing :=
  hrun.keeps hsound (fun hstep hsound h => hstep.standing hsound h) h

end Moment

end Graft
