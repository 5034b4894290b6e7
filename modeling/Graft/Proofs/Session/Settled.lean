import Graft.Proofs.Session.Census

/-!
# After everything has been resolved

Once every declaration that may be asked for is remembered, a session does nothing more but hide
methods and replace bodies (`Step.settled`). What was there before can then be told from what was
made: a declaration stands for something old exactly if something old had its key (`stood_iff`).
-/

namespace Graft.Moment

variable {asked : Declaration → Prop} {mode : Mode} {start : World} {source : SourceId}
  {now next : Moment} {declaration parent : Declaration} {definition holder : Definition}
  {old : Definition → Prop}

/-- Whether every declaration that may be asked for is remembered, and none is being resolved. -/
structure Settled (asked : Declaration → Prop) (now : Moment) : Prop where
  idle : now.stack = []
  remembered : ∀ declaration, asked declaration →
    ∃ definition, now.session.resolved.get? declaration = some definition

theorem Settled.answer_eq (h : now.Settled asked) : now.answer = now.session.resolved.get? :=
  funext fun _ => answer_idle h.idle

/-- Whether hidden methods are new, and no declaration stands for one. -/
structure Concealed (old : Definition → Prop) (now : Moment) : Prop where
  distinct : now.hidden.Nodup
  there : ∀ hidden ∈ now.hidden, now.defs.has (.method hidden) = true
  new : ∀ hidden ∈ now.hidden, ¬ old (.method hidden)
  apart : ∀ hidden ∈ now.hidden, ∀ declaration, now.answer declaration ≠ some (.method hidden)

theorem concealed_of_nil (hhidden : now.hidden = []) : now.Concealed old := by
  constructor <;> simp [hhidden]

/-- A settled session stays settled, and the only new definitions are hidden methods. -/
theorem Step.settled (hstep : Step asked mode now next) (hfails : mode.fails = false)
    (hprepared : start.Prepared source asked) (h : now.Orderly asked start)
    (hsettled : now.Settled asked) (hcensus : now.Census old) (hconcealed : now.Concealed old) :
    next.Settled asked ∧ next.Census old ∧ next.Concealed old := by
  have hlater := hstep.later h.sound
  have hwell := (hstep.orderly hfails hprepared h).wellFormed
  have hidle := hsettled.idle
  -- Without a stack no step can locate anything, so only hiding adds a definition.
  have hremains (hstack : next.stack = now.stack) : next.Settled asked := by
    refine ⟨hstack.trans hidle, fun declaration hasked => ?_⟩
    obtain ⟨definition, hmemo⟩ := hsettled.remembered declaration hasked
    exact ⟨definition, hlater.remembered _ _ hmemo⟩
  have hsame (hhas : ∀ definition, next.defs.has definition = now.defs.has definition)
      (hanswer : next.answer = now.answer) (hhidden : next.hidden = now.hidden) :
      next.Concealed old := by
    refine ⟨hhidden ▸ hconcealed.distinct, fun hidden hmem => ?_, hhidden ▸ hconcealed.new,
      hhidden ▸ hanswer ▸ hconcealed.apart⟩
    rw [hhas]
    exact hconcealed.there hidden (hhidden ▸ hmem)
  cases hstep with
  | @quiet world hits hquiet =>
      have hdefs : world.defs = now.defs := hquiet.defs
      exact ⟨hremains rfl, hcensus.same h hprepared hlater hwell (by simp [hdefs]) (by simp [hdefs])
        rfl rfl rfl, hsame (by simp [hdefs]) rfl rfl⟩
  | @load id rest name module world hstack hasked hname hnone hload =>
      obtain ⟨definition, hmemo⟩ := hsettled.remembered _ hasked
      cases h.placed _ _ (answer_of_remembered hmemo) with
      | module hmodule => simp [hname, hnone] at hmodule
      | member hparent => cases hparent
  | @enter declaration hasked hmemo hstack =>
      obtain ⟨definition, hmemo'⟩ := hsettled.remembered _ hasked
      simp [hmemo] at hmemo'
  | makeModule hstack | create hstack | locate hstack | confirm hstack | amend hstack
  | remember hstack => simp [hidle] at hstack
  | abandon hmode => simp [hfails] at hmode
  | @hide id method hidden owner record made defs hhides hasked hwritable hmemo hrecord howner hunused
      hnature hdetails hbody hmembers hadds =>
      have hfresh : ¬ now.defs.has (.method hidden) = true := by
        simp [Definitions.not_has_iff.mpr (Definitions.record?_eq_none_of_fresh hadds.fresh)]
      refine ⟨hremains rfl, ?_, ?_⟩
      · exact hcensus.adds h hprepared hlater hwell (fun _ _ hknown => hknown) hadds hmembers
          (List.Subset.refl _) (List.subset_cons_self _ _)
          (.inr ⟨hidden, List.mem_cons_self, rfl⟩) (fun _ _ hknown => .inl hknown)
          fun _ _ hmem => .inl hmem
      · constructor
        · exact List.nodup_cons.mpr
            ⟨fun hmem => hfresh (hconcealed.there hidden hmem), hconcealed.distinct⟩
        · refine List.forall_mem_cons.mpr ⟨hadds.has_iff.mpr (.inr rfl), fun other hmem => ?_⟩
          exact hadds.has_iff.mpr (.inl (hconcealed.there other hmem))
        · exact List.forall_mem_cons.mpr ⟨hcensus.not_old hadds.fresh, hconcealed.new⟩
        · refine List.forall_mem_cons.mpr ⟨fun declaration hanswer => hfresh ?_, hconcealed.apart⟩
          exact h.sound.has_answer hanswer
  | graft hgrafts hasked hwritable hmemo hchanges =>
      exact ⟨hremains rfl, hcensus.same h hprepared hlater hwell hchanges.has_eq
        (hchanges.members_eq fun _ => rfl) rfl rfl rfl, hsame hchanges.has_eq rfl rfl⟩

theorem Run.settled (hrun : Run asked mode now next) (hfails : mode.fails = false)
    (hprepared : start.Prepared source asked) (h : now.Orderly asked start)
    (hsettled : now.Settled asked) (hcensus : now.Census old) (hconcealed : now.Concealed old) :
    next.Settled asked ∧ next.Census old ∧ next.Concealed old := by
  suffices next.Orderly asked start ∧ next.Settled asked ∧ next.Census old ∧ next.Concealed old
    from this.2
  refine hrun.keeps (P := fun next => next.Orderly asked start ∧ next.Settled asked ∧
    next.Census old ∧ next.Concealed old) h.sound ?_ ⟨h, hsettled, hcensus, hconcealed⟩
  rintro middle next hstep hsound ⟨horderly, hsettled, hcensus, hconcealed⟩
  exact ⟨hstep.orderly hfails hprepared horderly,
    hstep.settled hfails hprepared horderly hsettled hcensus hconcealed⟩

/-! ## What was there before -/

/-- What a declaration stood for before anything was made: of the old definitions where it says, the
first one with its key. -/
inductive Stood (now : Moment) (old : Definition → Prop) : Declaration → Definition → Prop where
  | module {id : DeclId .module} {found : DefId .module} (hold : old (.module found))
      (hmodule : now.session.modules.get? (now.decls.module id).name = some found) :
      Stood now old (.module id) (.module found)
  | member {declaration parent : Declaration} {definition holder : Definition}
      {front rest : List Definition} (hold : old definition)
      (hparent : now.decls.parent? declaration = some parent)
      (hholder : Stood now old parent holder)
      (hmembers : now.defs.members holder declaration.kind = front ++ definition :: rest)
      (hfits : now.Fits declaration definition)
      (hfirst : ∀ other ∈ front, old other → ¬ now.Fits declaration other) :
      Stood now old declaration definition

/-- A list has only one first element with a property. -/
theorem eq_of_first {α : Type} {P : α → Prop} {items front front' rest rest' : List α}
    {first first' : α} (hitems : items = front ++ first :: rest)
    (hitems' : items = front' ++ first' :: rest') (hfirst : P first) (hfirst' : P first')
    (hfront : ∀ item ∈ front, ¬ P item) (hfront' : ∀ item ∈ front', ¬ P item) :
    first = first' := by
  classical
  have hfind : items.find? (P ·) = some first :=
    List.find?_eq_some_iff_append.mpr ⟨by simpa, front, rest, hitems, by simpa⟩
  have hfind' : items.find? (P ·) = some first' :=
    List.find?_eq_some_iff_append.mpr ⟨by simpa, front', rest', hitems', by simpa⟩
  exact Option.some.inj (hfind.symm.trans hfind')

section Stood

variable (h : now.Orderly asked start) (hprepared : start.Prepared source asked)
  (hcensus : now.Census old)

include h hprepared hcensus

omit hcensus in
/-- What stands for a declaration fits it. -/
theorem Orderly.fits (hanswer : now.answer declaration = some definition)
    (hparent : now.decls.parent? declaration = some parent) : now.Fits declaration definition := by
  cases h.placed _ _ hanswer with
  | module => cases hparent
  | member _ _ _ hmatches =>
      refine (h.fits_iff_matches hprepared (h.asked _ _ hanswer) fun hmethod => ?_).mpr hmatches
      obtain ⟨_, _, _, _, hoverload⟩ := hmatches
      obtain ⟨_, _, hsettles, -⟩ := hoverload hmethod
      exact hsettles

/-- What is old and stands for a declaration inside another one that stood for something old is what
the declaration stood for. -/
theorem Orderly.stood_member (hanswer : now.answer declaration = some definition)
    (hold : old definition) (hparent : now.decls.parent? declaration = some parent)
    (hholder : now.answer parent = some holder) (hstood : now.Stood old parent holder) :
    now.Stood old declaration definition := by
  obtain ⟨front, rest, hmembers, hfirst⟩ :=
    (hcensus.found _ _ hanswer hold).2 parent holder hparent hholder
  exact .member hold hparent hstood hmembers (h.fits hprepared hanswer hparent) hfirst

omit hprepared hcensus in
/-- An old module is what its declaration stood for. -/
theorem Orderly.stood_module {module : DefId .module}
    (hanswer : now.answer declaration = some (.module module)) (hold : old (.module module)) :
    now.Stood old declaration (.module module) := by
  have hkind := h.sound.kinds _ _ hanswer
  cases h.placed _ _ hanswer with
  | module hmodule => exact .module hold hmodule
  | member hparent =>
      cases declaration with
      | module => cases hparent
      | type | field | method | property | event => cases hkind

/-- What is old is what its declaration stood for, if that is so for the type around it. -/
theorem Orderly.stood_of_owner (hanswer : now.answer declaration = some definition)
    (hold : old definition) (htypes : ∀ parent owner, now.answer parent = some (.type owner) →
      definition ∈ now.defs.members (.type owner) declaration.kind → old (.type owner) →
      now.Stood old parent (.type owner)) : now.Stood old declaration definition := by
  by_cases hmodule : declaration.kind = .module
  · have hkind := h.sound.kinds _ _ hanswer
    cases definition with
    | module => exact h.stood_module hanswer hold
    | type | field | method | property | event => simp [hmodule] at hkind; cases hkind
  · obtain ⟨parent, holder, record, hparent, hholder, hmem, -⟩ := h.liesIn hanswer hmodule
    have holdHolder := hcensus.inside _ _ _ hmem hold
    refine h.stood_member hprepared hcensus hanswer hold hparent hholder ?_
    cases holder with
    | module => exact h.stood_module hholder holdHolder
    | type owner => exact htypes parent owner hholder hmem holdHolder
    | field | method | property | event => cases hmem

/-- An old type is what its declaration stood for: by induction on how deep it is nested. -/
theorem Orderly.stood_type {type : DefId .type}
    (hanswer : now.answer declaration = some (.type type)) (hold : old (.type type)) :
    now.Stood old declaration (.type type) := by
  obtain ⟨depth, -, hnests⟩ := h.wellFormed.nested type (h.sound.has_answer hanswer)
  induction hnests generalizing declaration with
  | top houter =>
      refine h.stood_of_owner hprepared hcensus hanswer hold fun parent owner _ hmem _ => ?_
      simp [h.wellFormed.outer?_eq_some hmem] at houter
  | inside houter _ ih =>
      refine h.stood_of_owner hprepared hcensus hanswer hold fun parent owner hholder hmem => ?_
      cases houter.symm.trans (h.wellFormed.outer?_eq_some hmem)
      exact ih hholder

/-- What stands for a declaration is old, or it was made where nothing old had the key. -/
theorem Orderly.old_or_made (hconcealed : now.Concealed old)
    (hanswer : now.answer declaration = some definition) :
    old definition ∨ (declaration, definition) ∈ now.made := by
  obtain hold | ⟨other, hmem⟩ | ⟨hidden, hmem, rfl⟩ :=
    hcensus.new definition (h.sound.has_answer hanswer)
  · exact .inl hold
  · cases h.injective hprepared hanswer (h.sound.made _ hmem)
    exact .inr hmem
  · exact absurd hanswer (hconcealed.apart hidden hmem declaration)

/-- Where everything is remembered, a declaration stands for something old exactly if it stood for
that before. -/
theorem Orderly.stood_iff (hconcealed : now.Concealed old) (hsettled : now.Settled asked)
    (hclosed : now.decls.Closed asked) (hasked : asked declaration) :
    now.Stood old declaration definition ↔
      now.session.resolved.get? declaration = some definition ∧ old definition := by
  constructor
  · intro hstood
    induction hstood with
    | @module id found hold hmodule =>
        obtain ⟨definition, hmemo⟩ := hsettled.remembered _ hasked
        cases h.placed _ _ (answer_of_remembered hmemo) with
        | module hmodule' =>
            cases hmodule.symm.trans hmodule'
            exact ⟨hmemo, hold⟩
        | member hparent => cases hparent
    | @member declaration parent definition holder front rest hold hparent _ hmembers hfits hfirst
        ih =>
        obtain ⟨hholder, -⟩ := ih (hclosed.parent _ _ hasked hparent)
        replace hholder := answer_of_remembered hholder
        obtain ⟨found, hmemo⟩ := hsettled.remembered _ hasked
        have hanswer := answer_of_remembered hmemo
        obtain hold' | hmade := h.old_or_made hprepared hcensus hconcealed hanswer
        · obtain ⟨front', rest', hmembers', hfirst'⟩ :=
            (hcensus.found _ _ hanswer hold').2 parent holder hparent hholder
          have hfits' := h.fits hprepared hanswer hparent
          cases eq_of_first (P := fun other => old other ∧ now.Fits declaration other) hmembers'
            hmembers ⟨hold', hfits'⟩ ⟨hold, hfits⟩
            (fun other hmem ⟨hold, hfits⟩ => hfirst' other hmem hold hfits)
            fun other hmem ⟨hold, hfits⟩ => hfirst other hmem hold hfits
          exact ⟨hmemo, hold'⟩
        · obtain ⟨-, -, hnone⟩ := hcensus.missing _ _ hmade
          refine absurd hfits (hnone parent holder hparent hholder definition ?_ hold)
          simp [hmembers]
  · rintro ⟨hmemo, hold⟩
    exact h.stood_of_owner hprepared hcensus (answer_of_remembered hmemo) hold
      fun parent owner hholder _ => h.stood_type hprepared hcensus hholder

end Stood

end Graft.Moment
