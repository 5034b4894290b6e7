import Graft.Proofs.Definition.Extensional
import Graft.Proofs.Session.Asking
import Graft.Proofs.Session.Finished
import Graft.Proofs.Session.Reconciling
import Graft.Proofs.Session.Settled

/-!
# Resolving what has been resolved before

A session that is done has left behind a graph that agrees with all declarations (`Finished`). A
later session over the same declarations finds the same definitions again (`Retraces.found`), has
nothing to change (`Step.retraces`), and can fail only by running in a circle
(`Retraces.not_fault`).
-/

namespace Graft.Moment

variable {asked : Declaration → Prop} {mode : Mode} {start again : World} {source source' : SourceId}
  {now next done : Moment} {declaration other parent : Declaration} {definition holder : Definition}
  {detail : Detail} {rest : InFlight} {old : Definition → Prop}

/-! ## What has been confirmed is known -/

/-- Whether all is known that the details speak of which have been confirmed. -/
def Covered (now : Moment) : Prop :=
  ∀ declaration detail, (declaration, detail) ∈ now.confirmed →
    now.Covers ((now.decls.statement declaration).targetsOf detail)
      ((now.decls.statement declaration).slotsOf detail)

theorem Step.covered (hstep : Step asked mode now next) (hfails : mode.fails = false)
    (hsound : now.Sound) (h : now.Covered) : next.Covered := by
  have hlater := hstep.later hsound
  have hanswers := hstep.answers hfails hsound
  have hkept {declaration : Declaration} {detail : Detail}
      (hcovers : now.Covers ((now.decls.statement declaration).targetsOf detail)
        ((now.decls.statement declaration).slotsOf detail)) :
      next.Covers ((next.decls.statement declaration).targetsOf detail)
        ((next.decls.statement declaration).slotsOf detail) := by
    rw [hlater.decls]
    exact ⟨hcovers.settled.mono hanswers, fun slot hmem => hlater.slots slot (hcovers.owned slot hmem)⟩
  intro declaration detail hmem
  cases hstep with
  | confirm hstack hholds hcovers =>
      obtain heq | hmem := List.mem_cons.mp hmem
      · cases heq
        exact hkept hcovers
      · exact hkept (h _ _ hmem)
  | quiet | load | enter | makeModule | create | locate | amend | remember | abandon | hide | graft =>
      exact hkept (h _ _ hmem)

theorem Run.covered (hrun : Run asked mode now next) (hfails : mode.fails = false)
    (hsound : now.Sound) (h : now.Covered) : next.Covered :=
  hrun.keeps hsound (fun hstep hsound h => hstep.covered hfails hsound h) h

/-! ## First of all that fit -/

/-- What comes before the first occurrence of an item comes before every one. -/
theorem subset_of_first {α : Type} {item : α} {front front' back back' : List α}
    (h : front ++ item :: back = front' ++ item :: back') (hnot : item ∉ front) : front ⊆ front' := by
  obtain ⟨more, rfl, -⟩ | ⟨more, rfl, hmore⟩ := List.append_eq_append_iff.mp h
  · exact List.subset_append_left _ _
  · cases more with
    | nil => simp
    | cons first more =>
        cases hmore
        simp at hnot

section First

variable (h : now.Orderly asked start) (hprepared : start.Prepared source asked)
  (hanswer : now.answer declaration = some definition)

include h

/-- The signature of a method that has been found is filled in. -/
theorem Orderly.settled_signature (hanswer : now.answer declaration = some definition)
    (hmethod : declaration.kind = .method) :
    now.answer.SettlesAll (now.decls.statement declaration).shape.targets := by
  cases h.placed _ _ hanswer with
  | module => cases hmethod
  | member _ _ _ hmatches =>
      obtain ⟨_, _, _, _, hoverload⟩ := hmatches
      obtain ⟨_, _, hsettles, -⟩ := hoverload hmethod
      exact hsettles

include hprepared hanswer

/-- Nothing that was made for another declaration fits one that stands for something. -/
theorem Orderly.eq_of_made_fits (hparent : now.decls.parent? declaration = some parent)
    (hholder : now.answer parent = some holder) {made : Definition}
    (hmade : (other, made) ∈ now.made) (hmem : made ∈ now.defs.members holder declaration.kind)
    (hfits : now.Fits declaration made) : made = definition := by
  have hother := h.sound.made _ hmade
  have hasked := h.asked _ _ hanswer
  have hkind : other.kind = declaration.kind :=
    (h.sound.kinds _ _ hother).symm.trans (Definitions.kind_of_mem_members hmem)
  cases h.placed _ _ hother with
  | module => cases declaration <;> first | cases hparent | cases hkind
  | member hparent' hholder' hmem' hmatches =>
      cases h.wellFormed.holder_eq hmem hmem'
      cases h.injective hprepared hholder hholder'
      have hmatches' := (h.fits_iff_matches hprepared hasked (h.settled_signature hanswer)).mp hfits
      cases h.eq_of_parent hprepared hkind hparent' hparent hmatches hmatches'
        (h.asked _ _ hother) hasked
      exact Option.some.inj (hother.symm.trans hanswer)

/-- Where everything that is new was made for a declaration, a declaration stands for the first
definition that fits it. -/
theorem Orderly.first (hcensus : now.Census old) (hhidden : now.hidden = []) :
    now.FirstOld (fun _ => True) declaration definition := by
  intro parent holder hparent hholder
  have hmem : definition ∈ now.defs.members holder declaration.kind := by
    cases h.placed _ _ hanswer with
    | module => cases hparent
    | member hparent' hholder' hmem =>
        cases hparent.symm.trans hparent'
        cases hholder.symm.trans hholder'
        exact hmem
  obtain ⟨front, rest, hmembers, hnot⟩ := List.eq_append_cons_of_mem hmem
  refine ⟨front, rest, hmembers, fun other hother _ hfits => ?_⟩
  have hmem' : other ∈ now.defs.members holder declaration.kind :=
    hmembers ▸ List.mem_append_left _ hother
  obtain hold | ⟨declared, hmade⟩ | ⟨hidden, hmem, -⟩ :=
    hcensus.new other (h.sound.held _ _ _ hmem')
  · -- What is old and fits comes after what the declaration stands for, or nothing old fits.
    by_cases hold' : old definition
    · obtain ⟨front', rest', hmembers', hfirst⟩ :=
        (hcensus.found _ _ hanswer hold').2 parent holder hparent hholder
      exact hfirst other (subset_of_first (hmembers.symm.trans hmembers') hnot hother) hold hfits
    · obtain hold'' | hmade :=
        h.old_or_made hprepared hcensus (concealed_of_nil hhidden) hanswer
      · exact hold' hold''
      · exact (hcensus.missing _ _ hmade).2.2 parent holder hparent hholder other hmem' hold hfits
  · cases h.eq_of_made_fits hprepared hanswer hparent hholder hmade hmem' hfits
    exact hnot hother
  · simp [hhidden] at hmem

end First

/-! ## What an earlier session has left behind -/

/-- Whether a session has resolved everything that may be asked for, with nothing given up. -/
structure Accomplished (asked : Declaration → Prop) (start : World) (done : Moment) : Prop where
  orderly : done.Orderly asked start
  finished : done.Finished
  settled : done.Settled asked
  covered : done.Covered
  first : ∀ declaration definition, done.answer declaration = some definition →
    done.FirstOld (fun _ => True) declaration definition

/-- What a declaration stands for in the end agrees with it, and all that this says is known. -/
theorem Accomplished.confirms (h : Accomplished asked start done)
    (hanswer : done.answer declaration = some definition)
    (hdetail : detail ∈ done.decls.details declaration) :
    done.Confirms declaration definition detail := by
  rw [h.settled.answer_eq] at hanswer
  exact ⟨h.orderly.holds h.finished hanswer hdetail,
    h.covered _ _ (h.finished.confirmed _ _ hanswer detail hdetail)⟩

/-- Whether a session has found nothing but what an earlier one left behind, and has changed
nothing. The source keeps modules under their names. -/
structure Retraces (done : Moment) (kept : Dictionary String (DefId .module)) (now : Moment) :
    Prop where
  pending : ∀ entry ∈ now.stack, ∃ definition, done.answer entry.1 = some definition
  defs : now.defs = done.defs
  decls : now.decls = done.decls
  slots : ∀ slot, (done.world.slot? slot).isSome = true → (now.world.slot? slot).isSome = true
  source : ∃ saves, now.world.source now.session.source = .memory kept saves
  modules : ∀ name module, now.session.modules.get? name = some module →
    done.session.modules.get? name = some module
  answers : now.answer.Extends done.answer
  made : now.made = []

section Retraces

variable {kept : Dictionary String (DefId .module)} (h : Retraces done kept now)

include h

theorem Retraces.completes : done.Completes now :=
  ⟨h.defs.symm, h.decls.symm, h.answers⟩

theorem Retraces.fits_iff : now.Fits declaration definition ↔ done.Fits declaration definition := by
  unfold Fits
  rw [h.defs, h.decls, h.completes.names]

end Retraces

/-! ## Finding the same again -/

section Again

variable {kept : Dictionary String (DefId .module)} (hdone : Accomplished asked start done)
  (hprepared : again.Prepared source' asked) (h : now.Orderly asked again)
  (hretraces : Retraces done kept now)

include hdone h hretraces

omit h in
/-- What a declaration stands for is listed where the declaration says, and fits it. -/
theorem Retraces.listed (hprepared : start.Prepared source asked)
    (hanswer : done.answer declaration = some definition)
    (hparent : now.decls.parent? declaration = some parent)
    (hholder : now.answer parent = some holder) : ∃ front rest,
      now.defs.members holder declaration.kind = front ++ definition :: rest ∧
      now.Fits declaration definition ∧ ∀ other ∈ front, ¬ now.Fits declaration other := by
  have hparent' : done.decls.parent? declaration = some parent := hretraces.decls ▸ hparent
  have hholder' := hretraces.answers _ _ hholder
  obtain ⟨front, rest, hmembers, hfirst⟩ :=
    hdone.first _ _ hanswer parent holder hparent' hholder'
  refine ⟨front, rest, hretraces.defs ▸ hmembers, ?_, fun other hmem hfits => ?_⟩
  · exact hretraces.fits_iff.mpr (hdone.orderly.fits hprepared hanswer hparent')
  · exact hfirst other hmem trivial (hretraces.fits_iff.mp hfits)

include hprepared

/-- What is found is what was found before. -/
theorem Retraces.found (hstart : start.Prepared source asked) (hasked : asked declaration)
    (hfound : now.Found declaration definition) : done.answer declaration = some definition := by
  obtain ⟨known, hmemo⟩ := hdone.settled.remembered _ hasked
  have hanswer := answer_of_remembered hmemo
  cases hfound with
  | module hmodule =>
      cases hdone.orderly.placed _ _ hanswer with
      | module hmodule' =>
          cases (hretraces.modules _ _ (hretraces.decls ▸ hmodule)).symm.trans hmodule'
          exact hanswer
      | member hparent => cases hparent
  | member hparent hholder hkind hmembers hmatches hfirst =>
      have hsettles : declaration.kind = .method →
          now.answer.SettlesAll (now.decls.statement declaration).shape.targets := by
        intro hmethod
        obtain ⟨_, _, _, _, hoverload⟩ := hmatches
        obtain ⟨_, _, hsettles, -⟩ := hoverload hmethod
        exact hsettles
      have hiff (other : Definition) : now.Fits declaration other ↔ now.Matches declaration other :=
        h.fits_iff_matches hprepared hasked hsettles
      obtain ⟨front, rest, hmembers', hfits, hnone⟩ :=
        hretraces.listed hdone hstart hanswer hparent hholder
      cases eq_of_first hmembers hmembers' ((hiff _).mpr hmatches) hfits
        (fun other hmem hfits => hfirst other hmem ((hiff other).mp hfits)) hnone
      exact hanswer

/-- Nothing is missing. -/
theorem Retraces.not_missing (hstart : start.Prepared source asked) (hasked : asked declaration)
    (hkept : ∀ id found, done.answer (.module id) = some (.module found) →
      kept.get? (done.decls.module id).name = some found)
    (hsettles : now.answer.SettlesAll (now.decls.statement declaration).shape.targets) :
    ¬ now.Missing declaration := by
  obtain ⟨known, hmemo⟩ := hdone.settled.remembered _ hasked
  have hanswer := answer_of_remembered hmemo
  intro hmissing
  cases hmissing with
  | module hname hnone hload =>
      have hkind := hdone.orderly.sound.kinds _ _ hanswer
      cases known with
      | module found =>
          obtain ⟨saves, hsource⟩ := hretraces.source
          have hmodule := hkept _ _ hanswer
          rw [← hretraces.decls, hname] at hmodule
          rw [Task.load_memory hsource, hmodule] at hload
          cases hload
      | type | field | method | property | event => cases hkind
  | member hparent hholder hnone =>
      obtain ⟨front, rest, hmembers, hfits, -⟩ :=
        hretraces.listed hdone hstart hanswer hparent hholder
      refine hnone known (hmembers ▸ List.mem_append_right _ List.mem_cons_self) ?_
      exact (h.fits_iff_matches hprepared hasked fun _ => hsettles).mp hfits

omit h hprepared in
/-- What a declaration states has been written already. -/
theorem Retraces.amends_nothing (hanswer : done.answer declaration = some definition)
    {amendment : Amendment} (hstated : amendment.Stated now declaration definition) :
    definition.kind ≠ .module ∧ ∀ record, now.defs.record? definition = some record →
      record.alter (amendment.apply ·) = record := by
  have hkind := hdone.orderly.sound.kinds _ _ hanswer
  -- What was confirmed in the first session holds in the later one as well.
  have hholds {detail : Detail} (hdetail : detail ∈ now.decls.details declaration)
      (hsettles : now.answer.SettlesAll ((now.decls.statement declaration).targetsOf detail)) :
      now.Holds declaration definition detail := by
    rw [hretraces.decls] at hdetail
    exact hretraces.completes.holds_back (hdone.confirms hanswer hdetail).holds hsettles
  cases amendment with
  | flags value =>
      obtain ⟨scheme, declared, record, hscheme, hdeclared, hrecord, rfl⟩ := hstated
      have hdetail : .flags ∈ now.decls.details declaration := mem_details_flags hscheme
      refine ⟨hkind ▸ Declarations.mem_details.mp hdetail, fun other hother => ?_⟩
      cases hrecord.symm.trans hother
      obtain ⟨_, hother, hflags⟩ := hholds hdetail Answers.settlesAll_nil
      cases hrecord.symm.trans hother
      simp only [Record.alter, Amendment.apply, hflags scheme declared hscheme hdeclared]
  | base type =>
      obtain ⟨_, -, -, -, hmade⟩ := hstated
      simp [hretraces.made] at hmade
  | generics params =>
      obtain ⟨_, -, -, -, hmade⟩ := hstated
      simp [hretraces.made] at hmade
  | interface type =>
      obtain ⟨front, declared, others, hsplit, hsettles, -, -, hnot⟩ := hstated
      have hdetail : .interface declared ∈ now.decls.details declaration :=
        Declarations.mem_details.mpr (by simp [hsplit])
      exact absurd (hholds hdetail hsettles) hnot
  | override added =>
      obtain ⟨front, declared, others, hsplit, hsettles, -, -, hnot⟩ := hstated
      have hdetail : .override declared ∈ now.decls.details declaration :=
        Declarations.mem_details.mpr (by simp [hsplit])
      exact absurd (hholds hdetail hsettles) hnot
  | accessor role method =>
      obtain ⟨front, declared, others, hsplit, hmethod, -⟩ := hstated
      have hdetail : .accessor role declared ∈ now.decls.details declaration :=
        Declarations.mem_details.mpr (by simp [hsplit])
      have hsettles : now.answer.SettlesAll
          ((now.decls.statement declaration).targetsOf (.accessor role declared)) := by
        intro target hmem
        cases List.mem_singleton.mp hmem
        exact ⟨_, hmethod, rfl⟩
      obtain ⟨record, hrecord, linked, hlinked, hmem⟩ := hholds hdetail hsettles
      cases hmethod.symm.trans hlinked
      refine ⟨fun hmodule => ?_, fun other hother => ?_⟩
      · rw [hkind] at hmodule
        cases declaration <;> cases hmodule
        cases front <;> cases hsplit
      · cases hrecord.symm.trans hother
        have hplays : record.details.accessors.plays role method = true := by
          simpa [Accessors.plays] using hmem
        simp only [Record.alter, Amendment.apply, Accessors.link, hplays, if_true]

/-- Every step of the later session finds what is there and changes nothing. -/
theorem Step.retraces (hstep : Step asked {} now next) (hstart : start.Prepared source asked)
    (hkept : ∀ id found, done.answer (.module id) = some (.module found) →
      kept.get? (done.decls.module id).name = some found) : Retraces done kept next := by
  obtain ⟨saves, hsource⟩ := hretraces.source
  -- No step but `enter` puts another declaration on the stack.
  have hpending {stack : InFlight} (hsubset : stack.map Prod.fst ⊆ now.stack.map Prod.fst) :
      ∀ entry ∈ stack, ∃ definition, done.answer entry.1 = some definition := by
    intro entry hmem
    obtain ⟨other, hother, heq⟩ := List.mem_map.mp (hsubset (List.mem_map_of_mem hmem))
    exact heq ▸ hretraces.pending other hother
  cases hstep with
  | @quiet world hits hquiet =>
      have hsources : world.source now.session.source = .memory kept saves := by
        rw [World.source, hquiet.sources]
        exact hsource
      exact { hretraces with
        defs := hquiet.defs.trans hretraces.defs
        decls := hquiet.decls.trans hretraces.decls
        slots := fun slot hfilled => hquiet.isSome_slot? (hretraces.slots slot hfilled)
        source := ⟨saves, hsources⟩ }
  | @load id rest name module world hstack hasked hname hnone hload =>
      obtain ⟨known, hmemo⟩ := hdone.settled.remembered _ hasked
      have hanswer := answer_of_remembered hmemo
      rw [Task.load_memory hsource] at hload
      cases hdone.orderly.placed _ _ hanswer with
      | member hparent => cases hparent
      | module hmodule =>
          have hfound := hkept _ _ hanswer
          rw [← hretraces.decls, hname] at hfound hmodule
          rw [hfound] at hload
          cases hload
          refine { hretraces with modules := fun other found hother => ?_ }
          obtain ⟨rfl, rfl⟩ | hother := Dictionary.of_get?_insert hother
          · exact hmodule
          · exact hretraces.modules _ _ hother
  | enter hasked hmemo hstack hlets =>
      obtain ⟨known, hknown⟩ := hdone.settled.remembered _ hasked
      exact { hretraces with
        pending := List.forall_mem_cons.mpr ⟨⟨known, answer_of_remembered hknown⟩, hretraces.pending⟩
        answers := answer_enter hstack ▸ hretraces.answers }
  | makeModule hstack hasked hwritable hname hpolicy hnone hmissing =>
      exact absurd hmissing (hretraces.not_missing hdone hprepared h hstart hasked hkept
        Answers.settlesAll_nil)
  | create hstack hasked hwritable hpolicy hmissing hparent hholder hkind hrenders =>
      exact absurd hmissing (hretraces.not_missing hdone hprepared h hstart hasked hkept
        hrenders.settled)
  | @locate declaration definition rest hstack hasked hpolicy hfound =>
      refine { hretraces with
        pending := hpending (by simp [hstack])
        answers := fun other found hother => ?_ }
      rw [h.sound.answer_locate hstack] at hother
      split at hother
      · rename_i heq
        cases hother
        exact heq ▸ hretraces.found hdone hprepared h hstart hasked hfound
      · exact hretraces.answers _ _ hother
  | confirm => exact { hretraces with }
  | amend hstack hasked hwritable hstated hchanges =>
      have hanswer := hretraces.answers _ _ (h.sound.answer_top hstack)
      obtain ⟨hmodule, hkeeps⟩ := hretraces.amends_nothing hdone hanswer hstated
      cases hchanges.eq_of_keeps hmodule hkeeps
      exact { hretraces with }
  | remember hstack hconfirmed =>
      exact { hretraces with
        pending := hpending (by simp [hstack])
        answers := h.sound.answer_remember hstack ▸ hretraces.answers }
  | abandon hfails => cases hfails
  | hide hhides => cases hhides
  | graft hgrafts => cases hgrafts

/-- The later session fails only if it runs in a circle. -/
theorem Retraces.not_fault (hstart : start.Prepared source asked)
    (hpolicy : ∀ declaration, asked declaration →
      (done.decls.terms declaration).policy ≠ .failIfPresent)
    (hkept : ∀ id found, done.answer (.module id) = some (.module found) →
      kept.get? (done.decls.module id).name = some found)
    {error : Error} (hacyclic : error.Acyclic) : ¬ now.Fault error := by
  have hknown {entry : Declaration × Option Definition} (hmem : entry ∈ now.stack) :
      ∃ definition, done.answer entry.1 = some definition ∧ asked entry.1 := by
    obtain ⟨definition, hanswer⟩ := hretraces.pending entry hmem
    exact ⟨definition, hanswer, hdone.orderly.asked _ _ hanswer⟩
  have htop {top : Declaration} {found : Option Definition} {rest : InFlight}
      (hstack : now.stack = (top, found) :: rest) :
      ∃ definition, done.answer top = some definition ∧ asked top :=
    @hknown (top, found) (hstack ▸ List.mem_cons_self)
  -- What is in flight has been resolved in the first session, and whatever it met there is still
  -- so.
  have hdecls := hretraces.decls
  obtain ⟨saves, hsource⟩ := hretraces.source
  intro hfault
  cases hfault with
  | cyclic => exact hacyclic _ rfl
  | exhausted hcount =>
      refine absurd hcount (Nat.not_lt.mpr ?_)
      rw [← List.length_map Prod.fst]
      refine Declarations.length_le_count h.sound.distinct fun declaration hmem => ?_
      obtain ⟨entry, hentry, rfl⟩ := List.mem_map.mp hmem
      obtain ⟨-, -, hasked⟩ := hknown hentry
      rw [h.decls]
      exact hprepared.living _ hasked
  | unloadable hstack hnone hload herror =>
      rw [Task.load_memory hsource] at hload
      cases hmodule : kept.get? (now.decls.module _).name with
      | none =>
          rw [hmodule] at hload
          cases hload
          exact herror _ rfl
      | some found =>
          rw [hmodule] at hload
          cases hload
  | detached hstack hkind hparent =>
      obtain ⟨definition, hanswer, -⟩ := htop hstack
      obtain ⟨parent, -, -, hparent', -⟩ := hdone.orderly.liesIn hanswer hkind
      rw [hdecls, hparent'] at hparent
      cases hparent
  | gone hstack hmem hgone =>
      obtain ⟨definition, hanswer, -⟩ := htop hstack
      rw [hdecls] at hmem hgone
      obtain ⟨detail, hdetail, htarget⟩ := Declarations.exists_detail_target hmem
      obtain ⟨found, hfound, -⟩ := (hdone.confirms hanswer hdetail).covers.settled _ htarget
      have hliving := hprepared.living _ (hdone.orderly.asked _ _ hfound)
      rw [← h.decls, hdecls, hgone] at hliving
      cases hliving
  | unknown hstack hmem =>
      obtain ⟨definition, hanswer, -⟩ := htop hstack
      rw [hdecls] at hmem
      obtain ⟨detail, hdetail, htarget⟩ := Declarations.exists_detail_target hmem
      exact (hdone.confirms hanswer hdetail).covers.settled .unknown htarget
  | @unowned _ _ _ slot _ _ hstack hmem hnone =>
      obtain ⟨definition, hanswer, -⟩ := htop hstack
      rw [hdecls] at hmem
      obtain ⟨detail, hdetail, hslot⟩ := Declarations.exists_detail_slot hmem
      have hfilled := hretraces.slots _ ((hdone.confirms hanswer hdetail).covers.owned slot hslot)
      simp [hnone] at hfilled
  | missing hstack _ hsettled hmissing | locked hstack _ _ hsettled hmissing =>
      obtain ⟨-, -, hasked⟩ := htop hstack
      exact hretraces.not_missing hdone hprepared h hstart hasked hkept hsettled hmissing
  | present hstack hpresent _ =>
      obtain ⟨-, -, hasked⟩ := htop hstack
      exact hpolicy _ hasked (hdecls ▸ hpresent)
  | lockedDetail hstack _ hdetail hsettled hnot | differs hstack _ hdetail _ hsettled hnot =>
      have hanswer := hretraces.answers _ _ (h.sound.answer_top hstack)
      exact hnot (hretraces.completes.holds_back
        (hdone.confirms hanswer (hdecls ▸ hdetail)).holds hsettled)

end Again

end Graft.Moment
