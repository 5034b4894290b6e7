import Graft.Proofs.Members.Twins

/-!
# What succeeds in one order fails in no other one

A member that was resolved at one moment is resolved at no other one with a failure: whatever could
be wrong then would have been wrong before (`Completed.not_fault`), as a member finds the same at
all moments and what was there before it agrees with it at one moment if it does at another.
-/

namespace Graft.Moment

variable {state : SessionState} {asked : Declaration → Prop} {left right now done : Moment}
  {declaration : Declaration} {definition : Definition} {detail : Detail} {rest : InFlight}

/-- What was there before and does not change at all agrees with a member or not, whatever has been
resolved. -/
theorem Resolving.holds_fixed (hleft : Resolving state asked left)
    (hright : Resolving state asked right) (hhas : state.world.defs.has definition = true)
    (hmember : declaration.kind.isScope = false) (hfixed : detail.Fixed)
    (hsettled : right.answer.SettlesAll ((right.decls.statement declaration).targetsOf detail))
    (hholds : left.Holds declaration definition detail) :
    right.Holds declaration definition detail := by
  obtain ⟨before, hbefore⟩ := Definitions.has_iff.mp hhas
  obtain ⟨record, hrecord, hnature, -⟩ := hleft.grows.kept _ _ hbefore
  obtain ⟨record', hrecord', hnature', -⟩ := hright.grows.kept _ _ hbefore
  obtain ⟨hbase, hinterfaces, hgenerics⟩ := right.decls.statement_of_member hmember
  obtain ⟨_, hother, hholds⟩ := hholds
  cases hrecord.symm.trans hother
  refine ⟨record', hrecord', ?_⟩
  dsimp only at hholds ⊢
  cases detail with
  | base => simp [hbase]
  | generics => simp [hgenerics]
  | flags | interface | override | accessor => exact hfixed.elim
  | signature | overload | result =>
      refine ⟨hsettled, ?_⟩
      have hagrees := hholds.2
      rw [hleft.shape_eq, hleft.names, hnature] at hagrees
      rw [hright.shape_eq, hright.names, hnature']
      exact hagrees

/-- What agrees with a member at one moment does so at another one, if its details are the same. -/
theorem Resolving.holds_kept (hrooted : state.Rooted asked) (hleft : Resolving state asked left)
    (hright : Resolving state asked right) (hasked : asked declaration)
    (hmember : declaration.kind.isScope = false)
    (hdetail : detail ∈ state.world.decls.details declaration) {before record record' : Record}
    (hbefore : state.world.defs.record? definition = some before)
    (hrecord : left.defs.record? definition = some record)
    (hrecord' : right.defs.record? definition = some record')
    (hsame : record.details = before.details) (hsame' : record'.details = before.details)
    (hsettled : right.answer.SettlesAll ((right.decls.statement declaration).targetsOf detail))
    (hholds : left.Holds declaration definition detail) :
    right.Holds declaration definition detail := by
  have hparallel := hleft.parallel hrooted hright
  have hhas : state.world.defs.has definition = true := Definitions.has_iff.mpr ⟨before, hbefore⟩
  -- Only flags, overrides and accessors may be changed, and of these the details say all.
  by_cases hfixed : detail.Fixed
  · exact hleft.holds_fixed hright hhas hmember hfixed hsettled hholds
  have hnature := hleft.grows.nature_eq hbefore hrecord
  have hnature' := hright.grows.nature_eq hbefore hrecord'
  cases detail with
  | base | generics | signature | overload | result => exact absurd trivial hfixed
  | flags =>
      obtain ⟨_, hother, hflags⟩ := hholds
      cases hrecord.symm.trans hother
      refine ⟨record', hrecord', ?_⟩
      dsimp only at hflags ⊢
      rw [hright.decls, hsame', hnature']
      rwa [hleft.decls, hsame, hnature] at hflags
  | interface type =>
      rw [Declarations.mem_details] at hdetail
      simp [(state.world.decls.statement_of_member hmember).2.1] at hdetail
  | override override =>
      rw [Declarations.mem_details] at hdetail
      obtain ⟨hsettles, hany⟩ := (holds_override hrecord).mp hholds
      refine (holds_override hrecord').mpr ⟨hsettled, ?_⟩
      rw [hsame, hleft.names, List.any_eq_true] at hany
      obtain ⟨existing, hmem, hlike⟩ := hany
      have hlinked (id : DefId .method) (hid : .definition (.method id) ∈ existing.targets) :
          state.world.defs.Issued (.method id) := by
        exact hrooted.linked definition before _ hbefore (before.details.override_targets hmem hid)
      rw [hsame', hright.names, List.any_eq_true]
      refine ⟨existing, hmem, ?_⟩
      -- The existing override was there from the start, so renaming by twins leaves it as it is.
      have hself : existing.relink (.rename (left.twin right)) = existing :=
        Override.relink_rename_self fun id hid =>
          hparallel.renamed_of_issued (hlinked id hid)
      rw [fill_override hrooted hleft hright hasked hdetail hsettles hsettled, ← hself,
        Override.same_rename, hlike]
      intro id id' hid hid'
      exact hparallel.renamed_injective (hright.parallel hrooted hleft) (.inl (hlinked id hid))
        (shared_fill hrooted hasked hdetail hsettles hsettled hid')
  | accessor role declared =>
      obtain ⟨method, hanswer, hlinked⟩ : ∃ method,
          left.answer (.method declared) = some (.method method) ∧
          (role, method) ∈ record.details.accessors := by
        obtain ⟨_, hother, hlinked⟩ := hholds
        cases hrecord.symm.trans hother
        exact hlinked
      obtain ⟨found, hanswer', hkind⟩ := hsettled _ List.mem_cons_self
      obtain ⟨method', rfl⟩ : ∃ method', found = .method method' := by
        cases found <;> cases hkind
        exact ⟨_, rfl⟩
      rw [hsame] at hlinked
      have hissued : state.world.defs.Issued (.method method) := by
        exact hrooted.linked definition before _ hbefore (before.details.accessor_target hlinked)
      have heq := hparallel.renamed_of_answers hanswer hanswer'
      rw [hparallel.renamed_of_issued hissued] at heq
      exact ⟨record', hrecord', method, heq ▸ hanswer', hsame'.symm ▸ hlinked⟩

/-! ## Everything has been resolved -/

/-- Whether everything that may be asked for has been resolved. -/
structure Completed (state : SessionState) (asked : Declaration → Prop) (done : Moment) : Prop where
  resolving : Resolving state asked done
  tended : Tended state done
  remembered : ∀ declaration, asked declaration →
    ∃ definition, done.session.resolved.get? declaration = some definition

section Completed

variable (hrooted : state.Rooted asked) (hdone : Completed state asked done)

include hdone

/-- What a member stands for once everything has been resolved agrees with it. -/
theorem Completed.confirms (hasked : asked declaration)
    (hmemo : state.session.resolved.get? declaration = none) :
    ∃ definition, done.answer declaration = some definition ∧
      ∀ detail ∈ state.world.decls.details declaration,
        done.Confirms declaration definition detail := by
  obtain ⟨definition, hknown⟩ := hdone.remembered declaration hasked
  have hanswer := answer_of_remembered hknown
  refine ⟨definition, hanswer, fun detail hmem => ?_⟩
  have hconfirmed := hdone.tended.remembered declaration definition hknown hmemo detail hmem
  obtain ⟨-, other, hother, hconfirms⟩ := hdone.tended.confirmed declaration detail hconfirmed
  cases hanswer.symm.trans hother
  exact hconfirms

/-- What a member finds it stands for, unless it says that nothing must be there. -/
theorem Completed.found (hasked : asked declaration)
    (hmemo : state.session.resolved.get? declaration = none)
    (hfinds : state.finds? declaration = some definition) :
    done.answer declaration = some definition ∧
      (state.world.decls.terms declaration).policy ≠ .failIfPresent := by
  obtain ⟨found, hanswer, -⟩ := hdone.confirms hasked hmemo
  obtain hmade | ⟨hfinds', hnew⟩ := hdone.resolving.answered _ _ hanswer
  · simp [(hdone.resolving.supplied _ _ hmade).missing] at hfinds
  · cases hfinds.symm.trans hfinds'
    exact ⟨hanswer, (hnew hmemo).2⟩

/-- A member that finds nothing says that what is missing may be made. -/
theorem Completed.missing (hasked : asked declaration)
    (hmemo : state.session.resolved.get? declaration = none)
    (hfinds : state.finds? declaration = none) : state.world.decls.Writable declaration ∧
      (state.world.decls.terms declaration).policy ≠ .failIfMissing := by
  obtain ⟨found, hanswer, -⟩ := hdone.confirms hasked hmemo
  obtain hmade | ⟨hfinds', -⟩ := hdone.resolving.answered _ _ hanswer
  · have hsupplied := hdone.resolving.supplied _ _ hmade
    exact ⟨hsupplied.writable, hsupplied.policy⟩
  · simp [hfinds] at hfinds'

/-- The type around a member has not gone. -/
theorem Completed.exists_parent (hasked : asked declaration)
    (hmemo : state.session.resolved.get? declaration = none) :
    ∃ parent, state.world.decls.parent? declaration = some parent := by
  have hplaced {holder : Definition} (hholder : state.holder? declaration = some holder) :
      ∃ parent, state.world.decls.parent? declaration = some parent := by
    obtain ⟨parent, hparent, -⟩ := Option.bind_eq_some_iff.mp hholder
    exact ⟨parent, hparent⟩
  obtain ⟨found, hanswer, -⟩ := hdone.confirms hasked hmemo
  obtain hmade | ⟨hfinds, -⟩ := hdone.resolving.answered _ _ hanswer
  · obtain ⟨holder, -, hholder, -⟩ := (hdone.resolving.supplied _ _ hmade).rendered
    exact hplaced hholder
  · obtain ⟨holder, -, hholder, -⟩ := SessionState.exists_of_finds? hfinds hmemo
    exact hplaced hholder

/-- Nothing that a member refers to is of unknown shape, and the owners of all generic variables are
known. -/
theorem Completed.covers (hasked : asked declaration)
    (hmemo : state.session.resolved.get? declaration = none) :
    done.Covers (state.world.decls.statement declaration).targets
      (state.world.decls.statement declaration).slots := by
  obtain ⟨_, -, hconfirms⟩ := hdone.confirms hasked hmemo
  have hdecls : done.decls = state.world.decls := hdone.resolving.decls
  refine ⟨fun target hmem => ?_, fun slot hmem => ?_⟩
  · obtain ⟨detail, hdetail, hmem⟩ := Declarations.exists_detail_target hmem
    exact (hconfirms detail hdetail).covers.settled target (hdecls ▸ hmem)
  · obtain ⟨detail, hdetail, hmem⟩ := Declarations.exists_detail_slot hmem
    exact (hconfirms detail hdetail).covers.owned slot (hdecls ▸ hmem)

end Completed

/-! ## Nothing is wrong -/

/-- What a member that may not be changed stands for is as it was before. -/
theorem Tended.untouched (hrooted : state.Rooted asked) (h : Resolving state asked now)
    (htended : Tended state now) {before record : Record}
    (hbefore : state.world.defs.record? definition = some before)
    (hrecord : now.defs.record? definition = some record)
    (hanswer : now.answer declaration = some definition)
    (hmemo : state.session.resolved.get? declaration = none)
    (hlocked : ¬ state.world.decls.Writable declaration) : record.details = before.details := by
  obtain hsame | ⟨other, hother, hmemo', hwritable⟩ :=
    htended.touched definition before record hbefore hrecord
  · exact hsame
  · cases h.injective hrooted hanswer hother hmemo hmemo'
    exact absurd hwritable hlocked

/-- If everything can be resolved, then no resolution fails. -/
theorem Completed.not_fault (hrooted : state.Rooted asked) (hdone : Completed state asked done)
    (h : Resolving state asked now) (htended : Tended state now) {error : Error} :
    ¬ now.Fault error := by
  have htop {top : Declaration} {found : Option Definition} {rest : InFlight}
      (hstack : now.stack = (top, found) :: rest) := (hstack ▸ h.nested).top
  have hdecls := h.decls
  intro hfault
  -- Most faults speak of the declaration on top, which has been resolved to the end elsewhere.
  cases hfault with
  | @cyclic declaration hmemo hlookup hlets =>
      obtain ⟨front, back, hsplit, -⟩ := List.lookup_eq_some_iff.mp hlookup
      have hmem : (declaration, none) ∈ now.stack := by simp [hsplit]
      have hmember := (h.nested.member _ hmem).2.1
      cases hstack : now.stack with
      | nil => simp [hstack] at hmem
      | cons entry rest =>
          obtain heq | hmem := List.mem_cons.mp (hstack ▸ hmem)
          · have hscope := hlets declaration rest (heq ▸ hstack)
            simp [hmember] at hscope
          · have hlocated := h.nested.located entry rest hstack _ hmem
            cases hlocated
  | exhausted hcount =>
      refine absurd hcount (Nat.not_lt.mpr ?_)
      rw [hdecls, ← List.length_map Prod.fst]
      refine Declarations.length_le_count h.sound.distinct fun declaration hmem => ?_
      obtain ⟨entry, hentry, rfl⟩ := List.mem_map.mp hmem
      exact hrooted.living _ (h.nested.member entry hentry).1
  | unloadable hstack =>
      have hmember := (htop hstack).2.1
      cases hmember
  | detached hstack _ hparent =>
      obtain ⟨hasked, -, hmemo⟩ := htop hstack
      obtain ⟨parent, hparent'⟩ := hdone.exists_parent hasked hmemo
      rw [hdecls, hparent'] at hparent
      cases hparent
  | gone hstack hmem hgone =>
      have hliving := hrooted.referred _ _ (htop hstack).1 (hdecls ▸ hmem)
      rw [hdecls, hliving] at hgone
      cases hgone
  | unknown hstack hmem =>
      obtain ⟨hasked, -, hmemo⟩ := htop hstack
      exact (hdone.covers hasked hmemo).settled .unknown (hdecls ▸ hmem)
  | @unowned _ _ _ slot _ _ hstack hmem hnone =>
      obtain ⟨hasked, -, hmemo⟩ := htop hstack
      have howned := (hdone.covers hasked hmemo).owned slot (hdecls ▸ hmem)
      rw [World.slot?, hdone.resolving.slots, ← h.slots] at howned
      rw [World.slot?] at hnone
      simp [hnone] at howned
  | missing hstack hpolicy hsettled hmissing =>
      obtain ⟨hasked, hmember, hmemo⟩ := htop hstack
      have hfinds := h.finds?_of_missing hrooted hmember hmemo hsettled hmissing
      exact (hdone.missing hasked hmemo hfinds).2 (hdecls ▸ hpolicy)
  | present hstack hpolicy hfound =>
      obtain ⟨hasked, hmember, hmemo⟩ := htop hstack
      have hfinds := h.finds?_of_found hrooted hasked hmember hmemo (h.sound.answer_pending hstack) hfound
      exact (hdone.found hasked hmemo hfinds).2 (hdecls ▸ hpolicy)
  | locked hstack hlocked _ hsettled hmissing =>
      obtain ⟨hasked, hmember, hmemo⟩ := htop hstack
      have hfinds := h.finds?_of_missing hrooted hmember hmemo hsettled hmissing
      exact hlocked (hdecls ▸ (hdone.missing hasked hmemo hfinds).1)
  | lockedDetail hstack hlocked hdetail hsettled hnot =>
      obtain ⟨hasked, hmember, hmemo⟩ := htop hstack
      rw [hdecls] at hlocked hdetail
      have hanswer := h.sound.answer_top hstack
      obtain ⟨hmade, -⟩ | ⟨hfinds, hhas⟩ := h.made_or_found hanswer hmemo
      · exact hlocked (h.supplied _ _ hmade).writable
      obtain ⟨hanswer', -⟩ := hdone.found hasked hmemo hfinds
      obtain ⟨_, hother, hconfirms⟩ := hdone.confirms hasked hmemo
      cases hanswer'.symm.trans hother
      obtain ⟨before, hbefore⟩ := Definitions.has_iff.mp hhas
      obtain ⟨record, hrecord, -⟩ := h.grows.kept _ _ hbefore
      obtain ⟨record', hrecord', -⟩ := hdone.resolving.grows.kept _ _ hbefore
      -- In a read-only module neither course has touched the definition, so it holds what it held
      -- before both.
      have hsame := htended.untouched hrooted h hbefore hrecord hanswer hmemo hlocked
      have hsame' := hdone.tended.untouched hrooted hdone.resolving hbefore hrecord' hanswer' hmemo
        hlocked
      exact hnot (hdone.resolving.holds_kept hrooted h hasked hmember hdetail hbefore hrecord'
        hrecord hsame' hsame hsettled (hconfirms _ hdetail).holds)
  | differs hstack hmade hdetail hfixed hsettled hnot =>
      obtain ⟨hasked, hmember, hmemo⟩ := htop hstack
      obtain ⟨hmade', -⟩ | ⟨hfinds, hhas⟩ := h.made_or_found (h.sound.answer_top hstack) hmemo
      · exact hmade hmade'
      obtain ⟨hanswer, -⟩ := hdone.found hasked hmemo hfinds
      obtain ⟨_, hother, hconfirms⟩ := hdone.confirms hasked hmemo
      cases hanswer.symm.trans hother
      exact hnot (hdone.resolving.holds_fixed h hhas hmember hfixed hsettled
        (hconfirms _ (hdecls ▸ hdetail)).holds)

end Graft.Moment
