import Graft.Proofs.Definition.WellFormed
import Graft.Proofs.Session.Locating
import Graft.Proofs.Declaration.Naming

/-!
# What holds goes on to hold

In graphs that stay well-formed types keep their names (`Later.agree`), and so a definition that
agrees with its declaration on a detail goes on to do so: while its details stay (`Holds.later`),
and also when they are amended to what the declaration states (`Holds.amend`).
-/

namespace Graft

namespace Shape

variable {names names' : TypeNames} {left right : Shape}

/-- Two declared signatures are those of the same overload, if both are that of one definition once
they are filled in. -/
theorem overloads_fill {answers : Answers} {shape : Shape}
    (hleft : shape.Overloads names (left.relink (.fill answers)))
    (hright : shape.Overloads names (right.relink (.fill answers)))
    (hfills : names.Fills names' answers left.targets)
    (hfills' : names.Fills names' answers right.targets) : left.Overloads names' right := by
  cases shape with
  | none | field | property | event => exact hleft.elim
  | method signature =>
      cases left with
      | none | field | property | event => exact hleft.elim
      | method left =>
          cases right with
          | none | field | property | event => exact hright.elim
          | method right =>
              have hsame := MethodSig.same_of_same hleft hright
              rwa [MethodSig.same_fill rfl hfills hfills'] at hsame

end Shape

/-- Whether what has been confirmed about a detail can be read off other details as well. -/
def Detail.Survives (before after : Details) : Detail → Prop
  | .flags => after.flags = before.flags
  | .base => after.base = before.base
  | .interface _ => before.interfaces ⊆ after.interfaces
  | .generics => after.generics.length = before.generics.length
  | .override _ => before.overrides ⊆ after.overrides
  | .accessor .. => before.accessors ⊆ after.accessors
  | .signature | .overload | .result => True

theorem Detail.survives_self (details : Details) (detail : Detail) :
    detail.Survives details details := by
  cases detail <;> simp [Survives]

/-- What a declaration states about a detail where references are compared by name. -/
def Statement.named (statement : Statement) : Detail → List Target
  | .base => statement.base.elim [] TypeRef.targets
  | .interface type => type.targets
  | .signature | .overload | .result => statement.shape.targets
  | .flags | .generics | .override _ | .accessor .. => []

namespace Moment

variable {asked : Declaration → Prop} {mode : Mode} {now next : Moment}
  {declaration : Declaration} {definition : Definition} {detail : Detail}
  {targets : List Target} {options : Comparison}

/-- What answers put in for known targets is known. -/
theorem Sound.knows_fill (h : now.Sound) (hsettles : now.answer.SettlesAll targets)
    (hknows : now.defs.Knows targets) : now.defs.Knows (targets.flatMap now.fill.image) := by
  intro id hmem
  obtain ⟨target, htarget, hmem⟩ := List.mem_flatMap.mp hmem
  obtain rfl | ⟨_, found, -, hanswer, heq⟩ := mem_image_fill (hsettles target htarget) hmem
  · exact hknows id htarget
  · cases heq
    exact Definitions.issued_of_has (h.has_answer hanswer)

/-- Types keep their names. -/
theorem Later.agree (h : now.Later next) (hwell : now.defs.WellFormed)
    (hwell' : next.defs.WellFormed) (hknows : now.defs.Knows targets) :
    now.world.typeNames.Agree next.world.typeNames options targets := by
  intro _ target htarget
  have hdecls : next.world.decls = now.world.decls := h.decls
  match target with
  | .definition (.type id) =>
      have hissued := hknows id htarget
      have hhas : next.defs.has (.type id) = now.defs.has (.type id) :=
        Bool.eq_iff_iff.mpr ⟨h.grows.has_of_issued hissued, h.grows.has⟩
      replace hhas : next.world.defs.types.has id.index = now.world.defs.types.has id.index := hhas
      change now.world.typeNames.definition id = next.world.typeNames.definition id
      simp only [World.typeNames, hhas]
      split
      · exact congrArg some (h.grows.typeName_eq hwell hwell' ‹_›).symm
      · rfl
  | .declaration (.type id) =>
      change now.world.typeNames.declaration id = next.world.typeNames.declaration id
      simp only [World.typeNames, hdecls]
  | .definition (.module _) | .definition (.field _) | .definition (.method _)
  | .definition (.property _) | .definition (.event _) | .declaration (.module _)
  | .declaration (.field _) | .declaration (.method _) | .declaration (.property _)
  | .declaration (.event _) | .unknown => trivial

/-- What a declaration states about a detail, with what declarations stand for put in. -/
theorem Later.agree_fill (h : now.Later next) (hsound : now.Sound) (hwell : now.defs.WellFormed)
    (hwell' : next.defs.WellFormed) (hsettles : now.answer.SettlesAll targets)
    (hknows : now.defs.Knows targets) :
    now.world.typeNames.Agree next.world.typeNames options (targets.flatMap now.fill.image) :=
  h.agree hwell hwell' (hsound.knows_fill hsettles hknows)

/-- What holds goes on to hold as long as the details that it can be read off stay, and the types
that it speaks of keep their names. -/
theorem Holds.carry (hholds : now.Holds declaration definition detail) (hlater : now.Later next)
    (hanswers : now.answer.Extends next.answer)
    (hagree : now.answer.SettlesAll ((now.decls.statement declaration).named detail) →
      ∀ options, now.world.typeNames.Agree next.world.typeNames options
        (((now.decls.statement declaration).named detail).flatMap now.fill.image))
    (hnamed : ∀ record options, now.defs.record? definition = some record →
      now.world.typeNames.Agree next.world.typeNames options record.named)
    (hsurvives : ∀ record record', now.defs.record? definition = some record →
      next.defs.record? definition = some record' →
      detail.Survives record.details record'.details) :
    next.Holds declaration definition detail := by
  obtain ⟨record, hrecord, hholds⟩ := hholds
  obtain ⟨record', hrecord', hnature, -⟩ := hlater.grows.kept _ _ hrecord
  have hsurvived := hsurvives record record' hrecord hrecord'
  have hexists (options : Comparison) := hnamed record options hrecord
  simp only [Record.named, TypeNames.agree_append] at hexists
  refine ⟨record', hrecord', ?_⟩
  have hdecls : next.decls = now.decls := hlater.decls
  -- A comparison reads no more than the names of the types on both sides.
  have hsame {existing declared : TypeRef}
      (hexisting : now.world.typeNames.Agree next.world.typeNames .declared existing.targets)
      (hdeclared : now.world.typeNames.Agree next.world.typeNames .declared
        (declared.targets.flatMap now.fill.image))
      (hsettles : now.answer.SettlesAll declared.targets)
      (hsame : existing.same now.world.typeNames .declared (declared.relink now.fill) = true) :
      existing.same next.world.typeNames .declared (declared.relink next.fill) = true := by
    rw [show next.fill = .fill next.answer from rfl, TypeRef.fill_mono hanswers hsettles, ← hsame]
    refine (TypeRef.same_congr hexisting ?_).symm
    rw [TypeRef.targets_relink]
    exact hdeclared
  rw [hdecls, hnature]
  dsimp only at hholds ⊢
  cases detail with
  | flags =>
      rw [show record'.details.flags = record.details.flags from hsurvived]
      exact hholds
  | base =>
      intro declared hdeclared
      obtain ⟨hsettles, existing, hexisting, hagrees⟩ := hholds declared hdeclared
      simp only [Statement.named, hdeclared, Option.elim_some] at hagree
      have hbase := (hexists .declared).1.2
      rw [hexisting] at hbase
      exact ⟨hsettles.mono hanswers, existing,
        (show record'.details.base = record.details.base from hsurvived) ▸ hexisting,
        hsame hbase (hagree hsettles _) hsettles hagrees⟩
  | interface declared =>
      obtain ⟨hsettles, existing, hexisting, hagrees⟩ := hholds
      refine ⟨hsettles.mono hanswers, existing, hsurvived hexisting,
        hsame (fun hscope target hmem => (hexists .declared).2 hscope target ?_)
          (hagree hsettles _) hsettles hagrees⟩
      exact List.mem_flatMap.mpr ⟨existing, hexisting, hmem⟩
  | generics =>
      exact fun declared hdeclared => hsurvived.trans (hholds declared hdeclared)
  | signature =>
      obtain ⟨hsettles, hagrees⟩ := hholds
      refine ⟨hsettles.mono hanswers, ?_⟩
      rw [show next.fill = .fill next.answer from rfl, Shape.fill_mono hanswers hsettles]
      exact Shape.agree_congr (fun options => (hexists options).1.1)
        (fun options => Shape.targets_relink _ _ ▸ hagree hsettles options) hagrees
  | overload =>
      obtain ⟨hsettles, hagrees⟩ := hholds
      refine ⟨hsettles.mono hanswers, ?_⟩
      rw [show next.fill = .fill next.answer from rfl, Shape.fill_mono hanswers hsettles]
      exact Shape.overloads_congr (fun options => (hexists options).1.1)
        (fun options => Shape.targets_relink _ _ ▸ hagree hsettles options) hagrees
  | result =>
      obtain ⟨hsettles, hagrees⟩ := hholds
      refine ⟨hsettles.mono hanswers, ?_⟩
      rw [show next.fill = .fill next.answer from rfl, Shape.fill_mono hanswers hsettles]
      exact Shape.resultsAgree_congr (fun options => (hexists options).1.1)
        (fun options => Shape.targets_relink _ _ ▸ hagree hsettles options) hagrees
  | override declared =>
      obtain ⟨hsettles, existing, hexisting, hbody, hoverridden⟩ := hholds
      rw [Override.targets, Answers.settlesAll_append] at hsettles
      refine ⟨(Answers.settlesAll_append.mpr hsettles).mono hanswers, existing,
        hsurvived hexisting, ?_, ?_⟩
      · rw [show next.fill = .fill next.answer from rfl, MethodRef.fill_mono hanswers hsettles.1,
          MethodRef.same_strict _ now.world.typeNames]
        exact hbody
      · rw [show next.fill = .fill next.answer from rfl, MethodRef.fill_mono hanswers hsettles.2,
          MethodRef.same_strict _ now.world.typeNames]
        exact hoverridden
  | accessor role declared =>
      obtain ⟨method, hanswer, hlinked⟩ := hholds
      exact ⟨method, hanswers _ _ hanswer, hsurvived hlinked⟩

/-- What holds goes on to hold in graphs that stay well-formed. -/
theorem Holds.later (hholds : now.Holds declaration definition detail) (hlater : now.Later next)
    (hanswers : now.answer.Extends next.answer) (hsound : now.Sound) (hwell : now.defs.WellFormed)
    (hwell' : next.defs.WellFormed)
    (hknows : now.defs.Knows ((now.decls.statement declaration).named detail))
    (hsurvives : ∀ record record', now.defs.record? definition = some record →
      next.defs.record? definition = some record' →
      detail.Survives record.details record'.details) :
    next.Holds declaration definition detail :=
  hholds.carry hlater hanswers
    (fun hsettles _ => hlater.agree_fill hsound hwell hwell' hsettles hknows)
    (fun _ _ hrecord => hlater.agree hwell hwell' (hwell.named _ _ hrecord)) hsurvives

/-- A definition that is amended to what its declaration states goes on to agree with it, if it does
so as long as what has been confirmed can still be read off. -/
theorem Holds.amend {amendment : Amendment} {defs : Definitions}
    (hholds : now.Holds declaration definition detail)
    (hstated : amendment.Stated now declaration definition)
    (hchanges : now.defs.Changes defs definition (Record.alter (amendment.apply ·)))
    (hkeeps : (∀ record record', now.defs.record? definition = some record →
        defs.record? definition = some record' → detail.Survives record.details record'.details) →
      (now.withDefs defs).Holds declaration definition detail) :
    (now.withDefs defs).Holds declaration definition detail := by
  obtain ⟨record, hrecord, hheld⟩ := id hholds
  have hrecord' : defs.record? definition = some (record.alter (amendment.apply ·)) := by
    rw [hchanges.record?, if_pos rfl, hrecord]
    rfl
  by_cases hsurvives : detail.Survives record.details (amendment.apply record.details)
  · refine hkeeps fun before after hbefore hafter => ?_
    cases hrecord.symm.trans hbefore
    cases hrecord'.symm.trans hafter
    exact hsurvives
  -- Only flags, base types and generic parameters are replaced by other ones.
  cases amendment with
  | flags value =>
      obtain ⟨scheme, declared, before, hscheme, hdeclared, hbefore, rfl⟩ := hstated
      cases hrecord.symm.trans hbefore
      cases detail with
      | flags => exact absurd (hheld scheme declared hscheme hdeclared) hsurvives
      | _ => simp [Detail.Survives, Amendment.apply] at hsurvives
  | base type =>
      obtain ⟨declared, hdeclared, hsettles, rfl, -⟩ := hstated
      cases detail with
      | base =>
          refine ⟨_, hrecord', fun other hother => ?_⟩
          cases hdeclared.symm.trans hother
          refine ⟨hsettles, _, rfl, TypeRef.same_self ?_⟩
          rw [TypeRef.targets_relink]
          exact unknown_notMem_image_fill hsettles
      | _ => simp [Detail.Survives, Amendment.apply] at hsurvives
  | generics params =>
      obtain ⟨declared, hdeclared, -, rfl, -⟩ := hstated
      cases detail with
      | generics =>
          refine absurd ?_ hsurvives
          simp [Detail.Survives, Amendment.apply, hheld declared hdeclared]
      | _ => simp [Detail.Survives, Amendment.apply] at hsurvives
  | interface | override =>
      cases detail <;> simp [Detail.Survives, Amendment.apply] at hsurvives
  | accessor role method =>
      cases detail with
      | accessor =>
          refine absurd (fun entry hentry => ?_) hsurvives
          unfold Amendment.apply Accessors.link
          dsimp only
          split
          · exact hentry
          · exact List.mem_append_left _ hentry
      | _ => simp [Detail.Survives, Amendment.apply] at hsurvives

end Moment

end Graft
