import Graft.Proofs.Session.Moment

/-!
# Knowing more of the same

One moment `Completes` another when it shows the same definitions and declarations and knows at
least the same answers. What holds at a moment holds where more is known (`Completes.holds`), and
what holds there holds here as soon as all is known that it speaks of (`Completes.holds_back`).
-/

namespace Graft.Moment

/-- Whether a moment shows the definitions and declarations of another one and knows no less. -/
structure Completes (full now : Moment) : Prop where
  defs : full.defs = now.defs
  decls : full.decls = now.decls
  answers : now.answer.Extends full.answer

variable {full now : Moment} {declaration : Declaration} {definition : Definition} {detail : Detail}

theorem Completes.names (h : full.Completes now) :
    full.world.typeNames = now.world.typeNames := by
  have hdefs : full.world.defs = now.world.defs := h.defs
  have hdecls : full.world.decls = now.world.decls := h.decls
  simp only [World.typeNames, hdefs, hdecls]

/-- What a definition agrees on it agrees on where more is known. -/
theorem Completes.holds (h : full.Completes now)
    (hholds : now.Holds declaration definition detail) :
    full.Holds declaration definition detail := by
  obtain ⟨record, hrecord, hholds⟩ := hholds
  refine ⟨record, h.defs ▸ hrecord, ?_⟩
  have hanswers := h.answers
  rw [h.decls, h.names]
  dsimp only at hholds ⊢
  cases detail with
  | flags | generics => exact hholds
  | base =>
      intro declared hbase
      obtain ⟨hsettled, existing, hexisting, hsame⟩ := hholds declared hbase
      exact ⟨hsettled.mono hanswers, existing, hexisting,
        by rwa [TypeRef.fill_mono hanswers hsettled]⟩
  | interface declared =>
      obtain ⟨hsettled, existing, hexisting, hsame⟩ := hholds
      exact ⟨hsettled.mono hanswers, existing, hexisting,
        by rwa [TypeRef.fill_mono hanswers hsettled]⟩
  | signature | overload | result =>
      obtain ⟨hsettled, hagree⟩ := hholds
      exact ⟨hsettled.mono hanswers, by rwa [Shape.fill_mono hanswers hsettled]⟩
  | override declared =>
      obtain ⟨hsettled, existing, hexisting, hbody, hdeclaration⟩ := hholds
      have hboth := hsettled
      rw [Override.targets, Answers.settlesAll_append] at hboth
      exact ⟨hsettled.mono hanswers, existing, hexisting,
        by rwa [MethodRef.fill_mono hanswers hboth.1],
        by rwa [MethodRef.fill_mono hanswers hboth.2]⟩
  | accessor role declared =>
      obtain ⟨method, hanswer, hmem⟩ := hholds
      exact ⟨method, hanswers _ _ hanswer, hmem⟩

/-- What a definition agrees on where more is known it agrees on as soon as that is known of which
the declaration speaks. -/
theorem Completes.holds_back (h : full.Completes now)
    (hholds : full.Holds declaration definition detail)
    (hsettles : now.answer.SettlesAll ((now.decls.statement declaration).targetsOf detail)) :
    now.Holds declaration definition detail := by
  obtain ⟨record, hrecord, hholds⟩ := hholds
  refine ⟨record, h.defs ▸ hrecord, ?_⟩
  have hanswers := h.answers
  rw [h.decls, h.names] at hholds
  dsimp only at hholds ⊢
  cases detail with
  | flags | generics => exact hholds
  | base =>
      intro declared hdeclared
      simp only [Statement.targetsOf, hdeclared, Option.elim_some] at hsettles
      obtain ⟨-, existing, hexisting, hsame⟩ := hholds declared hdeclared
      exact ⟨hsettles, existing, hexisting, by rwa [TypeRef.fill_mono hanswers hsettles] at hsame⟩
  | interface declared =>
      obtain ⟨-, existing, hexisting, hsame⟩ := hholds
      exact ⟨hsettles, existing, hexisting, by rwa [TypeRef.fill_mono hanswers hsettles] at hsame⟩
  | signature | overload | result =>
      obtain ⟨-, hagrees⟩ := hholds
      exact ⟨hsettles, by rwa [Shape.fill_mono hanswers hsettles] at hagrees⟩
  | override declared =>
      obtain ⟨-, existing, hexisting, hbody, hdeclaration⟩ := hholds
      have hboth := hsettles
      simp only [Statement.targetsOf, Override.targets, Answers.settlesAll_append] at hboth
      rw [MethodRef.fill_mono hanswers hboth.1] at hbody
      rw [MethodRef.fill_mono hanswers hboth.2] at hdeclaration
      exact ⟨hsettles, existing, hexisting, hbody, hdeclaration⟩
  | accessor role declared =>
      obtain ⟨method, hanswer, hlinked⟩ := hholds
      obtain ⟨found, hfound, -⟩ := hsettles _ List.mem_cons_self
      cases (hanswers _ _ hfound).symm.trans hanswer
      exact ⟨method, hfound, hlinked⟩

/-- What fits a declaration fits it where more is known. -/
theorem Completes.matches (h : full.Completes now)
    (hmatches : now.Matches declaration definition) : full.Matches declaration definition := by
  obtain ⟨record, hrecord, hname, hspace, hoverload⟩ := hmatches
  exact ⟨record, h.defs ▸ hrecord, h.decls ▸ hname, h.decls ▸ hspace,
    fun hmethod => h.holds (hoverload hmethod)⟩

/-- What fits a declaration where more is known fits it as soon as its signature is known. -/
theorem Completes.matches_back (h : full.Completes now)
    (hmatches : full.Matches declaration definition)
    (hsettles : declaration.kind = .method →
      now.answer.SettlesAll (now.decls.statement declaration).shape.targets) :
    now.Matches declaration definition := by
  obtain ⟨record, hrecord, hname, hspace, hoverload⟩ := hmatches
  exact ⟨record, h.defs ▸ hrecord, h.decls ▸ hname, h.decls ▸ hspace,
    fun hmethod => h.holds_back (hoverload hmethod) (hsettles hmethod)⟩

/-- What has been found has its signature known, if it is a method. -/
theorem Matches.settles (h : now.Matches declaration definition) (hmethod : declaration.kind = .method) :
    now.answer.SettlesAll (now.decls.statement declaration).shape.targets := by
  obtain ⟨_, -, -, -, hoverload⟩ := h
  obtain ⟨_, -, hsettles, -⟩ := hoverload hmethod
  exact hsettles

/-- What has been found is found where more is known. -/
theorem Completes.found (h : full.Completes now)
    (hmodules : ∀ name module, now.session.modules.get? name = some module →
      full.session.modules.get? name = some module) (hfound : now.Found declaration definition) :
    full.Found declaration definition := by
  cases hfound with
  | module hmodule => exact .module (h.decls ▸ hmodules _ _ hmodule)
  | member hparent hholder hkind hmembers hmatches hfirst =>
      exact .member (h.decls ▸ hparent) (h.answers _ _ hholder) hkind (h.defs ▸ hmembers)
        (h.matches hmatches) fun other hmem hother =>
          hfirst other hmem (h.matches_back hother hmatches.settles)

end Graft.Moment
