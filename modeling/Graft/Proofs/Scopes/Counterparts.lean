import Graft.Proofs.Members.Twins
import Graft.Proofs.Scopes.Furnished
import Graft.Proofs.Signature.Retargeting

/-!
# Counterparts of modules and types

Of two moments at which modules and types have been resolved, in whatever order, `Moment.twin` leads
from the definitions of the one to those of the other. A declaration that stands for something old
stands for the same at both moments (`Underway.eq_of_old`); where it stands for something that was
made, it does so at both.
-/

namespace Graft

/-- What a renaming of definitions makes of a module. -/
def DefId.remoduled (twin : Definition → Definition) (id : DefId .module) : DefId .module :=
  ⟨(twin (.module id)).index⟩

namespace Moment

variable {world : World} {source : SourceId} {names : List String} {asked : Declaration → Prop}
  {now left right : Moment} {declaration parent : Declaration}
  {definition holder found found' : Definition}

section Types

variable {state : SessionState} (h : Parallel state left right)

include h

theorem Parallel.retyped_of_issued {id : DefId .type}
    (hissued : state.world.defs.Issued (.type id)) : id.retyped (left.twin right) = id := by
  rw [DefId.retyped, h.twin_of_issued hissued]
  rfl

/-- A declared type stands at the other moment for what corresponds to it. -/
theorem Parallel.retyped_of_answers {id : DeclId .type} {type type' : DefId .type}
    (hanswer : left.answer (.type id) = some (.type type))
    (hanswer' : right.answer (.type id) = some (.type type')) :
    type' = type.retyped (left.twin right) := by
  rw [DefId.retyped, h.twin_answer hanswer hanswer']
  rfl

theorem Parallel.remoduled_of_issued {id : DefId .module}
    (hissued : state.world.defs.Issued (.module id)) : id.remoduled (left.twin right) = id := by
  rw [DefId.remoduled, h.twin_of_issued hissued]
  rfl

theorem Parallel.remoduled_of_answers {id : DeclId .module} {module module' : DefId .module}
    (hanswer : left.answer (.module id) = some (.module module))
    (hanswer' : right.answer (.module id) = some (.module module')) :
    module' = module.remoduled (left.twin right) := by
  rw [DefId.remoduled, h.twin_answer hanswer hanswer']
  rfl

end Types

/-! ## What was there before -/

section Old

variable (hscoping : world.Scoping source names asked) (h : now.Underway world source names asked)

include h

/-- What was made has an identity that was not there before. -/
theorem Underway.new (hmade : (declaration, definition) ∈ now.made) :
    ¬ (world.opened source names).world.defs.Issued definition := fun hissued =>
  (h.census.missing _ _ hmade).1
    (h.orderly.grows.has_of_issued hissued (h.orderly.sound.has_answer (h.orderly.sound.made _ hmade)))

/-- A list begins with what was in it before. -/
theorem Underway.exists_members (holder : Definition) (kind : SymbolKind) : ∃ news,
    now.defs.members holder kind =
      (world.opened source names).world.defs.members holder kind ++ news ∧
      ∀ other ∈ news, ¬ (world.opened source names).Old other := by
  by_cases hold : (world.opened source names).Old holder
  · exact h.lists holder kind hold
  · have hnone : (world.opened source names).world.defs.members holder kind = [] :=
      List.eq_nil_iff_forall_not_mem.mpr fun _ hmem => hold (Definitions.has_of_mem_members hmem)
    exact ⟨_, by rw [hnone, List.nil_append], fun other hmem hold' =>
      hold (h.census.inside holder kind other hmem hold')⟩

/-- Whether something old fits a module or a type is decided from the beginning. -/
theorem Underway.fits_iff (hleft : left.Underway world source names asked)
    (hold : (world.opened source names).Old definition) (hscope : declaration.kind.isScope = true) :
    now.Fits declaration definition ↔ left.Fits declaration definition := by
  obtain ⟨before, hbefore⟩ := Definitions.has_iff.mp hold
  obtain ⟨record, hrecord, hnature, -⟩ := h.orderly.grows.kept _ _ hbefore
  obtain ⟨record', hrecord', hnature', -⟩ := hleft.orderly.grows.kept _ _ hbefore
  have hmethod : declaration.kind ≠ .method := fun hmethod => by
    simp [hmethod, SymbolKind.isScope] at hscope
  simp [Fits, hrecord, hrecord', hnature, hnature', h.orderly.decls, hleft.orderly.decls, hmethod]

/-- What comes before something old in a list came before it from the beginning. -/
theorem Underway.members_start {kind : SymbolKind} {front rest : List Definition}
    (hold : (world.opened source names).Old definition)
    (hmembers : now.defs.members holder kind = front ++ definition :: rest) : ∃ rest,
      (world.opened source names).world.defs.members holder kind = front ++ definition :: rest := by
  obtain ⟨news, hnews, hnew⟩ := h.exists_members holder kind
  obtain ⟨more, rfl, hmore⟩ | ⟨more, hmore, hrest⟩ :=
    List.append_eq_append_iff.mp (hnews.symm.trans hmembers)
  · exact absurd hold (hnew _ (by simp [hmore]))
  · cases more with
    | nil => exact absurd hold (hnew _ (by simp [show news = _ from hrest.symm]))
    | cons first more =>
        cases hrest
        exact ⟨more, hmore⟩

include hscoping

/-- What stands for a declaration was there before or was made for it. -/
theorem Underway.old_or_made (hanswer : now.answer declaration = some definition) :
    (world.opened source names).Old definition ∨ (declaration, definition) ∈ now.made :=
  h.orderly.old_or_made hscoping.opened h.census (concealed_of_nil h.hidden) hanswer

end Old

section Counterparts

variable (hscoping : world.Scoping source names asked)
  (hleft : left.Underway world source names asked) (hright : right.Underway world source names asked)

include hscoping hleft hright

/-- What a declaration stood for before anything was made it stands for. -/
theorem Underway.eq_of_stood
    (hstood : left.Stood (world.opened source names).Old declaration definition)
    (hanswer : right.answer declaration = some found) : definition = found := by
  have hdecls : right.decls = left.decls := hright.orderly.decls.trans hleft.orderly.decls.symm
  induction hstood generalizing found with
  | @module id module hold hmodule =>
      cases hright.orderly.placed _ _ hanswer with
      | member hparent => cases hparent
      | @module _ module' hmodule' =>
          rw [hdecls] at hmodule'
          have hfirst := (hleft.modules _ _ hmodule).resolve_right fun h => h.2 hold
          obtain hsame | ⟨hnone, -⟩ := hright.modules _ _ hmodule'
          · cases hfirst.symm.trans hsame
            rfl
          · simp [hfirst] at hnone
  | @member declaration parent definition holder front rest hold hparent _ hmembers hfits hfirst ih =>
      have hparent' : right.decls.parent? declaration = some parent := hdecls ▸ hparent
      obtain ⟨holder', hholder⟩ := hright.orderly.answer_parent hanswer hparent'
      cases ih hholder
      have hscope := hscoping.scopes _ (hright.orderly.asked _ _ hanswer)
      obtain ⟨rest', hlist⟩ := hleft.members_start hold hmembers
      have hmem : definition ∈ right.defs.members holder declaration.kind :=
        hright.orderly.grows.mem_members (hlist ▸ List.mem_append_right _ List.mem_cons_self)
      obtain hold' | hmade := hright.old_or_made hscoping hanswer
      · obtain ⟨front', rest'', hmembers', hfirst'⟩ :=
          (hright.census.found _ _ hanswer hold').2 parent holder hparent' hholder
        obtain ⟨rest'', hlist'⟩ := hright.members_start hold' hmembers'
        have hfits' := hright.orderly.fits hscoping.opened hanswer hparent'
        -- Both are the first of what was listed before and fits.
        refine eq_of_first (P := fun other => (world.opened source names).Old other ∧
          left.Fits declaration other) hlist hlist' ⟨hold, hfits⟩
          ⟨hold', (hright.fits_iff hleft hold' hscope).mp hfits'⟩
          (fun other hmem ⟨hold, hfits⟩ => hfirst other hmem hold hfits) ?_
        rintro other hmem ⟨hold, hfits⟩
        exact hfirst' other hmem hold ((hright.fits_iff hleft hold hscope).mpr hfits)
      · refine absurd ((hright.fits_iff hleft hold hscope).mpr hfits) ?_
        exact (hright.census.missing _ _ hmade).2.2 parent holder hparent' hholder _ hmem hold

/-- What a declaration stands for is the same at both moments if it was there before. -/
theorem Underway.eq_of_old (hanswer : left.answer declaration = some definition)
    (hanswer' : right.answer declaration = some found)
    (hold : (world.opened source names).Old definition) : definition = found := by
  refine hleft.eq_of_stood hscoping hright ?_ hanswer'
  exact hleft.orderly.stood_of_owner hscoping.opened hleft.census hanswer hold
    fun _ _ hholder _ => hleft.orderly.stood_type hscoping.opened hleft.census hholder

/-- If something was made for a declaration it was so at both moments. -/
theorem Underway.made_of_made (hmade : (declaration, definition) ∈ left.made)
    (hanswer' : right.answer declaration = some found) : (declaration, found) ∈ right.made := by
  refine (hright.old_or_made hscoping hanswer').resolve_left fun hold => ?_
  have hanswer := hleft.orderly.sound.made _ hmade
  cases hright.eq_of_old hscoping hleft hanswer' hanswer hold
  exact (hleft.census.missing _ _ hmade).1 hold

/-- What does not have to be made for a module or a type is the same at both moments. -/
theorem Underway.parallel : Parallel (world.opened source names) left right where
  soundLeft := hleft.orderly.sound
  soundRight := hright.orderly.sound
  growsLeft := hleft.orderly.grows
  growsRight := hright.orderly.grows
  new _ _ hmade := hleft.new hmade
  single _ _ _ hmade hmade' := hleft.orderly.injective hscoping.opened
    (hleft.orderly.sound.made _ hmade) (hleft.orderly.sound.made _ hmade')
  known declaration definition found hanswer hanswer' := by
    obtain hold | hmade := hleft.old_or_made hscoping hanswer
    · exact .inr ⟨hleft.eq_of_old hscoping hright hanswer hanswer' hold,
        Definitions.issued_of_has hold⟩
    · exact .inl hmade

/-- A type and its twin have the same full name. -/
theorem Underway.name_twin {id : DefId .type}
    (hshared : Shared (world.opened source names) left right (.type id)) :
    right.world.typeNames.definition (id.retyped (left.twin right)) =
      left.world.typeNames.definition id := by
  have hparallel := hleft.parallel hscoping hright
  have hdecls : right.decls = left.decls := hright.orderly.decls.trans hleft.orderly.decls.symm
  obtain hissued | ⟨declaration, found, hanswer, hanswer'⟩ := hshared
  · have hname {now : Moment} (h : now.Underway world source names asked) :
        now.world.typeNames.definition id =
          (world.opened source names).world.typeNames.definition id := by
      have hhas : now.defs.has (.type id) =
          (world.opened source names).world.defs.has (.type id) :=
        Bool.eq_iff_iff.mpr ⟨h.orderly.grows.has_of_issued hissued, h.orderly.grows.has⟩
      replace hhas : now.world.defs.types.has id.index =
          (world.opened source names).world.defs.types.has id.index := hhas
      simp only [World.typeNames, hhas]
      split
      · exact congrArg some
          (h.orderly.grows.typeName_eq hscoping.opened.wellFormed h.orderly.wellFormed ‹_›)
      · rfl
    rw [hparallel.retyped_of_issued hissued, hname hright, hname hleft]
  · obtain ⟨declared, rfl⟩ : ∃ declared, declaration = .type declared := by
      have hkind := hleft.orderly.sound.kinds _ _ hanswer
      cases declaration <;> cases hkind
      exact ⟨_, rfl⟩
    obtain ⟨other, rfl⟩ : ∃ other, found = .type other := by
      have hkind := hright.orderly.sound.kinds _ _ hanswer'
      cases found <;> cases hkind
      exact ⟨_, rfl⟩
    rw [← hparallel.retyped_of_answers hanswer hanswer']
    have hname {now : Moment} {type : DefId .type} (h : now.Underway world source names asked)
        (hanswer : now.answer (.type declared) = some (.type type)) :
        now.world.typeNames.definition type = some (now.decls.typeName declared) := by
      have hhas : now.world.defs.types.has type.index = true := h.orderly.sound.has_answer hanswer
      simp only [World.typeNames, hhas, if_true]
      exact congrArg some (h.orderly.typeName_eq hscoping.opened hanswer)
    rw [hname hright hanswer', hname hleft hanswer, hdecls]

end Counterparts

end Moment

end Graft
