import Graft.Install
import Graft.Proofs.Session.Calls
import Mathlib.Data.String.Basic

/-!
# Touched modules

Installing patches notes the modules that it may have changed: one for each name of a module that a
patch declares and may change, in the order of the names (`touch_ok`).
-/

namespace Graft

namespace Touched

variable {touched : Touched} {name : String} {module : DefId .module}

theorem mem_names_add {other : String} :
    other ∈ (touched.add name module).map (·.1) ↔ other = name ∨ other ∈ touched.map (·.1) := by
  induction touched with
  | nil => simp [add]
  | cons entry rest ih =>
      rw [add]
      split
      · rename_i heq
        subst heq
        simp
      · split
        · simp
        · rw [List.map_cons, List.mem_cons, ih, List.map_cons, List.mem_cons]
          exact or_left_comm

/-- A module that is touched once more stays the one that it was. -/
theorem mem_of_mem_add {entry : String × DefId .module} (h : entry ∈ touched.add name module) :
    entry ∈ touched ∨ entry = (name, module) := by
  induction touched with
  | nil => exact .inr (List.mem_singleton.mp h)
  | cons first rest ih =>
      rw [add] at h
      split at h
      · exact .inl h
      · split at h
        · exact (List.mem_cons.mp h).symm
        · rcases List.mem_cons.mp h with rfl | h
          · exact .inl List.mem_cons_self
          · exact (ih h).imp_left (List.mem_cons_of_mem _)

/-- Touched modules stay in the order of their names. -/
theorem sorted_add (h : (touched.map (·.1)).Pairwise (· < ·)) :
    ((touched.add name module).map (·.1)).Pairwise (· < ·) := by
  induction touched with
  | nil => exact List.pairwise_singleton _ _
  | cons entry rest ih =>
      obtain ⟨hfirst, hrest⟩ := List.pairwise_cons.mp h
      rw [add]
      split
      · exact h
      · rename_i hne
        split
        · rename_i hlt
          refine List.pairwise_cons.mpr ⟨fun other hmem => ?_, h⟩
          rcases List.mem_cons.mp hmem with rfl | hmem
          · exact hlt
          · exact hlt.trans (hfirst other hmem)
        · rename_i hlt
          refine List.pairwise_cons.mpr ⟨fun other hmem => ?_, ih hrest⟩
          rcases mem_names_add.mp hmem with rfl | hmem
          · exact lt_of_le_of_ne (not_lt.mp hlt) hne
          · exact hfirst other hmem

end Touched

namespace Moment

open SessionTask

variable {asked : Declaration → Prop} {now next : Moment} {ids : List (DeclId .module)}
  {touched touched' : Touched} {state : SessionState}

/-- Whether the touched modules are those of some declarations, as far as these may be changed. -/
structure Tallies (ids : List (DeclId .module)) (touched : Touched) (now : Moment) : Prop where
  sorted : (touched.map (·.1)).Pairwise (· < ·)
  names : ∀ name, name ∈ touched.map (·.1) ↔
    ∃ id ∈ ids, now.decls.Writable (.module id) ∧ (now.decls.module id).name = name
  found : ∀ entry ∈ touched, now.session.modules.get? entry.1 = some entry.2

theorem tallies_nil : now.Tallies [] [] := by
  constructor <;> simp

theorem Later.tallies (h : now.Later next) (htallies : now.Tallies ids touched) :
    next.Tallies ids touched where
  sorted := htallies.sorted
  names := h.decls ▸ htallies.names
  found entry hmem := h.modules _ _ (htallies.found entry hmem)

theorem Tallies.add {id : DeclId .module} {module : DefId .module}
    (h : now.Tallies ids touched) (hwritable : now.decls.Writable (.module id))
    (hmodule : now.session.modules.get? (now.decls.module id).name = some module) :
    now.Tallies (ids ++ [id]) (touched.add (now.decls.module id).name module) where
  sorted := Touched.sorted_add h.sorted
  names name := by
    rw [Touched.mem_names_add, h.names]
    constructor
    · rintro (rfl | ⟨other, hmem, hother⟩)
      · exact ⟨id, by simp, hwritable, rfl⟩
      · exact ⟨other, by simp [hmem], hother⟩
    · rintro ⟨other, hmem, hother, rfl⟩
      rcases List.mem_append.mp hmem with hmem | hmem
      · exact .inr ⟨other, hmem, hother, rfl⟩
      · exact .inl (by rw [List.mem_singleton.mp hmem])
  found entry hmem := by
    rcases Touched.mem_of_mem_add hmem with hmem | rfl
    · exact h.found entry hmem
    · exact hmodule

/-- What may not be changed is not touched. -/
theorem Tallies.of_filter {before : List (DeclId .module)}
    (h : now.Tallies (before ++ ids.filter fun id => !(now.decls.module id).terms.readOnly) touched) :
    now.Tallies (before ++ ids) touched where
  sorted := h.sorted
  names name := by
    rw [h.names]
    refine exists_congr fun id => and_congr_left fun ⟨hwritable, _⟩ => ?_
    simp [show (now.decls.module id).terms.readOnly = false from hwritable]
  found := h.found

/-- Touching the modules of declarations that may be changed. -/
theorem touchAll_ok {decls : Declarations} {before : List (DeclId .module)} (hsound : now.Sound)
    (hstack : now.stack = []) (hstanding : now.Standing) (hdecls : now.decls = decls)
    (hclosed : now.decls.Closed asked) (hasked : ∀ id ∈ ids, asked (.module id))
    (hwritable : ∀ id ∈ ids, now.decls.Writable (.module id))
    (htallies : now.Tallies before touched)
    (hon : SessionTask.on (ids.foldlM (fun (touched : Touched) id => do
      return touched.add (decls.module id).name (← Search.module resolve id)) touched) now.state =
        (.ok touched', state)) :
    ∃ next : Moment, next.state = state ∧ next.stack = [] ∧ Run asked {} now next ∧
      next.Tallies (before ++ ids) touched' := by
  induction ids generalizing now touched before with
  | nil =>
      cases hon
      exact ⟨now, rfl, hstack, .refl, by rwa [List.append_nil]⟩
  | cons id ids ih =>
      rw [List.foldlM_cons] at hon
      obtain ⟨_, _, hfirst, hrest⟩ := on_bind_ok.mp hon
      obtain ⟨module, _, hmodule, hadd⟩ := on_bind_ok.mp hfirst
      cases hadd
      have hid := hasked id List.mem_cons_self
      obtain ⟨middle, rfl, hidle, hrun, hanswer⟩ :=
        (leads_module (finds_resolve asked none) hsound hstack hid).of_ok hclosed hmodule
      have hlater := hrun.later hsound
      have hfound : middle.session.modules.get? (middle.decls.module id).name = some module := by
        cases (hrun.standing hsound hstanding).answer hanswer with
        | module hfound => exact hfound
        | member hparent | method hparent => cases hparent
      have hall : ∀ other ∈ id :: ids, middle.decls.Writable (.module other) :=
        hlater.decls ▸ hwritable
      have hadded := (hlater.tallies htallies).add (hall id List.mem_cons_self) hfound
      have hsame := hlater.decls.trans hdecls
      obtain ⟨next, hnext, hstack', hrun', hnow⟩ := ih (hrun.sound hsound) (hidle.trans hstack)
        (hrun.standing hsound hstanding) hsame (hlater.decls ▸ hclosed)
        (fun other hmem => hasked other (List.mem_cons_of_mem _ hmem))
        (fun other hmem => hall other (List.mem_cons_of_mem _ hmem)) hadded (hsame ▸ hrest)
      exact ⟨next, hnext, hstack', hrun.trans hrun', by simpa using hnow⟩

/-- Noting what a patch may have changed. -/
theorem touch_ok {before : List (DeclId .module)} (hsound : now.Sound) (hstack : now.stack = [])
    (hstanding : now.Standing) (hclosed : now.decls.Closed asked)
    (hasked : ∀ id ∈ ids, asked (.module id)) (htallies : now.Tallies before touched)
    (hon : (touch ids touched).on now.state = (.ok touched', state)) :
    ∃ next : Moment, next.state = state ∧ next.stack = [] ∧ Run asked {} now next ∧
      next.Tallies (before ++ ids) touched' := by
  obtain ⟨_, _, hworld, hon⟩ := on_bind_ok.mp hon
  cases hworld
  obtain ⟨next, hstate, hidle, hrun, hnow⟩ := touchAll_ok hsound hstack hstanding rfl hclosed
    (fun id hmem => hasked id (List.mem_of_mem_filter hmem))
    (fun id hmem => by simpa [Declarations.Writable, Declarations.terms] using
      List.of_mem_filter hmem) htallies hon
  have hdecls := (hrun.later hsound).decls
  exact ⟨next, hstate, hidle, hrun, Tallies.of_filter (by rwa [hdecls])⟩

end Moment

end Graft
