import Graft.Proofs.Session.Orderly
import Mathlib.Data.List.Nodup

/-!
# What is remembered is finished

Whatever a session remembers has been confirmed in every detail (`Finished`), and so in an orderly
session it agrees with its declaration in every detail (`Orderly.holds`).
-/

namespace Graft

namespace Dictionary

variable {κ α : Type} [DecidableEq κ] {entries : List (κ × α)} {key : κ} {value : α}

theorem mem_keys_put {other : κ} : other ∈ (put key value entries).map Prod.fst ↔
    other = key ∨ other ∈ entries.map Prod.fst := by
  induction entries with
  | nil => simp [put]
  | cons entry rest ih =>
      rw [put]
      split
      · rename_i heq
        simp [heq]
      · rw [List.map_cons, List.mem_cons, ih, List.map_cons, List.mem_cons]
        tauto

theorem nodup_put (h : (entries.map Prod.fst).Nodup) :
    ((put key value entries).map Prod.fst).Nodup := by
  induction entries with
  | nil => simp [put]
  | cons entry rest ih =>
      rw [put]
      rw [List.map_cons, List.nodup_cons] at h
      split
      · rename_i heq
        exact List.nodup_cons.mpr ⟨heq ▸ h.1, h.2⟩
      · rename_i hne
        refine List.nodup_cons.mpr ⟨fun hmem => ?_, ih h.2⟩
        obtain heq | hmem := mem_keys_put.mp hmem
        · exact hne heq
        · exact h.1 hmem

/-- A dictionary is as large as any list of its keys. -/
theorem size_eq_length {dictionary : Dictionary κ α} {keys : List κ}
    (hdistinct : (dictionary.entries.map Prod.fst).Nodup) (hkeys : keys.Nodup)
    (h : ∀ key, key ∈ keys ↔ ∃ value, dictionary.get? key = some value) :
    dictionary.size = keys.length := by
  have hperm : (dictionary.entries.map Prod.fst).Perm keys := by
    refine (List.perm_ext_iff_of_nodup hdistinct hkeys).mpr fun key => ?_
    rw [h key, List.mem_map]
    constructor
    · rintro ⟨entry, hentry, rfl⟩
      cases hfind : dictionary.entries.find? (·.1 = entry.1) with
      | none => exact absurd (List.find?_eq_none.mp hfind entry hentry) (by simp)
      | some found => exact ⟨found.2, by simp [get?, hfind]⟩
    · rintro ⟨value, hvalue⟩
      obtain ⟨entry, hfind, -⟩ := Option.map_eq_some_iff.mp hvalue
      exact ⟨entry, List.mem_of_find?_eq_some hfind, by simpa using List.find?_some hfind⟩
  rw [size, ← hperm.length_eq, List.length_map]

end Dictionary

namespace Moment

/-- Whether every detail of what is remembered has been confirmed, and nothing is remembered twice.
-/
structure Finished (now : Moment) : Prop where
  confirmed : ∀ declaration definition, now.session.resolved.get? declaration = some definition →
    ∀ detail ∈ now.decls.details declaration, (declaration, detail) ∈ now.confirmed
  distinct : (now.session.resolved.entries.map Prod.fst).Nodup

variable {asked : Declaration → Prop} {mode : Mode} {start : World} {source : SourceId}
  {now next : Moment} {declaration : Declaration} {definition : Definition} {detail : Detail}

theorem Step.finished (hstep : Step asked mode now next) (hsound : now.Sound) (h : now.Finished) :
    next.Finished := by
  have hlater := hstep.later hsound
  have hsame (hresolved : next.session.resolved = now.session.resolved) : next.Finished := by
    refine ⟨fun declaration definition hmemo detail hdetail => ?_, hresolved ▸ h.distinct⟩
    rw [hresolved] at hmemo
    rw [hlater.decls] at hdetail
    exact hlater.confirmed _ (h.confirmed _ _ hmemo detail hdetail)
  cases hstep with
  | remember hstack hconfirmed =>
      refine ⟨fun declaration definition hmemo detail hdetail => ?_, ?_⟩
      · obtain ⟨rfl, -⟩ | hmemo := Dictionary.of_get?_insert hmemo
        · exact hconfirmed detail hdetail
        · exact h.confirmed _ _ hmemo detail hdetail
      · exact Dictionary.nodup_put h.distinct
  | quiet | load | enter | makeModule | create | locate | confirm | amend | abandon | hide | graft =>
      exact hsame rfl

theorem Run.finished (hrun : Run asked mode now next) (hsound : now.Sound) (h : now.Finished) :
    next.Finished :=
  hrun.keeps hsound (fun hstep hsound h => hstep.finished hsound h) h

/-- What is remembered agrees with its declaration in every detail. -/
theorem Orderly.holds (h : now.Orderly asked start) (hfinished : now.Finished)
    (hmemo : now.session.resolved.get? declaration = some definition)
    (hdetail : detail ∈ now.decls.details declaration) :
    now.Holds declaration definition detail := by
  have hconfirmed := hfinished.confirmed _ _ hmemo detail hdetail
  obtain ⟨found, hanswer, hholds⟩ := h.confirmed _ _ hconfirmed hdetail
  cases hanswer.symm.trans (answer_of_remembered hmemo)
  exact hholds

end Moment

end Graft
