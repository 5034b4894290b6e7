import Graft.Proofs.Install.Installing
import Graft.Proofs.Pairing.Sharing

/-!
# Installing side by side

From states that are alike a patch is installed in the same way, whatever has been touched or reported
before (`relates_installPatch`); and so are several patches one after another
(`relates_installPatches`), where the reports grow by the same names.
-/

namespace Graft

open SessionTask

/-- One more patch is installed. -/
def SessionTask.installNext (config : InstallConfig) :
    InstallReport × Touched → Patch → SessionTask (InstallReport × Touched) :=
  fun (report, touched) patch => do
    let (hidden, touched) ← within patch.name (installPatch config patch touched)
    log (.patchInstalled patch.name)
    return ({ report with
      patches := report.patches ++ [patch.name]
      hidden := report.hidden ++ hidden }, touched)

namespace Pairing

variable {P : Pairing} {decls : Declarations} {asked : Declaration → Prop} {α β γ δ : Type}

/-! ## Answers that are related -/

/-- How two operations may end: with answers that are related, in states that are alike, or with the
same failure. -/
inductive Ends (P : Pairing) (R : α → β → Prop) :
    Except Error α × SessionState → Except Error β × SessionState → Prop where
  | ok {value : α} {value' : β} {left right : SessionState} (hvalue : R value value')
      (halike : P.Alike left right) : Ends P R (.ok value, left) (.ok value', right)
  | error (error : Error) (left right : SessionState) : Ends P R (.error error, left) (.error error, right)

/-- Whether two operations end alike from states that are alike. -/
def Relates (P : Pairing) (R : α → β → Prop) (task : SessionTask α) (task' : SessionTask β) : Prop :=
  ∀ left right, P.Alike left right → P.Ends R (task.on left) (task'.on right)

theorem Couples.relates {task task' : SessionTask α} (h : P.Couples task task') :
    P.Relates Eq task task' := by
  intro left right halike
  obtain ⟨houtcome, halike', -⟩ := h left right halike
  cases hleft : task.on left with
  | mk outcome middle =>
      cases hright : task'.on right with
      | mk outcome' middle' =>
          rw [hleft, hright] at houtcome halike'
          obtain rfl : outcome = outcome' := houtcome
          cases outcome with
          | ok value => exact .ok rfl halike'
          | error error => exact .error error middle middle'

namespace Relates

variable {R : α → β → Prop} {S : γ → δ → Prop}

theorem pure {value : α} {value' : β} (h : R value value') :
    P.Relates R (Pure.pure value) (Pure.pure value') :=
  fun _ _ halike => .ok h halike

theorem bind {task : SessionTask α} {task' : SessionTask β} {next : α → SessionTask γ}
    {next' : β → SessionTask δ} (htask : P.Relates R task task')
    (hnext : ∀ value value', R value value' → P.Relates S (next value) (next' value')) :
    P.Relates S (task >>= next) (task' >>= next') := by
  intro left right halike
  have hfirst := htask left right halike
  rw [on_bind, on_bind]
  cases hleft : task.on left with
  | mk outcome middle =>
      cases hright : task'.on right with
      | mk outcome' middle' =>
          rw [hleft, hright] at hfirst
          cases hfirst with
          | ok hvalue halike => exact hnext _ _ hvalue middle middle' halike
          | error error => exact .error error middle middle'

/-- What fails as a patch fails in the same way as a patch. -/
theorem within {task : SessionTask α} {task' : SessionTask β} (h : P.Relates R task task')
    (patch : String) :
    P.Relates R (SessionTask.within patch task) (SessionTask.within patch task') := by
  intro left right halike
  have hends := h left right halike
  rw [on_within, on_within]
  cases hleft : task.on left with
  | mk outcome middle =>
      cases hright : task'.on right with
      | mk outcome' middle' =>
          rw [hleft, hright] at hends
          cases hends with
          | ok hvalue halike => exact .ok hvalue halike
          | error error => exact .error _ middle middle'

end Relates

namespace Carrying

variable (law : P.Carrying decls asked)

include law

/-! ## One patch -/

theorem couples_resolveAll {declarations : List Declaration}
    (hasked : ∀ declaration ∈ declarations, asked declaration) :
    P.Couples (resolveAll declarations) (resolveAll declarations) :=
  .forM fun declaration hmem => (law.resolve declaration (hasked declaration hmem)).map _

theorem couples_resolvePatch {declarations : List Declaration}
    (hasked : ∀ declaration ∈ declarations, asked declaration) (config : InstallConfig) :
    P.Couples (resolvePatch config decls declarations) (resolvePatch config decls declarations) := by
  have hall (keeps : Declaration → Bool) : P.Couples (resolveAll (declarations.filter keeps))
      (resolveAll (declarations.filter keeps)) :=
    law.couples_resolveAll fun declaration hmem => hasked declaration (List.mem_of_mem_filter hmem)
  exact (hall _).bind fun _ => (hall _).bind fun _ => hall _

theorem couples_transplantAll {declarations : List Declaration}
    (hasked : ∀ declaration ∈ declarations, asked declaration) (suffix : String) :
    P.Couples (transplantAll declarations suffix) (transplantAll declarations suffix) := by
  refine Couples.bind (.mapM fun id hmem => ?_) fun _ => .pure _
  obtain ⟨declaration, hmem, hmethod⟩ := List.mem_filterMap.mp hmem
  cases declaration <;> cases hmethod
  refine (law.couples_transplant (hasked _ hmem) suffix).bind fun hidden => ?_
  cases hidden with
  | none => exact .pure _
  | some hidden =>
      refine law.toLinked.world fun world world' hlinks _ => ?_
      rw [hlinks.methodName]
      exact .pure _

/-- What has been touched before makes no difference to whether touching succeeds. -/
theorem relates_touch {modules : List (DeclId .module)}
    (hasked : ∀ id ∈ modules, asked (.module id)) (touched touched' : Touched) :
    P.Relates (fun _ _ => True) (touch modules touched) (touch modules touched') := by
  have hall (ids : List (DeclId .module)) (hids : ∀ id ∈ ids, asked (.module id))
      (touched touched' : Touched) :
      P.Relates (fun _ _ => True)
        (ids.foldlM (fun (touched : Touched) id => do
          return touched.add (decls.module id).name (← Search.module SessionTask.resolve id)) touched)
        (ids.foldlM (fun (touched : Touched) id => do
          return touched.add (decls.module id).name (← Search.module SessionTask.resolve id))
            touched') := by
    -- What has been touched is only written, so that nothing need be known about it.
    induction ids generalizing touched touched' with
    | nil => exact .pure trivial
    | cons id ids ih =>
        obtain ⟨hid, hids⟩ := List.forall_mem_cons.mp hids
        have hmodule := (Search.couples_module law.toLinked (law.resolve _ hid)).relates
        rw [List.foldlM_cons, List.foldlM_cons, bind_assoc, bind_assoc]
        exact hmodule.bind fun _ _ _ => ih hids _ _
  intro left right halike
  have hlinks := law.links left right halike
  have hdecls := law.decls_eq left right halike
  unfold touch
  rw [on_bind, on_world, on_bind, on_world]
  dsimp only
  rw [hlinks.decls, hdecls]
  exact hall _ (fun id hmem => hasked id (List.mem_of_mem_filter hmem)) _ _ left right halike

/-- A patch is installed in the same way. -/
theorem relates_installPatch {config : InstallConfig} {patch : Patch}
    (hasked : ∀ declaration ∈ patch.modules.flatMap decls.walk, asked declaration)
    (touched touched' : Touched) :
    P.Relates (fun (outcome outcome' : List String × Touched) => outcome.1 = outcome'.1)
      (installPatch config patch touched) (installPatch config patch touched') := by
  have hmodules : ∀ id ∈ patch.modules, asked (.module id) := fun id hmem =>
    hasked _ (List.mem_flatMap.mpr ⟨id, hmem, List.mem_cons_self⟩)
  have hrest : P.Relates (fun (outcome outcome' : List String × Touched) => outcome.1 = outcome'.1)
      (do
        resolvePatch config decls (patch.modules.flatMap decls.walk)
        let hidden ← transplantAll (patch.modules.flatMap decls.walk) config.hiddenSuffix
        return (hidden, ← touch patch.modules touched))
      (do
        resolvePatch config decls (patch.modules.flatMap decls.walk)
        let hidden ← transplantAll (patch.modules.flatMap decls.walk) config.hiddenSuffix
        return (hidden, ← touch patch.modules touched')) := by
    refine (law.couples_resolvePatch hasked config).relates.bind fun _ _ _ => ?_
    refine (law.couples_transplantAll hasked _).relates.bind fun hidden hidden' heq => ?_
    subst heq
    exact (law.relates_touch hmodules _ _).bind fun _ _ _ => .pure rfl
  intro left right halike
  have hlinks := law.links left right halike
  have hdecls := law.decls_eq left right halike
  rw [installPatch_eq, installPatch_eq, on_bind, on_world, on_bind, on_world]
  dsimp only
  rw [hlinks.decls, hdecls]
  exact hrest left right halike

/-! ## Several patches -/

/-- Patches are installed one after another in the same way, whatever was installed before them. -/
theorem relates_installPatches {config : InstallConfig} {patches : List Patch}
    (hasked : ∀ patch ∈ patches, ∀ declaration ∈ patch.modules.flatMap decls.walk, asked declaration)
    {earlier report report' : InstallReport} (touched touched' : Touched)
    (hpatches : report.patches = earlier.patches ++ report'.patches)
    (hhidden : report.hidden = earlier.hidden ++ report'.hidden) :
    P.Relates (fun (outcome outcome' : InstallReport × Touched) =>
        outcome.1.patches = earlier.patches ++ outcome'.1.patches ∧
          outcome.1.hidden = earlier.hidden ++ outcome'.1.hidden)
      (patches.foldlM (installNext config) (report, touched))
      (patches.foldlM (installNext config) (report', touched')) := by
  -- By induction on what is left to install: the report of one session is ahead by what the other
  -- session has not installed.
  induction patches generalizing report report' touched touched' with
  | nil => exact .pure ⟨hpatches, hhidden⟩
  | cons patch patches ih =>
      obtain ⟨hpatch, hrest⟩ := List.forall_mem_cons.mp hasked
      rw [List.foldlM_cons, List.foldlM_cons]
      unfold installNext
      rw [bind_assoc, bind_assoc]
      refine ((law.relates_installPatch hpatch touched touched').within patch.name).bind ?_
      rintro ⟨hidden, touched⟩ ⟨hidden', touched'⟩ (rfl : hidden = hidden')
      dsimp only
      rw [bind_assoc, bind_assoc]
      refine (law.log _).relates.bind fun _ _ _ => ?_
      rw [pure_bind, pure_bind]
      refine ih hrest touched touched' ?_ ?_
      · rw [hpatches, List.append_assoc]
      · rw [hhidden, List.append_assoc]

end Carrying

end Pairing

end Graft
