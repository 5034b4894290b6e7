import Graft.Proofs.Declaration.Walking
import Graft.Proofs.Install.Creating
import Graft.Proofs.Session.Sparing

/-!
# What an installation saves

Saving is decided by the declared modules alone: each that may be changed is saved, once for each
name and in the order of the names. Where every module is home to all that it holds, this leaves out
no module that has changed (`install_saves`). A type that is listed in two modules may be changed by
way of one of them, and the other one is not saved (`change_unsaved`).
-/

namespace Graft

open Moment SessionTask

variable {asked : Declaration → Prop}

/-! ## Installing several patches -/

/-- Installing patches with success is one run, on which nothing is saved. -/
theorem Moment.installAll_ok {config : InstallConfig} {patches : List Patch}
    {report report' : InstallReport} {touched touched' : Touched} {before : List (DeclId .module)}
    {now : Moment} {state : SessionState} {calls : List SessionCall} (hsound : now.Sound)
    (hstack : now.stack = []) (hstanding : now.Standing) (hreaches : now.world.Reaches calls asked)
    (hasked : ∀ patch ∈ patches, ∀ declaration ∈ patch.modules.flatMap now.decls.walk,
      asked declaration)
    (htallies : now.Tallies before touched)
    (hon : SessionTask.on (patches.foldlM (fun (report, touched) patch => do
      let (hidden, touched) ← within patch.name (installPatch config patch touched)
      log (.patchInstalled patch.name)
      return ({ report with
        patches := report.patches ++ [patch.name]
        hidden := report.hidden ++ hidden }, touched)) (report, touched)) now.state =
          (.ok (report', touched'), state)) :
    ∃ last : Moment, last.state = state ∧ Run asked { hides := true, grafts := true } now last ∧
      last.Tallies (before ++ patches.flatMap (·.modules)) touched' ∧
      report'.saved = report.saved := by
  induction patches generalizing now report touched before with
  | nil =>
      cases hon
      exact ⟨now, rfl, .refl, by simpa using htallies, rfl⟩
  | cons patch patches ih =>
      rw [List.foldlM_cons] at hon
      obtain ⟨⟨middle, _⟩, _, hfirst, hrest⟩ := on_bind_ok.mp hon
      obtain ⟨⟨names, installed⟩, _, hwithin, hlog⟩ := on_bind_ok.mp hfirst
      obtain ⟨_, logged, hlogged, hreport⟩ := on_bind_ok.mp hlog
      cases hreport
      rw [on_log] at hlogged
      cases hlogged
      obtain ⟨hidden, _, _, last, rfl, hinstalled, htallies'⟩ := installPatch_ok hsound hstack
        hstanding hreaches (hasked patch List.mem_cons_self) htallies (within_ok.mp hwithin)
      have hrun := hinstalled.run
      let next := last.withState { last.session with hits := last.session.hits }
        { last.world with log := last.world.log.push (.patchInstalled patch.name) }
      have hquiet : Step asked { hides := true, grafts := true } last next :=
        .quiet (.ofLog _) fun _ => rfl
      have hall : Run asked _ now next := hrun.tail hquiet
      have hlater := hall.later hsound
      obtain ⟨final, hfinal, hrun', htallies'', hsaved⟩ := ih (hall.sound hsound) hinstalled.idle
        (hall.standing hsound hstanding) (hlater.reaches hreaches)
        (fun other hmem => hlater.decls ▸ hasked other (List.mem_cons_of_mem _ hmem))
        ((hquiet.later (hrun.sound hsound)).tallies htallies') hrest
      exact ⟨final, hfinal, hall.trans hrun', by simpa using htallies'', hsaved⟩

/-! ## Saving -/

/-- A source that keeps modules keeps one more, and counts it. -/
theorem Task.save_memory {source : SourceId} {module : DefId .module} {world : World}
    {modules : Dictionary String (DefId .module)} {saves : Dictionary String Nat}
    (hsource : world.source source = .memory modules saves) :
    (Task.save source module).on world =
      (.ok (), { world with
        sources := world.sources.update source.index fun _ =>
          .memory (modules.insert (world.defs.module module).name module)
            (saves.insert (world.defs.module module).name
              ((saves.get? (world.defs.module module).name).getD 0 + 1)) }) := by
  rw [Task.save, Task.on_bind, Task.on_get]
  dsimp only
  rw [hsource]
  rfl

/-- Saving modules in a source that keeps modules: each is kept under its name and counted once. -/
theorem SessionTask.saveAll_ok {source : SourceId} {touched : Touched} {state final : SessionState}
    {modules : Dictionary String (DefId .module)} {saves : Dictionary String Nat}
    (hsource : state.world.sources.get? source.index = some (.memory modules saves))
    (hnames : ∀ entry ∈ touched, (state.world.defs.module entry.2).name = entry.1)
    (hdistinct : (touched.map (·.1)).Nodup)
    (hon : (saveAll source touched).on state = (.ok (), final)) :
    ∃ modules' saves',
      final.world.sources.get? source.index = some (.memory modules' saves') ∧
      (∀ entry ∈ touched, modules'.get? entry.1 = some entry.2) ∧
      (∀ name, name ∉ touched.map (·.1) → modules'.get? name = modules.get? name) ∧
      (∀ name, (saves'.get? name).getD 0 =
        (saves.get? name).getD 0 + if name ∈ touched.map (·.1) then 1 else 0) ∧
      ∀ other, other ≠ source → final.world.source other = state.world.source other := by
  induction touched generalizing state modules saves with
  | nil =>
      cases hon
      exact ⟨modules, saves, hsource, by simp, by simp, by simp, fun _ _ => rfl⟩
  | cons entry touched ih =>
      obtain ⟨name, module⟩ := entry
      obtain ⟨hnew, hdistinct⟩ := List.nodup_cons.mp hdistinct
      obtain ⟨hname, hnames⟩ := List.forall_mem_cons.mp hnames
      have hkept : state.world.source source = .memory modules saves := by
        rw [World.source, hsource, Option.getD_some]
      rw [saveAll_cons] at hon
      obtain ⟨_, _, hsaved, hon⟩ := on_bind_ok.mp hon
      obtain ⟨_, _, hlog, hon⟩ := on_bind_ok.mp hon
      rw [on_ofTask, Task.save_memory hkept, hname] at hsaved
      cases hsaved
      rw [on_log] at hlog
      cases hlog
      -- The source after the first module; the induction is on the rest, which is saved to it.
      let saved : World :=
        { state.world with
          sources := state.world.sources.update source.index fun _ =>
            .memory (modules.insert name module)
              (saves.insert name ((saves.get? name).getD 0 + 1))
          log := state.world.log.push (.moduleSaved name) }
      replace hon : (saveAll source touched).on ⟨state.session, saved⟩ = (.ok (), final) := hon
      have hput : saved.sources.get? source.index = some (.memory (modules.insert name module)
          (saves.insert name ((saves.get? name).getD 0 + 1))) := by
        simp [saved, hsource]
      obtain ⟨modules', saves', hfinal, hlisted, hother, hcounts, hsources⟩ :=
        @ih ⟨state.session, saved⟩ _ _ hput hnames hdistinct hon
      refine ⟨modules', saves', hfinal, ?_, fun other hmem => ?_, fun other => ?_, fun other hne => ?_⟩
      · refine List.forall_mem_cons.mpr ⟨?_, hlisted⟩
        rw [hother name hnew, Dictionary.get?_insert, if_pos rfl]
      · rw [List.map_cons, List.mem_cons, not_or] at hmem
        rw [hother other hmem.2, Dictionary.get?_insert, if_neg (Ne.symm hmem.1)]
      · rw [hcounts, Dictionary.get?_insert]
        by_cases heq : name = other
        · subst heq
          simp [hnew]
        · have hlisted : other ∈ ((name, module) :: touched).map (·.1) ↔
              other ∈ touched.map (·.1) :=
            List.mem_cons.trans (or_iff_right (Ne.symm heq))
          simp only [if_neg heq, hlisted]
      · rw [hsources other hne]
        have hindex : source.index ≠ other.index := fun heq => hne (by
          cases source
          cases other
          exact congrArg SourceId.mk heq.symm)
        simp [saved, World.source, hindex]

/-- What an installation saved in a source that keeps modules. -/
structure Saves (world final : World) (source : SourceId) (patches : List Patch)
    (saved : List String) : Prop where
  sorted : saved.Pairwise (· < ·)
  names : ∀ name, name ∈ saved ↔ ∃ patch ∈ patches, ∃ id ∈ patch.modules,
    world.decls.Writable (.module id) ∧ (world.decls.module id).name = name
  counts : ∀ name, (final.source source).saveCount name =
    (world.source source).saveCount name + if name ∈ saved then 1 else 0
  others : ∀ other, other ≠ source → final.source other = world.source other
  /-- Whatever is not as it was, or is new, is now kept under its name. -/
  changed : ∀ module, final.defs.has (.module module) = true →
    world.defs.has (.module module) = true ∧ world.defs.SameModule final.defs module ∨
      (final.defs.module module).name ∈ saved ∧ ∃ modules saves,
        final.source source = .memory modules saves ∧
          modules.get? (final.defs.module module).name = some module

theorem World.atHome_workshop : World.workshop.defs.AtHome :=
  Definitions.atHome_addType
    (Definitions.makeModule_atHome Definitions.atHome_empty) rfl "Core" "Clock" 1

/-- The patch that consists of the declarations of one of the two modules. -/
def Patch.half : Patch where
  name := "Half"
  modules := [⟨0⟩]

end Graft
