import Graft.Proofs.Session.Running
import Graft.Proofs.Source.Failing
import Mathlib.Tactic.Tauto

/-!
# Opening modules

What a session has before it resolves anything: the graph with some modules in it (`World.opened`).
For one module this is what loading it gives, and for a source in memory it is the graph as it is
(`Steady.opens`).
-/

namespace Graft

open SessionTask

/-- Asks the source for a module, which it need not have. -/
def SessionTask.openModule (name : String) : SessionTask Unit := do
  let _ ← SessionTask.module? name

/-- A session that has asked its source for some modules and has resolved nothing yet. -/
def World.opened (world : World) (source : SourceId) (names : List String) : SessionState :=
  ((names.forM openModule).on ⟨{ source }, world⟩).2

/-- Whether it does not matter for the graph in which order modules are asked for: there is one only,
or the source keeps them in memory. -/
def World.Steady (world : World) (source : SourceId) (names : List String) : Prop :=
  (∃ name, names = [name]) ∨ ∃ modules saves, world.source source = .memory modules saves

/-- Whether a session has just the modules with some names that its source hands out. -/
structure World.Opens (world : World) (source : SourceId) (names : List String)
    (opened : SessionState) : Prop where
  session : opened.session = { source, modules := opened.session.modules }
  same : opened.world = { world with defs := opened.world.defs }
  loaded : ∀ name ∈ names, ∀ module after, (Task.load source name).on world = (.ok module, after) →
    opened.session.modules.get? name = some module ∧ after.defs = opened.world.defs ∧
      (opened.world.defs = world.defs ∨ names = [name])
  unloaded : ∀ name ∈ names, ∀ error after,
    (Task.load source name).on world = (.error error, after) →
      opened.session.modules.get? name = none

variable {world : World} {source : SourceId} {names : List String}

/-! ## One module -/

/-- A session that does not work on a module yet asks its source for it. -/
theorem SessionTask.on_openModule {state : SessionState} {name : String}
    (hnone : state.session.modules.get? name = none) :
    ((openModule name).on state).2 =
      match (Task.load state.session.source name).on state.world with
      | (.ok module, world) =>
          ⟨{ state.session with modules := state.session.modules.insert name module }, world⟩
      | (.error _, _) => state := by
  rw [openModule, SessionTask.module?, on_bind, on_bind, on_get]
  dsimp only
  rw [hnone]
  dsimp only
  rw [on_bind, on_attempt]
  cases hload : (Task.load state.session.source name).on state.world with
  | mk outcome after =>
      cases outcome with
      | ok module => rfl
      | error error =>
          obtain rfl := Task.load_error hload
          cases error <;> rfl

theorem World.opened_singleton (name : String) :
    world.opened source [name] = ((openModule name).on ⟨{ source }, world⟩).2 := by
  rw [World.opened, List.forM_eq_forM, List.forM_cons, on_bind]
  cases (openModule name).on ⟨{ source }, world⟩ with
  | mk outcome state => cases outcome <;> rfl

/-- One module is what loading it gives. -/
theorem World.opens_singleton (name : String) :
    world.Opens source [name] (world.opened source [name]) := by
  rw [opened_singleton, on_openModule rfl]
  dsimp only
  cases hload : (Task.load source name).on world with
  | mk outcome after =>
      cases outcome with
      | error error =>
          refine ⟨rfl, rfl, fun other hmem module after hon => ?_, fun _ _ _ _ _ => rfl⟩
          cases List.mem_singleton.mp hmem
          cases hload.symm.trans hon
      | ok module =>
          obtain ⟨defs, hkeeps⟩ := @Task.load_keeps source name world
          rw [hload] at hkeeps
          dsimp only at hkeeps
          subst hkeeps
          refine ⟨rfl, rfl, fun other hmem found after hon => ?_, fun other hmem error after hon => ?_⟩ <;>
            cases List.mem_singleton.mp hmem <;> cases hload.symm.trans hon
          exact ⟨by simp, rfl, .inr rfl⟩

/-! ## Modules in memory -/

section Memory

variable {kept modules : Dictionary String (DefId .module)} {saves : Dictionary String Nat}
  (hsource : world.source source = .memory kept saves)
  (hkept : ∀ name module, modules.get? name = some module → kept.get? name = some module)

include hsource hkept

/-- Asking for a module that a source keeps in memory, when others have been asked for before. -/
theorem SessionTask.on_openModule_memory (name : String) :
    ∃ opened : Dictionary String (DefId .module),
      (openModule name).on ⟨{ source, modules }, world⟩ =
          (.ok (), ⟨{ source, modules := opened }, world⟩) ∧
        (∀ other module, opened.get? other = some module → kept.get? other = some module) ∧
        ∀ other, other = name ∨ modules.get? other = kept.get? other →
          opened.get? other = kept.get? other := by
  rw [openModule, SessionTask.module?, on_bind, on_bind, on_get]
  dsimp only
  cases hmodule : modules.get? name with
  | some module =>
      refine ⟨modules, rfl, hkept, fun other hother => hother.elim (fun heq => ?_) id⟩
      rw [heq, hmodule, hkept name module hmodule]
  | none =>
      dsimp only
      rw [on_bind, on_attempt, Task.load_memory hsource]
      cases hname : kept.get? name with
      | none =>
          refine ⟨modules, rfl, hkept, fun other hother => hother.elim (fun heq => ?_) id⟩
          rw [heq, hmodule, hname]
      | some module =>
          refine ⟨modules.insert name module, rfl, fun other found hfound => ?_,
            fun other hother => ?_⟩
          · obtain ⟨rfl, rfl⟩ | hfound := Dictionary.of_get?_insert hfound
            · exact hname
            · exact hkept other found hfound
          · rw [Dictionary.get?_insert]
            split
            · rename_i heq
              rw [← heq, hname]
            · rename_i hne
              exact hother.resolve_left (Ne.symm hne)

/-- Asking for some modules that a source keeps in memory gives those. -/
theorem SessionTask.on_openModules (names : List String) :
    ∃ opened : Dictionary String (DefId .module),
      (names.forM openModule).on ⟨{ source, modules }, world⟩ =
          (.ok (), ⟨{ source, modules := opened }, world⟩) ∧
        ∀ name, name ∈ names ∨ modules.get? name = kept.get? name →
          opened.get? name = kept.get? name := by
  induction names generalizing modules with
  | nil => exact ⟨modules, rfl, by simp⟩
  | cons name names ih =>
      obtain ⟨first, hfirst, hkept', hsame⟩ := on_openModule_memory hsource hkept name
      obtain ⟨opened, hopened, hopens⟩ := ih hkept'
      refine ⟨opened, ?_, fun other hother => hopens other ?_⟩
      · rw [List.forM_eq_forM, List.forM_cons, on_bind, hfirst]
        exact hopened
      · have := hsame other
        rw [List.mem_cons] at hother
        tauto

omit hkept in
/-- A source in memory hands out what it keeps, and the graph stays as it is. -/
theorem World.opens_memory (names : List String) :
    world.Opens source names (world.opened source names) := by
  have hbegin : ∀ name module, ({} : Dictionary String (DefId .module)).get? name = some module →
      kept.get? name = some module := nofun
  obtain ⟨opened, hon, hopens⟩ := on_openModules hsource hbegin names
  have hopened : world.opened source names = ⟨{ source, modules := opened }, world⟩ :=
    congrArg Prod.snd hon
  rw [hopened]
  refine ⟨rfl, rfl, fun name hmem module after hload => ?_, fun name hmem error after hload => ?_⟩ <;>
    rw [Task.load_memory hsource] at hload <;> dsimp only <;> rw [hopens name (.inl hmem)]
  · cases hname : kept.get? name with
    | none => simp [hname] at hload
    | some found =>
        simp only [hname, Option.elim_some, Prod.mk.injEq, Except.ok.injEq] at hload
        obtain ⟨rfl, rfl⟩ := hload
        exact ⟨rfl, rfl, .inl rfl⟩
  · cases hname : kept.get? name with
    | none => rfl
    | some found => simp [hname] at hload

end Memory

/-- Where the order does not matter, a session that has asked for some modules has those that the
source hands out. -/
theorem World.Steady.opens (h : world.Steady source names) :
    world.Opens source names (world.opened source names) := by
  obtain ⟨name, rfl⟩ | ⟨modules, saves, hsource⟩ := h
  · exact opens_singleton name
  · exact opens_memory hsource names

end Graft
