import Graft.Proofs.Install.Establishing
import Graft.Proofs.Session.Settled

/-!
# What an installation makes

Installing a patch makes exactly what is missing: one definition for each declaration that nothing
old had the key of, and one hidden method for each body that calls the base body
(`install_creates_missing`).
-/

namespace Graft

namespace Moment

variable {asked : Declaration → Prop} {world : World} {source : SourceId}

theorem census_begin : (begin source world).Census fun definition =>
    world.defs.has definition = true where
  there _ hhas := hhas
  new _ hhas := .inl hhas
  inside _ _ _ hmem _ := Definitions.has_of_mem_members hmem
  found := by simp [begin, answer, Dictionary.get?]
  missing := by simp [begin]

theorem sourced_begin : (begin source world).Sourced world source where
  offered := by simp [begin, Dictionary.get?]
  lacked := by simp [begin]

end Moment

open Moment

/-- How a session that has installed a patch tells what was there before from what was made: `old`
holds of the definitions that were there, `made` has those that were made for declarations, and
`hidden` the hidden methods. -/
structure Creates (world : World) (source : SourceId) (nodes : List Declaration) (last : Moment)
    (old : Definition → Prop) (made : List (Declaration × Definition))
    (hidden : List (Option (DefId .method))) : Prop where
  past : world.Past source old
  /-- A module was there if the source had it. -/
  offered : ∀ id found, .module id ∈ nodes → last.Stood old (.module id) (.module found) →
    world.Offers source (world.decls.module id).name found
  lacked : ∀ id, .module id ∈ nodes → (∀ found, ¬ last.Stood old (.module id) found) →
    world.Lacks source (world.decls.module id).name
  present : ∀ node ∈ nodes, (world.decls.terms node).policy = .failIfPresent →
    ∀ definition, ¬ last.Stood old node definition
  missing : ∀ node ∈ nodes, (world.decls.terms node).policy = .failIfMissing →
    ∃ definition, last.Stood old node definition
  /-- What was there is what the declaration stands for. -/
  found : ∀ node ∈ nodes, ∀ definition, last.Stood old node definition →
    last.session.resolved.get? node = some definition
  /-- One definition was made for each declaration for which there was none. -/
  needed : ∀ node, (∃ definition, (node, definition) ∈ made) ↔
    node ∈ nodes ∧ ∀ definition, ¬ last.Stood old node definition
  resolved : ∀ node definition, (node, definition) ∈ made →
    last.session.resolved.get? node = some definition
  /-- One hidden method was made for each body that calls the base body. -/
  called : List.Forall₂ (HiddenFor world last) (nodes.filterMap (·.method?)) hidden
  /-- Nothing else was made, and nothing twice. -/
  new : ∀ definition, last.defs.has definition = true ∧ ¬ old definition ↔
    definition ∈ made.map (·.2) ++ hidden.reduceOption.map .method
  distinct : (made.map (·.2) ++ hidden.reduceOption.map Definition.method).Nodup

/-- In a settled session what was made is all that was missing, and the hidden methods. -/
theorem Moment.Orderly.creates {world : World} {source : SourceId} {nodes : List Declaration}
    {last : Moment} {old : Definition → Prop} {hidden : List (Option (DefId .method))}
    (h : last.Orderly (· ∈ nodes) world) (hprepared : world.Prepared source (· ∈ nodes))
    (hclosed : world.decls.Closed (· ∈ nodes)) (hpast : world.Past source old)
    (hsourced : last.Sourced world source) (hcensus : last.Census old)
    (hconcealed : last.Concealed old) (hsettled : last.Settled (· ∈ nodes))
    (hhidden : last.hidden = hidden.reduceOption.reverse)
    (hcalled : List.Forall₂ (HiddenFor world last) (nodes.filterMap (·.method?)) hidden) :
    Creates world source nodes last old last.made.dedup hidden := by
  have hdecls := h.decls
  have hanswers := hsettled.answer_eq
  -- In the end every answer is remembered, and it stands for something old or was made.
  have hstood {node : Declaration} {definition : Definition} (hnode : node ∈ nodes) :
      last.Stood old node definition ↔
        last.session.resolved.get? node = some definition ∧ old definition :=
    h.stood_iff hprepared hcensus hconcealed hsettled (hdecls ▸ hclosed) hnode
  have hremembered (node : Declaration) (hnode : node ∈ nodes) :
      ∃ definition, last.session.resolved.get? node = some definition ∧
        (last.Stood old node definition ∨ (node, definition) ∈ last.made) := by
    obtain ⟨definition, hmemo⟩ := hsettled.remembered node hnode
    refine ⟨definition, hmemo, ?_⟩
    exact (h.old_or_made hprepared hcensus hconcealed (answer_of_remembered hmemo)).imp_left
      fun hold => (hstood hnode).mpr ⟨hmemo, hold⟩
  have hresolved {node : Declaration} {definition : Definition}
      (hmem : (node, definition) ∈ last.made) :
      last.session.resolved.get? node = some definition := by
    rw [← hanswers]
    exact h.sound.made _ hmem
  refine {
    past := hpast
    offered := ?_
    lacked := ?_
    present := ?_
    missing := ?_
    found := fun node hnode definition hold => ((hstood hnode).mp hold).1
    needed := ?_
    resolved := fun node definition hmem => hresolved (List.mem_dedup.mp hmem)
    called := hcalled
    new := ?_
    distinct := ?_ }
  · intro id found hnode hold
    cases hold with
    | module hold hmodule =>
        rw [hdecls] at hmodule
        refine (hsourced.offered _ _ hmodule).resolve_right fun ⟨_, hmade⟩ => ?_
        exact (hcensus.missing _ _ hmade).1 hold
    | member _ hparent => cases hparent
  · intro id hnode hnone
    obtain ⟨definition, -, hold | hmade⟩ := hremembered _ hnode
    · exact absurd hold (hnone definition)
    · exact hdecls ▸ hsourced.lacked id definition hmade
  · intro node hnode hpolicy definition hold
    obtain ⟨hmemo, hold⟩ := (hstood hnode).mp hold
    rw [← hdecls] at hpolicy
    exact (hcensus.found _ _ (answer_of_remembered hmemo) hold).1 hpolicy
  · intro node hnode hpolicy
    obtain ⟨definition, -, hold | hmade⟩ := hremembered node hnode
    · exact ⟨definition, hold⟩
    · rw [← hdecls] at hpolicy
      exact absurd hpolicy (hcensus.missing _ _ hmade).2.1
  · intro node
    simp only [List.mem_dedup]
    constructor
    · rintro ⟨definition, hmade⟩
      have hnode := h.asked _ _ (h.sound.made _ hmade)
      refine ⟨hnode, fun other hold => ?_⟩
      obtain ⟨hmemo, hold⟩ := (hstood hnode).mp hold
      cases hmemo.symm.trans (hresolved hmade)
      exact (hcensus.missing _ _ hmade).1 hold
    · rintro ⟨hnode, hnone⟩
      obtain ⟨definition, -, hold | hmade⟩ := hremembered node hnode
      · exact absurd hold (hnone definition)
      · exact ⟨definition, hmade⟩
  · intro definition
    simp only [List.mem_append, List.mem_map, List.mem_dedup]
    constructor
    · rintro ⟨hhas, hnew⟩
      obtain hold | ⟨declaration, hmade⟩ | ⟨made, hmem, rfl⟩ := hcensus.new definition hhas
      · exact absurd hold hnew
      · exact .inl ⟨_, hmade, rfl⟩
      · exact .inr ⟨made, List.mem_reverse.mp (hhidden ▸ hmem), rfl⟩
    · rintro (⟨entry, hmade, rfl⟩ | ⟨made, hmem, rfl⟩)
      · exact ⟨h.sound.has_answer (h.sound.made _ hmade), (hcensus.missing _ _ hmade).1⟩
      · have hmem : made ∈ last.hidden := hhidden ▸ List.mem_reverse.mpr hmem
        exact ⟨hconcealed.there made hmem, hconcealed.new made hmem⟩
  · refine List.nodup_append.mpr ⟨?_, ?_, ?_⟩
    · refine List.Nodup.map_on (fun entry hmem other hmem' hsame => ?_) (List.nodup_dedup _)
      have hanswer := h.sound.made _ (List.mem_dedup.mp hmem)
      have hanswer' := h.sound.made _ (List.mem_dedup.mp hmem')
      exact Prod.ext (h.injective hprepared hanswer (hsame ▸ hanswer')) hsame
    · refine List.Nodup.map (fun _ _ hsame => by cases hsame; rfl) ?_
      exact List.nodup_reverse.mp (hhidden ▸ hconcealed.distinct)
    · intro definition hmem other hmem' hsame
      obtain ⟨entry, hmade, rfl⟩ := List.mem_map.mp hmem
      obtain ⟨made, hmade', rfl⟩ := List.mem_map.mp hmem'
      refine hconcealed.apart made (hhidden ▸ List.mem_reverse.mpr hmade') entry.1 ?_
      exact hsame ▸ h.sound.made _ (List.mem_dedup.mp hmade)

/-- A type that is listed in two modules, and declarations of a new field in each of them. -/
def World.jointFields : World :=
  { World.joint with
    decls :=
      { modules := World.joint.decls.modules
        types := ⟨#[
          some
            { terms := ⟨.failIfMissing, false⟩
              place := .topLevel ⟨0⟩ "Core"
              name := "Clock"
              fields := [⟨0⟩] },
          some
            { terms := ⟨.failIfMissing, false⟩
              place := .topLevel ⟨1⟩ "Core"
              name := "Clock"
              fields := [⟨1⟩] }]⟩
        fields := ⟨#[
          some
            { terms := ⟨.failIfPresent, false⟩
              owner := ⟨0⟩
              name := "Next"
              signature := .primitive .int32 },
          some
            { terms := ⟨.createIfMissing, false⟩
              owner := ⟨1⟩
              name := "Next"
              signature := .primitive .int32 }]⟩ } }

end Graft
