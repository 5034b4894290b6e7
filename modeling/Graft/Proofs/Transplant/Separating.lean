import Graft.Proofs.Session.Separate
import Graft.Proofs.Transplant.Transplanting

/-!
# Carried bodies keep apart from the patch module

A body that is carried over by an importing transformer refers to nothing of the patch module: what
belongs to it is replaced by declarations, and these by what they stand for
(`CarriedBody.not_into`). So a transplant keeps apart (`Grafted.separate`).
-/

namespace Graft

/-- A type, a field or a method that belongs to the patch module is the importer's own. -/
theorem World.owns_of_home {world : World} {importer : ImporterId} {definition : Definition}
    (hkind : definition.kind ∈ [SymbolKind.type, .field, .method])
    (hhome : world.defs.home? definition = some (world.importer importer).scope) :
    world.owns importer definition = true := by
  have hmember {owner : Option (DefId .type)}
      (h : (world.defs.living? owner).bind world.defs.moduleOf? =
        some (world.importer importer).scope) : importer.ownsMember world owner = true := by
    obtain ⟨type, hliving, hmodule⟩ := Option.bind_eq_some_iff.mp h
    simp [ImporterId.ownsMember, ImporterId.ownsType, hliving, hmodule]
  obtain ⟨record, hrecord, hmodule⟩ := Option.bind_eq_some_iff.mp hhome
  have hhas : world.defs.has definition = true := Definitions.has_iff.mpr ⟨record, hrecord⟩
  cases definition with
  | module | property | event => simp [Definition.kind] at hkind
  | type id =>
      have hhas : world.defs.types.has id.index = true := hhas
      simp [World.owns, World.ownsType, ImporterId.ownsType, hhas, hmodule]
  | field id =>
      cases (Definitions.record?_field hhas).symm.trans hrecord
      have hhas : world.defs.fields.has id.index = true := hhas
      have hown : importer.ownsMember world (world.defs.field id).owner = true := hmember hmodule
      simp [World.owns, World.ownsField, hhas, hown]
  | method id =>
      cases (Definitions.record?_method hhas).symm.trans hrecord
      have hhas : world.defs.methods.has id.index = true := hhas
      have hown : importer.ownsMember world (world.defs.method id).owner = true := hmember hmodule
      simp [World.owns, ImporterId.ownsMethod, hhas, hown]

/-- Imported references lead to nothing that belongs to the patch module. -/
theorem World.not_into_of_imports {world : World} {importer : ImporterId}
    {set : Definition → Prop} {target target' : Target}
    (hset : ∀ definition, set definition →
      world.defs.home? definition = some (world.importer importer).scope)
    (himports : world.Imports importer target)
    (hmem : target' ∈ (world.bind importer).image target) : ¬ target'.Into set := by
  intro hinto
  cases target' with
  | declaration | unknown => exact hinto
  | definition definition =>
      have howns := World.not_owns_of_mem_image_bind himports hmem
      cases definition with
      | module | property | event => exact hinto
      | type | field | method =>
          rw [World.owns_of_home (by simp [Definition.kind]) (hset _ hinto)] at howns
          cases howns

/-- Every item on the right is related to one on the left. -/
theorem exists_left_of_forall₂ {α β : Type} {R : α → β → Prop} {left : List α} {right : List β}
    (h : List.Forall₂ R left right) : ∀ b ∈ right, ∃ a ∈ left, R a b := by
  induction h with
  | nil => simp
  | cons hhead _ ih =>
      refine List.forall_mem_cons.mpr ⟨⟨_, List.mem_cons_self, hhead⟩, fun b hmem => ?_⟩
      obtain ⟨a, hleft, hrelated⟩ := ih b hmem
      exact ⟨a, List.mem_cons_of_mem _ hleft, hrelated⟩

/-- What follows from being related to something holds of every item on the right. -/
theorem forall_right_of_forall₂ {α β : Type} {R : α → β → Prop} {P : β → Prop} {left : List α}
    {right : List β} (h : List.Forall₂ R left right) (himp : ∀ a b, R a b → P b) :
    ∀ b ∈ right, P b := fun b hmem =>
  have ⟨a, _, hrelated⟩ := exists_left_of_forall₂ h b hmem
  himp a b hrelated

/-- What is related to something on the right is there on the left. -/
theorem exists_left_of_rel {α β : Type} {R : α → β → Prop} {left : Option α} {b : β}
    (h : Option.Rel R left (some b)) : ∃ a, left = some a ∧ R a b := by
  cases h with
  | some hrelated => exact ⟨_, rfl, hrelated⟩

namespace Moment

variable {asked : Declaration → Prop} {patch : DefId .module} {set : Definition → Prop}
  {start : World} {now done : Moment} {importer : ImporterId} {bases : List Token}

/-- Whether a transformer imports from a module, and so does whatever world it works in. -/
structure ImportsFrom (patch : DefId .module) (set : Definition → Prop) (start : World)
    (now : Moment) (importer : ImporterId) : Prop where
  scope : (now.world.importer importer).scope = patch
  home : ∀ definition, set definition → start.defs.home? definition = some patch

/-- What is carried over refers to nothing of the module. -/
theorem Carries.not_into {α : Type} {targets : α → List Target} {relink : Relink → α → α}
    {value carried : α} (hrelinks : Relinks targets relink)
    (himports : ImportsFrom patch set start now importer) (h : now.Separate asked patch set)
    (hcarries : now.Carries start (.importing importer bases) targets relink value carried) :
    ∀ target ∈ targets carried, ¬ target.Into set := by
  obtain ⟨world, hbetween, hadmits, hsettled, hcarried⟩ := hcarries
  have hscope : (world.importer importer).scope = patch :=
    (hbetween.scope importer).symm.trans himports.scope
  rw [hrelinks.targets_of_bare hcarried, hrelinks.targets_relink]
  refine h.not_into_fill hsettled fun target hmem => ?_
  rw [hrelinks.targets_relink] at hmem
  obtain ⟨source, hsource, hmem⟩ := List.mem_flatMap.mp hmem
  refine World.not_into_of_imports (fun definition hset => ?_) (hadmits source hsource) hmem
  rw [hscope]
  exact hbetween.after.home? (himports.home definition hset)

theorem Carried.not_into {hidden : Option (DefId .method)} {call : Bool} {operand carried : Operand}
    (himports : ImportsFrom patch set start now importer) (h : now.Separate asked patch set)
    (hhidden : ∀ method, hidden = some method → ¬ set (.method method))
    (hcarried : now.Carried start (.importing importer bases) hidden call operand carried) :
    ∀ target ∈ carried.targets, ¬ target.Into set := by
  induction hcarried with
  | base hplain hbase hmethod =>
      simpa [Operand.targets, MethodRef.targets, Target.Into] using hhidden _ hmethod
  | baseInstance hbase hmethod hargs =>
      simp only [Operand.targets, MethodRef.targets, List.forall_mem_append,
        List.forall_mem_singleton, TypeSig.targetsList_eq_flatMap, List.forall_mem_flatMap]
      exact ⟨hhidden _ hmethod, forall_right_of_forall₂ hargs fun _ _ hcarries =>
        hcarries.not_into TypeSig.relinks himports h⟩
  | other hkeeps hcarries => exact hcarries.not_into Operand.relinks himports h
  | token _ _ _ _ _ ih => exact ih

theorem CarriedBody.not_into {hidden : Option (DefId .method)} {body carried : Body}
    (himports : ImportsFrom patch set start now importer) (h : now.Separate asked patch set)
    (hhidden : ∀ method, hidden = some method → ¬ set (.method method))
    (hcarried : now.CarriedBody start (.importing importer bases) hidden body carried) :
    ∀ target ∈ carried.targets, ¬ target.Into set := by
  simp only [Body.targets, List.forall_mem_append, List.forall_mem_flatMap,
    TypeSig.targetsList_eq_flatMap]
  refine ⟨⟨?_, ?_⟩, ?_⟩
  · exact forall_right_of_forall₂ hcarried.code fun _ _ ⟨_, call, hoperand⟩ =>
      hoperand.not_into himports h hhidden
  · exact forall_right_of_forall₂ hcarried.locals fun _ _ hcarries =>
      hcarries.not_into TypeSig.relinks himports h
  · refine forall_right_of_forall₂ hcarried.handlers fun handler handler' ⟨_, hcatch⟩ => ?_
    cases hcaught : handler'.catchType with
    | none => simp
    | some type =>
        rw [hcaught] at hcatch
        obtain ⟨_, -, hcarries⟩ := exists_left_of_rel hcatch
        rw [Option.elim_some]
        exact hcarries.not_into TypeRef.relinks himports h

/-- A transplant of a body from the module keeps apart from the module. -/
theorem Grafted.separate {id : DeclId .method} {graft : Transplant} {context : TransplantContext}
    {body : Body} {state : SessionState} (hsound : now.Sound) (h : now.Separate asked patch set)
    (htransformer : graft.transformer = .importing importer bases)
    (hscope : (now.world.importer importer).scope = patch)
    (hgrafted : Grafted asked id graft context body now done state) :
    Separate asked patch set { done with state } := by
  have hdone := hgrafted.run.separate rfl hsound h
  have himports : ImportsFrom patch set now.world done importer :=
    ⟨(hgrafted.during.later.scope importer).trans hscope, fun definition =>
      (h.belongs definition).mp⟩
  have hhidden (method : DefId .method) (hmethod : context.hidden = some method) :
      ¬ set (.method method) := by
    intro hset
    obtain ⟨record, hrecord, -⟩ := Definitions.home?_eq_some.mp ((h.belongs _).mp hset)
    obtain ⟨hnew, -⟩ := hgrafted.working.hidden method hmethod
    rw [Definitions.not_has_iff, hrecord] at hnew
    cases hnew
  have hbody := CarriedBody.not_into himports hdone hhidden (htransformer ▸ hgrafted.carried)
  have hchanges := hgrafted.changes
  have hchanged : (done.withDefs state.world.defs).Separate asked patch set := by
    refine hdone.withDefs hgrafted.working.sound
      (hchanges.grows (fun _ => rfl) fun _ => rfl) ?_
      fun _ => hchanges.home?_back (fun _ => rfl) fun _ => rfl
    refine fun top _ => hchanges.apart (fun _ => rfl) fun record _ htargets => ?_
    simp only [Record.targets, Record.graft, List.forall_mem_append] at htargets ⊢
    exact ⟨htargets.1, hbody⟩
  have hquiet : Step asked { hides := true } (done.withDefs state.world.defs)
      ((done.withDefs state.world.defs).withState done.session state.world) :=
    .quiet { hgrafted.world with defs := rfl } (by simp)
  have hseparate := hquiet.separate rfl
    (hgrafted.working.sound.withDefs (hchanges.grows (fun _ => rfl) fun _ => rfl)
      (hchanges.held (fun _ => rfl) (fun _ => rfl) hgrafted.working.sound.held)) hchanged
  obtain ⟨session, world⟩ := state
  obtain rfl : session = done.session := hgrafted.session
  exact hseparate

end Moment

end Graft
