import Graft.Proofs.Declaration.Consistent
import Graft.Proofs.Declaration.Walking
import Graft.Proofs.Import.Mirroring

/-!
# Walking in preorder

Three walks keep what is still to be visited on a stack. They all go through a forest in preorder
(`walks_in_preorder`): the walk through what is declared in a module, the listing of the types of a
module, and the declaring of the types of a patch module, which answers those that have an intent in
the order of that listing (`views_declareTypes`).
-/

namespace Graft

/-! ## Declaring the types of a patch module -/

namespace Task

variable {world : World} {policy : Policy}

theorem redeclares_declareOnce {ι : Type} {existing : Option ι} {toDeclaration : ι → Declaration}
    {make : Task ι} (hmake : Yields world make fun _ next => Redeclares world next) :
    Yields world (declareOnce policy existing toDeclaration make) fun _ next =>
      Redeclares world next :=
  yields_declareOnce (fun _ _ _ => rfl) fun _ => hmake

theorem redeclares_declareNested {owner : DeclId .type} {name : String} :
    Yields world (declareNested owner name policy) fun _ next => Redeclares world next := by
  unfold declareNested
  exact .onDecls (redeclares_declareOnce (yields_member fun _ _ => rfl))

theorem redeclares_declareType {module : DeclId .module} {namespaceName name : String}
    {readOnly : Bool} :
    Yields world (declareType module namespaceName name policy readOnly) fun _ next =>
      Redeclares world next := by
  unfold declareType
  refine .onDecls (.bind (redeclares_declareOnce fun _ _ hon => ?_) fun id next h => .get ?_)
  · cases hon
    rfl
  · dsimp only
    split
    · exact .throw
    · exact .pure h

end Task

namespace ImportJob

open Graft.Task

variable {job : ImportJob} {world : World}

theorem redeclares_declareType {id : DefId .type} {intent : Intent} :
    Yields world (job.declareType id intent) fun _ next => Redeclares world next := by
  unfold declareType
  refine .get ?_
  dsimp only
  split
  · split
    · exact .throw
    · exact redeclares_declareNested
  · refine .bind .ofExcept fun module next h => ?_
    obtain ⟨-, rfl⟩ := h
    exact Task.redeclares_declareType

/-- The types that have an intent are answered in the order of the walk. -/
theorem views_declareTypes : Yields world job.declareTypes fun types _ =>
    types.map (fun type => (type.definition, type.intent)) =
      (job.typesToDeclare world.defs).filterMap fun (id, outer) =>
        (job.manifest.intentOf (world.defs.token (.type id)) outer).map (id, ·) := by
  unfold declareTypes
  refine .get ?_
  -- Only declarations and the importer change on the way, so the tokens are read in the same definitions.
  refine (Yields.collect (fun _ next => next.defs = world.defs) rfl ?_).mono fun _ _ => And.right
  rintro ⟨id, outer⟩ - _ next hdefs
  refine .get ?_
  rw [hdefs]
  dsimp only
  split
  · rename_i hnone
    exact .pure ⟨by simp [hnone], hdefs⟩
  · rename_i intent hintent
    refine .bind redeclares_declareType fun declaration declared hdeclared => ?_
    refine .bind yields_changeImporter ?_
    rintro _ _ rfl
    rw [Redeclares] at hdeclared
    exact .pure ⟨by simp [hintent], by rw [hdeclared]; exact hdefs⟩

end ImportJob

/-! ## Walking in preorder -/

/-- Whether the walk through a declared module lists all that is declared in it in preorder: the
module, then each type with its members before the types nested in it. -/
structure Declarations.WalksInOrder (decls : Declarations) (module : DeclId .module) : Prop where
  preorder : ∃ nodes, decls.walk module = .module module :: nodes ∧
    Forest.Preorder decls.block (fun id => (decls.type id).nested) (decls.module module).types nodes
  nodup : (decls.walk module).Nodup
  complete : ∀ node, node ∈ decls.walk module ↔ decls.Below (.module module) node
  parentsFirst : ∀ holder ∈ decls.walk module, ∀ kind, ∀ node ∈ decls.members holder kind,
    [holder, node].Sublist (decls.walk module)

/-- Whether all types of a module are listed in preorder, so that each is followed by those nested in
it, and each once if the module lists its types once. -/
structure Definitions.ListsInOrder (defs : Definitions) (module : DefId .module) : Prop where
  preorder : Forest.Preorder (fun id => [id]) (fun id => (defs.type id).nested)
    (defs.module module).types (defs.allTypes module)
  complete : ∀ id, id ∈ defs.allTypes module ↔ defs.Below (.module module) (.type id)
  nodup : defs.ListsOnce module → (defs.allTypes module).Nodup
  parentsFirst : ∀ outer ∈ defs.allTypes module, ∀ id ∈ (defs.type outer).nested,
    [outer, id].Sublist (defs.allTypes module)

/-- Whether the types of a patch module are declared in the order in which they are listed: those
that have an intent, if none of them is refused. -/
structure ImportJob.DeclaresInOrder (job : ImportJob) (world : World) : Prop where
  visits : (job.typesToDeclare world.defs).map Prod.fst = world.defs.allTypes job.module
  answers : ∀ types next, job.declareTypes.on world = (.ok types, next) →
    types.map (fun type => (type.definition, type.intent)) =
      (job.typesToDeclare world.defs).filterMap fun (id, outer) =>
        (job.manifest.intentOf (world.defs.token (.type id)) outer).map (id, ·)

/-- The walk through what is declared in a module of a draft, the listing of the types of a module
whose nested types form a forest, and the declaring of the types of a patch module all go in preorder.
-/
theorem walks_in_preorder :
    (∀ draft : Draft, draft.Grown → ∀ module, draft.decls.WalksInOrder module) ∧
    (∀ (defs : Definitions) module, defs.Nests module → defs.ListsInOrder module) ∧
    ∀ (job : ImportJob) world, job.DeclaresInOrder world := by
  refine ⟨fun draft hdraft module => ?walk, fun defs module hnests => ?listing,
    fun job world => ?declaring⟩
  case walk =>
    have hplanted := hdraft.planted
    refine ⟨⟨(draft.decls.allTypes module).flatMap draft.decls.block, ?_,
      (hplanted.preorder_allTypes module).1.flatMap draft.decls.block⟩, hplanted.nodup_walk module,
      fun node => hplanted.mem_walk, fun holder hholder kind node => hplanted.sublist_walk hholder⟩
    rw [Declarations.walk, Declarations.withMembers_eq]
  case listing =>
    exact ⟨hnests.preorder, fun id => hnests.mem_allTypes, hnests.nodup_allTypes,
      hnests.preorder.sublist⟩
  case declaring =>
    exact ⟨job.map_typesToDeclare world.defs, ImportJob.views_declareTypes⟩

/-- A draft with two types, the first of which has a field and a type nested in it that was asked
for last. -/
def Draft.clocks : Draft :=
  [.module 0 "Game" .failIfMissing false, .type ⟨0⟩ "Core" "Clock" .createIfMissing false,
    .type ⟨0⟩ "Core" "Timer" .createIfMissing false,
    .field ⟨0⟩ "Hours" (.primitive .int32) .createIfMissing,
    .nested ⟨0⟩ "Face" .createIfMissing].foldl
      (fun draft (call : DraftCall) => (call.perform draft).2) Draft.blank

/-- The import of a patch module, for which the module that it requires is declared. -/
def ImportJob.panel : ImportJob where
  importer := ⟨0⟩
  module := ⟨0⟩
  manifest := .panel
  targets := ⟨[("Game", ⟨0⟩)]⟩

/-- A world in which this import has come to the types. -/
def World.panelRequired : World :=
  { World.panel with
    decls := Draft.clocks.decls
    importers := ({} : Table Importer).push { scope := ⟨0⟩ } }

theorem Draft.grown_clocks : Draft.clocks.Grown := by
  rw [Draft.clocks]
  simp only [List.foldl_cons, List.foldl_nil]
  refine .perform (.perform (.perform (.perform (.perform (.start rfl) ?module) ?clock) ?timer) ?hours)
    ?face
  case module => exact nofun
  all_goals
    rintro _ ⟨⟩
    rfl

/-- The nested type is declared last but listed before the second type; a type of the patch module is
declared before the one nested in it. -/
theorem walks_in_preorder_clocks :
    Draft.clocks.Grown ∧ World.panelRequired.defs.Nests ⟨0⟩ ∧
      World.panelRequired.defs.ListsOnce ⟨0⟩ ∧ Draft.clocks.decls.WalksInOrder ⟨0⟩ ∧
      Draft.clocks.decls.walk ⟨0⟩ =
        [.module ⟨0⟩, .type ⟨0⟩, .field ⟨0⟩, .type ⟨2⟩, .type ⟨1⟩] ∧
      World.panelRequired.defs.ListsInOrder ⟨0⟩ ∧
      ∃ types next, ImportJob.panel.declareTypes.on World.panelRequired = (.ok types, next) ∧
        types.map (fun type => (type.definition, type.intent)) =
          [(⟨0⟩, .mixin), (⟨1⟩, .generated)] := by
  obtain ⟨hwalks, hlistings, hdeclarings⟩ := walks_in_preorder
  have hnests : World.panelRequired.defs.Nests ⟨0⟩ := World.tidy_panel.nests
  refine ⟨Draft.grown_clocks, hnests, World.tidy_panel.listsOnce,
    hwalks Draft.clocks Draft.grown_clocks ⟨0⟩, by decide +kernel, hlistings _ _ hnests, ?_⟩
  have hok : (ImportJob.panel.declareTypes.on World.panelRequired).1.isOk = true := by
    decide +kernel
  cases hon : ImportJob.panel.declareTypes.on World.panelRequired with
  | mk outcome next =>
      rw [hon] at hok
      cases outcome with
      | error error => cases hok
      | ok types =>
          have hviews := (hdeclarings ImportJob.panel World.panelRequired).answers types next hon
          exact ⟨types, next, rfl, hviews.trans (by decide +kernel)⟩

end Graft
