import Graft.Declaration.Walk
import Graft.Proofs.Declaration.Drafting
import Graft.Proofs.Forest.Preorder
import Mathlib.Data.List.Flatten

/-!
# Walking through drafts

However declarations are drafted, each of them is listed once in all, and what is left of them still
is once some are gone (`Draft.Grown.planted`). So the walk through a declared module lists all that
is declared in it in preorder (`Planted.preorder_allTypes`), each declaration once
(`Planted.nodup_walk`) and after the one that holds it (`Planted.sublist_walk`).
-/

namespace Graft

namespace Declarations

/-- Whether everything that is listed is there, and is listed once. -/
structure Planted (decls : Declarations) : Prop where
  held : ∀ holder kind, ∀ node ∈ decls.members holder kind, decls.has node = true
  nodup : ∀ holder kind, (decls.members holder kind).Nodup
  once : ∀ {holder holder' node : Declaration} {kind kind' : SymbolKind},
    node ∈ decls.members holder kind → node ∈ decls.members holder' kind' → holder = holder'

/-- Whether what is left of declarations holds what it held, all of which is left. -/
structure Leaves (decls decls' : Declarations) : Prop where
  members : ∀ holder, decls'.has holder = true → ∀ kind,
    decls'.members holder kind = decls.members holder kind
  held : ∀ holder kind, ∀ node ∈ decls'.members holder kind, decls'.has node = true

/-- A type, then its fields, its methods, its properties and its events. -/
def block (decls : Declarations) (id : DeclId .type) : List Declaration :=
  .type id :: [.field, .method, .property, .event].flatMap (decls.members (.type id))

variable {decls decls' : Declarations} {module : DeclId .module} {id : DeclId .type}
  {holder node : Declaration} {kind : SymbolKind}

theorem withMembers_eq (decls : Declarations) : decls.withMembers = decls.block := by
  funext id
  simp [withMembers, block, members]

/-- Nothing lists a module. -/
theorem unlisted_module (decls : Declarations) (id : DeclId .module) (holder : Declaration)
    (kind : SymbolKind) : .module id ∉ decls.members holder kind := by
  intro hmem
  have hkind := kind_of_mem_members hmem
  subst hkind
  cases holder <;> simp [members, Declaration.kind] at hmem

theorem has_of_mem_members (hmem : node ∈ decls.members holder kind) :
    decls.has holder = true := by
  by_contra hhas
  rw [members_of_absent (Bool.eq_false_iff.mpr hhas)] at hmem
  cases hmem

theorem mem_block : node ∈ decls.block id ↔
    node = .type id ∨ ∃ kind ≠ .type, node ∈ decls.members (.type id) kind := by
  rw [block, List.mem_cons, List.mem_flatMap]
  refine or_congr_right ⟨fun ⟨kind, hkind, hmem⟩ => ⟨kind, ?_, hmem⟩, fun ⟨kind, hkind, hmem⟩ =>
    ⟨kind, ?_, hmem⟩⟩
  · rintro rfl
    simp at hkind
  · cases kind <;> simp [members] at hkind hmem ⊢

theorem type_mem_block {other : DeclId .type} : .type id ∈ decls.block other ↔ id = other := by
  rw [mem_block, Declaration.type.injEq]
  refine or_iff_left ?_
  rintro ⟨kind, hkind, hmem⟩
  exact hkind (kind_of_mem_members hmem).symm

theorem mem_walk_iff : node ∈ decls.walk module ↔
    node = .module module ∨ ∃ id ∈ decls.allTypes module, node ∈ decls.block id := by
  rw [walk, withMembers_eq, List.mem_cons, List.mem_flatMap]

theorem type_mem_walk : .type id ∈ decls.walk module ↔ id ∈ decls.allTypes module := by
  simp [mem_walk_iff, type_mem_block]

/-- The declarations of a module itself. -/
theorem module_mem_walk {other : DeclId .module} :
    .module other ∈ decls.walk module ↔ other = module := by
  simp [walk, withMembers]

theorem module_mem_walks {modules : List (DeclId .module)} :
    .module module ∈ modules.flatMap decls.walk ↔ module ∈ modules := by
  simp [List.mem_flatMap, module_mem_walk]

namespace Planted

theorem leaves (h : decls.Planted) (hleaves : decls.Leaves decls') : decls'.Planted := by
  have hmembers {holder node : Declaration} {kind : SymbolKind}
      (hmem : node ∈ decls'.members holder kind) : node ∈ decls.members holder kind :=
    hleaves.members holder (has_of_mem_members hmem) kind ▸ hmem
  refine ⟨hleaves.held, fun holder kind => ?_, fun hmem hmem' =>
    h.once (hmembers hmem) (hmembers hmem')⟩
  cases hhas : decls'.has holder with
  | true => exact hleaves.members holder hhas kind ▸ h.nodup holder kind
  | false => simp [members_of_absent hhas]

theorem has_below (h : decls.Planted) (hbelow : decls.Below (.module module) (.type id)) :
    decls.has (.type id) = true := by
  cases hbelow with
  | member _ hmem => exact h.held _ _ _ hmem

/-- The types of a module form a forest. -/
theorem branching (h : decls.Planted) (module : DeclId .module) :
    Forest.Branching (fun id => (decls.type id).nested)
      (fun id => decls.Below (.module module) (.type id)) decls.types.next where
  closed outer hbelow id hmem := .member hbelow (type_mem_type.mpr hmem)
  nodup outer _ := List.Nodup.of_map _ (h.nodup (.type outer) .type)
  once outer other id _ _ hmem hmem' :=
    Declaration.type.inj (h.once (type_mem_type.mpr hmem) (type_mem_type.mpr hmem'))
  bounded ids hnodup hbelow :=
    Forest.length_le_of_lt (fun left right heq => by cases left; cases right; cases heq; rfl) hnodup
      fun id hmem => Table.lt_next_of_has (h.has_below (hbelow id hmem))

/-- All types of a module are listed in preorder, each once. -/
theorem preorder_allTypes (h : decls.Planted) (module : DeclId .module) :
    Forest.Preorder (fun id => [id]) (fun id => (decls.type id).nested) (decls.module module).types
        (decls.allTypes module) ∧ (decls.allTypes module).Nodup := by
  refine (h.branching module).preorder_visit
    (fun id hmem => .member .top (type_mem_module.mpr hmem))
    (List.Nodup.of_map _ (h.nodup (.module module) .type)) fun id hmem outer _ hnested => ?_
  cases h.once (type_mem_module.mpr hmem) (type_mem_type.mpr hnested)

theorem below_of_mem_allTypes (h : decls.Planted) (hmem : id ∈ decls.allTypes module) :
    decls.Below (.module module) (.type id) :=
  Forest.forall_mem_visit (fun _ hroot => .member .top (type_mem_module.mpr hroot))
    (h.branching module).closed id hmem

theorem mem_allTypes_of_nested (h : decls.Planted) {outer : DeclId .type}
    (houter : outer ∈ decls.allTypes module) (hmem : id ∈ (decls.type outer).nested) :
    id ∈ decls.allTypes module :=
  ((h.preorder_allTypes module).1.sublist outer houter id hmem).subset (by simp)

theorem mem_walk_of_member (h : decls.Planted) (hholder : holder ∈ decls.walk module)
    (hmem : node ∈ decls.members holder kind) : node ∈ decls.walk module := by
  cases holder with
  | module other =>
      obtain rfl := module_mem_walk.mp hholder
      cases kind <;> simp only [members, List.not_mem_nil] at hmem
      obtain ⟨id, hid, rfl⟩ := List.mem_map.mp hmem
      exact type_mem_walk.mpr ((h.preorder_allTypes other).1.subset hid)
  | type outer =>
      have houter := type_mem_walk.mp hholder
      by_cases hkind : kind = .type
      · subst hkind
        obtain ⟨id, hid, rfl⟩ := List.mem_map.mp hmem
        exact type_mem_walk.mpr (h.mem_allTypes_of_nested houter hid)
      · exact mem_walk_iff.mpr (.inr ⟨outer, houter, mem_block.mpr (.inr ⟨kind, hkind, hmem⟩)⟩)
  | field | method | property | event => cases kind <;> cases hmem

/-- The walk comes to all that is declared in a module. -/
theorem mem_walk (h : decls.Planted) :
    node ∈ decls.walk module ↔ decls.Below (.module module) node := by
  rw [mem_walk_iff]
  constructor
  · rintro (rfl | ⟨id, hid, hmem⟩)
    · exact .top
    · obtain rfl | ⟨kind, -, hmem⟩ := mem_block.mp hmem
      · exact h.below_of_mem_allTypes hid
      · exact .member (h.below_of_mem_allTypes hid) hmem
  · intro hbelow
    rw [← mem_walk_iff]
    induction hbelow with
    | top => exact module_mem_walk.mpr rfl
    | @member holder node kind _ hmem ih => exact h.mem_walk_of_member ih hmem

theorem nodup_block (h : decls.Planted) (id : DeclId .type) : (decls.block id).Nodup := by
  refine List.nodup_cons.mpr ⟨fun hmem => ?_, List.nodup_flatMap.mpr
    ⟨fun kind _ => h.nodup (.type id) kind, ?_⟩⟩
  · obtain ⟨kind, hkind, hmem⟩ := List.mem_flatMap.mp hmem
    have htype : .type = kind := kind_of_mem_members hmem
    subst htype
    simp at hkind
  · refine List.Pairwise.imp (fun {left right} (hne : left ≠ right) => ?_) (by decide)
    intro other hleft hright
    exact hne ((kind_of_mem_members hleft).symm.trans (kind_of_mem_members hright))

/-- The walk comes to each declaration once. -/
theorem nodup_walk (h : decls.Planted) (module : DeclId .module) : (decls.walk module).Nodup := by
  rw [walk, withMembers_eq]
  refine List.nodup_cons.mpr ⟨fun hmem => ?_, List.nodup_flatMap.mpr
    ⟨fun id _ => h.nodup_block id, (h.preorder_allTypes module).2.imp ?_⟩⟩
  · obtain ⟨id, -, hmem⟩ := List.mem_flatMap.mp hmem
    obtain heq | ⟨kind, -, hmem⟩ := mem_block.mp hmem
    · cases heq
    · exact unlisted_module decls module _ _ hmem
  · -- What is in two blocks is a type and a member of one, or a member of two.
    intro left right hne node hleft hright
    obtain rfl | ⟨kind, hkind, hleft⟩ := mem_block.mp hleft
    · exact hne (type_mem_block.mp hright)
    · obtain rfl | ⟨kind', -, hright⟩ := mem_block.mp hright
      · exact hkind (kind_of_mem_members hleft).symm
      · exact hne (Declaration.type.inj (h.once hleft hright))

/-- The walk comes to each declaration after the one that holds it. -/
theorem sublist_walk (h : decls.Planted) (hholder : holder ∈ decls.walk module)
    (hmem : node ∈ decls.members holder kind) : [holder, node].Sublist (decls.walk module) := by
  have hwalk := h.mem_walk_of_member hholder hmem
  rw [walk, withMembers_eq] at hwalk ⊢
  cases holder with
  | module other =>
      obtain rfl := module_mem_walk.mp hholder
      obtain rfl | hwalk := List.mem_cons.mp hwalk
      · exact absurd hmem (unlisted_module decls other _ _)
      · exact List.Sublist.cons_cons _ (List.singleton_sublist.mpr hwalk)
  | type outer =>
      have houter := type_mem_walk.mp hholder
      refine List.Sublist.cons _ ?_
      by_cases hkind : kind = .type
      · subst hkind
        obtain ⟨id, hid, rfl⟩ := List.mem_map.mp hmem
        have htypes := (h.preorder_allTypes module).1.sublist outer houter id hid
        refine List.Sublist.trans ?_ (htypes.flatMap decls.block)
        have hfirst : [Declaration.type outer].Sublist (decls.block outer) :=
          List.singleton_sublist.mpr (type_mem_block.mpr rfl)
        have hsecond : [Declaration.type id].Sublist (decls.block id) :=
          List.singleton_sublist.mpr (type_mem_block.mpr rfl)
        simpa using hfirst.append hsecond
      · have hblock : node ∈ decls.block outer := mem_block.mpr (.inr ⟨kind, hkind, hmem⟩)
        have hne : node ≠ .type outer := by
          rintro rfl
          exact hkind (kind_of_mem_members hmem).symm
        refine List.Sublist.trans ?_ ((List.singleton_sublist.mpr houter).flatMap decls.block)
        rw [List.flatMap_singleton, block]
        refine List.Sublist.cons_cons _ (List.singleton_sublist.mpr ?_)
        exact (List.mem_cons.mp hblock).resolve_left hne
  | field | method | property | event => cases kind <;> cases hmem

end Planted

end Declarations

/-! ## Drafts -/

/-- Whether everything in a draft has come of requests, each made where what it names is there. In
between, declarations may say other things than before, and some may be gone. -/
inductive Draft.Grown : Draft → Prop where
  | start {draft : Draft} (hdecls : draft.decls = {}) : Grown draft
  | perform {draft : Draft} {call : DraftCall} (hdraft : Grown draft)
      (hholder : ∀ holder, call.scope = .holder holder → draft.decls.has holder = true) :
      Grown (call.perform draft).2
  | leave {draft next : Draft} (hdraft : Grown draft) (hleaves : draft.decls.Leaves next.decls) :
      Grown next

namespace Declarations.Planted

/-- What is declared anew is listed where it was asked for, and nowhere else. -/
theorem registers {draft next : Draft} {call : DraftCall} {made : Declaration}
    (h : draft.decls.Planted) (hregisters : call.Registers draft next made) :
    next.decls.Planted := by
  have hacquires := hregisters.acquires
  have hmembers (holder : Declaration) (kind : SymbolKind) : next.decls.members holder kind =
      draft.decls.members holder kind ++
        if call.scope = .holder holder ∧ kind = made.kind then [made] else [] :=
    hregisters.listed (.holder holder) kind
  have hnew {holder : Declaration} {kind : SymbolKind} :
      made ∉ draft.decls.members holder kind := by
    intro hmem
    have hhas := h.held holder kind made hmem
    rw [hacquires.gains.fresh] at hhas
    cases hhas
  have hcases {holder node : Declaration} {kind : SymbolKind}
      (hmem : node ∈ next.decls.members holder kind) : node ∈ draft.decls.members holder kind ∨
        call.scope = .holder holder ∧ node = made := by
    rw [hmembers, List.mem_append] at hmem
    refine hmem.imp_right fun hmem => ?_
    split at hmem
    · rename_i hhere
      exact ⟨hhere.1, List.mem_singleton.mp hmem⟩
    · cases hmem
  refine ⟨fun holder kind node hmem => ?held, fun holder kind => ?nodup,
    fun {holder holder'} _ _ _ hmem hmem' => ?once⟩
  case held =>
    rw [hacquires.gains.has]
    exact (hcases hmem).imp (h.held holder kind node) And.right
  case nodup =>
    rw [hmembers]
    split
    · exact List.concat_eq_append ▸ (h.nodup holder kind).concat hnew
    · simpa using h.nodup holder kind
  case once =>
    obtain hold | ⟨hscope, rfl⟩ := hcases hmem <;> obtain hold' | ⟨hscope', heq⟩ := hcases hmem'
    · exact h.once hold hold'
    · exact absurd (heq ▸ hold) hnew
    · exact absurd hold' hnew
    · rw [hscope] at hscope'
      exact DraftScope.holder.inj hscope'

end Declarations.Planted

/-- However a draft has grown, everything in it is listed once. -/
theorem Draft.Grown.planted {draft : Draft} (h : draft.Grown) : draft.decls.Planted := by
  induction h with
  | @start draft hdecls =>
      have hmembers (holder : Declaration) (kind : SymbolKind) :
          draft.decls.members holder kind = [] :=
        Declarations.members_of_absent (by rw [hdecls]; cases holder <;> rfl) kind
      constructor <;> simp [hmembers]
  | @perform draft call _ hholder ih =>
      obtain ⟨_, _, _, hanswer⟩ | ⟨-, made, next, hanswer, hregisters⟩ :=
        DraftCall.perform_answers hholder
      · obtain ⟨-, hok⟩ | ⟨-, symbol, clash, hconflict⟩ := hanswer
        · rwa [hok]
        · rwa [hconflict]
      · rw [hanswer]
        exact ih.registers hregisters
  | leave _ hleaves ih => exact ih.leaves hleaves

end Graft
