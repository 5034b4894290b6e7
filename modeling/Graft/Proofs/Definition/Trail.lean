import Graft.Proofs.Definition.Apart
import Mathlib.Data.List.Nodup

/-!
# Trails

Where nothing is listed twice, there is at most one way from a definition that is listed nowhere
down to another one (`Trail.unique`), and on this way nothing comes twice. All that such a definition
holds can therefore be listed, each definition before what it holds (`subtreeWithin`): nothing comes
twice in that list (`Trail.nodup_subtreeWithin`), and nothing is missing from it
(`Trail.mem_subtreeWithin`).
-/

namespace Graft.Definitions

/-- Whether everything that is listed exists, and is listed once. -/
structure Planted (defs : Definitions) : Prop where
  held : defs.Held
  nodup : ∀ holder kind, (defs.members holder kind).Nodup
  once : ∀ {holder holder' definition : Definition} {kind kind' : SymbolKind},
    definition ∈ defs.members holder kind → definition ∈ defs.members holder' kind' →
    holder = holder'

/-- Whether a definition is listed nowhere. -/
def Unlisted (defs : Definitions) (definition : Definition) : Prop :=
  ∀ holder kind, definition ∉ defs.members holder kind

/-- The way from a definition down to another one, from its end to its beginning. -/
inductive Trail (defs : Definitions) (root : Definition) : Definition → List Definition → Prop where
  | root : Trail defs root root [root]
  | member {holder definition : Definition} {kind : SymbolKind} {path : List Definition}
      (hholder : Trail defs root holder path) (hmem : definition ∈ defs.members holder kind) :
      Trail defs root definition (definition :: path)

/-- The kinds of what a definition holds, in the order in which tokens are given. -/
def memberKinds : List SymbolKind :=
  [.field, .method, .property, .event, .type]

/-- What a definition holds, in the order in which tokens are given. -/
def children (defs : Definitions) (definition : Definition) : List Definition :=
  memberKinds.flatMap (defs.members definition)

/-- A definition and all that it holds, each before what it holds in turn, as far as `depth` levels of
types go. -/
def subtreeWithin (defs : Definitions) : Nat → Definition → List Definition
  | 0, definition =>
    match definition with
    | .module _ | .type _ => []
    | _ => [definition]
  | depth + 1, definition =>
    definition :: (defs.children definition).flatMap (defs.subtreeWithin depth)

variable {defs : Definitions} {root root' definition other holder : Definition}
  {path path' : List Definition} {kind : SymbolKind} {depth : Nat}

theorem isScope_of_mem_members (h : definition ∈ defs.members holder kind) :
    (∃ id, holder = .module id ∧ kind = .type) ∨
      ∃ id, holder = .type id ∧ kind ∈ memberKinds := by
  unfold members at h
  split at h
  case h_7 => cases h
  case h_1 => exact .inl ⟨_, rfl, rfl⟩
  all_goals exact .inr ⟨_, rfl, by decide⟩

/-- Nothing lists a module. -/
theorem unlisted_module (defs : Definitions) (id : DefId .module) : defs.Unlisted (.module id) := by
  intro holder kind hmem
  have hkind := kind_of_mem_members hmem
  obtain ⟨_, _, rfl⟩ | ⟨_, _, hmember⟩ := isScope_of_mem_members hmem
  · cases hkind
  · subst hkind
    simp [memberKinds, Definition.kind] at hmember

theorem mem_children : definition ∈ defs.children holder ↔
    ∃ kind, definition ∈ defs.members holder kind := by
  rw [children, List.mem_flatMap]
  refine ⟨fun ⟨kind, _, hmem⟩ => ⟨kind, hmem⟩, fun ⟨kind, hmem⟩ => ⟨kind, ?_, hmem⟩⟩
  obtain ⟨_, _, rfl⟩ | ⟨_, _, hkind⟩ := isScope_of_mem_members hmem
  · decide
  · exact hkind

namespace Planted

theorem nodup_children (h : defs.Planted) (definition : Definition) :
    (defs.children definition).Nodup := by
  rw [children, List.nodup_flatMap]
  refine ⟨fun kind _ => h.nodup definition kind, ?_⟩
  refine List.Pairwise.imp (fun {left right} (hne : left ≠ right) => ?_) (by decide)
  intro other hleft hright
  exact hne ((kind_of_mem_members hleft).symm.trans (kind_of_mem_members hright))

end Planted

/-- Where the lists are the same, the same things are below one another. -/
theorem below_congr {defs' : Definitions}
    (h : ∀ holder kind, defs'.members holder kind = defs.members holder kind) :
    defs'.Below root definition ↔ defs.Below root definition := by
  constructor <;> intro hbelow
  · induction hbelow with
    | top => exact .top
    | member _ hmem ih => exact .member ih (h _ _ ▸ hmem)
  · induction hbelow with
    | top => exact .top
    | member _ hmem ih => exact .member ih (h _ _ ▸ hmem)

theorem Planted.congr {defs' : Definitions} (hplanted : defs.Planted)
    (hmembers : ∀ holder kind, defs'.members holder kind = defs.members holder kind)
    (hhas : ∀ definition, defs.has definition = true → defs'.has definition = true) :
    defs'.Planted where
  held holder kind definition hmem :=
    hhas definition (hplanted.held holder kind definition (hmembers _ _ ▸ hmem))
  nodup holder kind := hmembers holder kind ▸ hplanted.nodup holder kind
  once hmem hmem' := hplanted.once (hmembers _ _ ▸ hmem) (hmembers _ _ ▸ hmem')

/-! ## Trails -/

theorem Below.trail (h : defs.Below root definition) : ∃ path, defs.Trail root definition path := by
  induction h with
  | top => exact ⟨_, .root⟩
  | member _ hmem ih =>
      obtain ⟨path, hpath⟩ := ih
      exact ⟨_, .member hpath hmem⟩

namespace Trail

theorem head (h : defs.Trail root definition path) : ∃ rest, path = definition :: rest := by
  cases h with
  | root => exact ⟨[], rfl⟩
  | member => exact ⟨_, rfl⟩

/-- There is one trail at most. -/
theorem unique (hplanted : defs.Planted) (hroot : defs.Unlisted root)
    (h : defs.Trail root definition path) (h' : defs.Trail root definition path') :
    path = path' := by
  induction h generalizing path' with
  | root =>
      cases h' with
      | root => rfl
      | member _ hmem => exact absurd hmem (hroot _ _)
  | member _ hmem ih =>
      cases h' with
      | root => exact absurd hmem (hroot _ _)
      | member hholder' hmem' =>
          obtain rfl := hplanted.once hmem hmem'
          rw [ih hholder']

/-- Whatever is on a trail has the rest of it as its own trail. -/
theorem suffix (h : defs.Trail root definition path) {rest : List Definition}
    (hsuffix : other :: rest <:+ path) : defs.Trail root other (other :: rest) := by
  induction h with
  | root =>
      obtain heq | hsuffix := List.suffix_cons_iff.mp hsuffix
      · cases heq
        exact .root
      · exact absurd (List.suffix_nil.mp hsuffix) (List.cons_ne_nil _ _)
  | member hholder hmem ih =>
      obtain heq | hsuffix := List.suffix_cons_iff.mp hsuffix
      · cases heq
        exact .member hholder hmem
      · exact ih hsuffix

theorem nodup (hplanted : defs.Planted) (hroot : defs.Unlisted root)
    (h : defs.Trail root definition path) : path.Nodup := by
  induction h with
  | root => exact List.nodup_cons.mpr ⟨by simp, .nil⟩
  | @member holder definition kind path hholder hmem ih =>
      refine List.nodup_cons.mpr ⟨fun hagain => ?_, ih⟩
      -- A second visit would make a trail that is shorter.
      obtain ⟨front, rest, rfl⟩ := List.mem_iff_append.mp hagain
      have hshort := hholder.suffix (List.suffix_append front (definition :: rest))
      have heq := congrArg List.length (unique hplanted hroot hshort (.member hholder hmem))
      simp at heq
      omega

end Trail

/-- What is held by two definitions that are listed nowhere is held by one. -/
theorem Below.root_unique (hplanted : defs.Planted) (hroot : defs.Unlisted root)
    (hroot' : defs.Unlisted root') (h : defs.Below root definition)
    (h' : defs.Below root' definition) : root = root' := by
  induction h with
  | top =>
      cases h' with
      | top => rfl
      | member _ hmem => exact absurd hmem (hroot _ _)
  | member _ hmem ih =>
      cases h' with
      | top => exact absurd hmem (hroot' _ _)
      | member hholder' hmem' =>
          obtain rfl := hplanted.once hmem hmem'
          exact ih hholder'

/-! ## All that a definition holds -/

/-- A definition that is no type and no module holds nothing. -/
theorem subtreeWithin_leaf (hmodule : definition.kind ≠ .module) (htype : definition.kind ≠ .type)
    (depth : Nat) : defs.subtreeWithin depth definition = [definition] := by
  cases definition with
  | module => exact absurd rfl hmodule
  | type => exact absurd rfl htype
  | field | method | property | event => cases depth <;> rfl

/-- What is neither a type nor a module stands for itself. -/
theorem flatMap_subtreeWithin_leaves {definitions : List Definition}
    (hleaves : ∀ definition ∈ definitions, definition.kind ≠ .module ∧ definition.kind ≠ .type)
    (depth : Nat) : definitions.flatMap (defs.subtreeWithin depth) = definitions := by
  induction definitions with
  | nil => rfl
  | cons definition rest ih =>
      obtain ⟨hleaf, hleaves⟩ := List.forall_mem_cons.mp hleaves
      rw [List.flatMap_cons, ih hleaves, subtreeWithin_leaf hleaf.1 hleaf.2]
      rfl

/-- What a type holds besides nested types comes before all that these hold. -/
theorem subtreeWithin_type (defs : Definitions) (depth : Nat) (id : DefId .type) :
    defs.subtreeWithin (depth + 1) (.type id) =
      (.type id :: [.field, .method, .property, .event].flatMap (defs.members (.type id))) ++
        (defs.members (.type id) .type).flatMap (defs.subtreeWithin depth) := by
  have hchildren : defs.children (.type id) =
      [.field, .method, .property, .event].flatMap (defs.members (.type id)) ++
        defs.members (.type id) .type := by
    simp [children, memberKinds]
  have hleaves : ∀ definition ∈ [.field, .method, .property, .event].flatMap (defs.members (.type id)),
      definition.kind ≠ .module ∧ definition.kind ≠ .type := by
    intro definition hmem
    obtain ⟨kind, hkind, hmem⟩ := List.mem_flatMap.mp hmem
    rw [kind_of_mem_members hmem]
    clear hmem
    revert kind
    decide
  rw [subtreeWithin, hchildren, List.flatMap_append, flatMap_subtreeWithin_leaves hleaves,
    List.cons_append]

/-- Where the lists are the same, so are the lists of all that definitions hold. -/
theorem subtreeWithin_congr {defs' : Definitions}
    (h : ∀ holder kind, defs'.members holder kind = defs.members holder kind) :
    defs'.subtreeWithin depth = defs.subtreeWithin depth := by
  have hchildren (definition : Definition) : defs'.children definition = defs.children definition :=
    congrArg memberKinds.flatMap (funext (h definition))
  induction depth with
  | zero => rfl
  | succ depth ih => exact funext fun definition => by rw [subtreeWithin, subtreeWithin, hchildren, ih]

theorem subtreeWithin_below (h : other ∈ defs.subtreeWithin depth definition) :
    defs.Below definition other := by
  induction depth generalizing definition with
  | zero =>
      cases definition <;> simp only [subtreeWithin, List.not_mem_nil, List.mem_singleton] at h <;>
        exact h ▸ .top
  | succ depth ih =>
      obtain rfl | hrest := List.mem_cons.mp h
      · exact .top
      · obtain ⟨child, hchild, hmem⟩ := List.mem_flatMap.mp hrest
        obtain ⟨kind, hkind⟩ := mem_children.mp hchild
        exact (Below.member .top hkind).trans (ih hmem)

/-- What is held by what is in the list is in the list that goes one level deeper. -/
theorem mem_subtreeWithin_succ (h : holder ∈ defs.subtreeWithin depth root)
    (hmem : definition ∈ defs.members holder kind) :
    definition ∈ defs.subtreeWithin (depth + 1) root := by
  have hself (depth : Nat) (definition : Definition) :
      definition ∈ defs.subtreeWithin (depth + 1) definition := List.mem_cons_self
  induction depth generalizing root with
  | zero =>
      have hscope := isScope_of_mem_members hmem
      cases root <;> simp only [subtreeWithin, List.not_mem_nil, List.mem_singleton] at h <;>
        subst h <;> simp at hscope
  | succ depth ih =>
      obtain rfl | hrest := List.mem_cons.mp h
      · refine List.mem_cons_of_mem _ (List.mem_flatMap.mpr ⟨definition, ?_, hself _ _⟩)
        exact mem_children.mpr ⟨kind, hmem⟩
      · obtain ⟨child, hchild, hholder⟩ := List.mem_flatMap.mp hrest
        exact List.mem_cons_of_mem _ (List.mem_flatMap.mpr ⟨child, hchild, ih hholder⟩)

theorem subtreeWithin_mono {depth' : Nat} (hdepth : depth ≤ depth')
    (h : definition ∈ defs.subtreeWithin depth root) :
    definition ∈ defs.subtreeWithin depth' root := by
  induction depth generalizing root depth' with
  | zero =>
      cases root with
      | module | type => cases h
      | field | method | property | event =>
          rwa [subtreeWithin_leaf (by simp [Definition.kind]) (by simp [Definition.kind])]
  | succ depth ih =>
      obtain ⟨depth', rfl⟩ := Nat.exists_eq_succ_of_ne_zero (by omega : depth' ≠ 0)
      obtain rfl | hrest := List.mem_cons.mp h
      · exact List.mem_cons_self
      · obtain ⟨child, hchild, hmem⟩ := List.mem_flatMap.mp hrest
        exact List.mem_cons_of_mem _
          (List.mem_flatMap.mpr ⟨child, hchild, ih (by omega) hmem⟩)

namespace Trail

/-- The end of a trail is in every list that goes as deep as the trail is long. -/
theorem mem_subtreeWithin (h : defs.Trail root definition path) (hdepth : path.length ≤ depth) :
    definition ∈ defs.subtreeWithin depth root := by
  refine subtreeWithin_mono hdepth ?_
  clear hdepth
  induction h with
  | root => exact List.mem_cons_self
  | member _ hmem ih => exact mem_subtreeWithin_succ ih hmem

/-- What is in the list of all that the end of a trail holds has a trail that goes on from there. -/
theorem extend (h : defs.Trail root definition path)
    (hmem : other ∈ defs.subtreeWithin depth definition) :
    ∃ front, defs.Trail root other (front ++ path) := by
  have hbelow := subtreeWithin_below hmem
  clear hmem
  induction hbelow with
  | top => exact ⟨[], h⟩
  | member _ hmem ih =>
      obtain ⟨front, hfront⟩ := ih
      exact ⟨_ :: front, .member hfront hmem⟩

/-- Nothing comes twice in the list of all that the end of a trail holds. -/
theorem nodup_subtreeWithin (hplanted : defs.Planted) (hroot : defs.Unlisted root)
    (h : defs.Trail root definition path) (depth : Nat) :
    (defs.subtreeWithin depth definition).Nodup := by
  induction depth generalizing definition path with
  | zero => cases definition <;> simp [subtreeWithin]
  | succ depth ih =>
      have hchild {child : Definition} (hmem : child ∈ defs.children definition) :
          defs.Trail root child (child :: path) := by
        obtain ⟨kind, hkind⟩ := mem_children.mp hmem
        exact .member h hkind
      refine List.nodup_cons.mpr ⟨fun hagain => ?_, List.nodup_flatMap.mpr
        ⟨fun child hmem => ih (hchild hmem), ?_⟩⟩
      · obtain ⟨child, hmem, hother⟩ := List.mem_flatMap.mp hagain
        obtain ⟨front, hfront⟩ := (hchild hmem).extend hother
        have heq := congrArg List.length (unique hplanted hroot h hfront)
        simp at heq
        omega
      · -- What two children hold has the child that holds it at one and the same place of its trail.
        refine (hplanted.nodup_children definition).imp_of_mem ?_
        intro left right hleft hright hne other hother hother'
        obtain ⟨front, hfront⟩ := (hchild hleft).extend hother
        obtain ⟨front', hfront'⟩ := (hchild hright).extend hother'
        have heq := unique hplanted hroot hfront hfront'
        exact hne (List.cons.inj (List.append_inj_right' heq (by simp))).1

/-- A trail from something that is no module is no longer than there are types, but for its end. -/
theorem length_le (hplanted : defs.Planted) (hroot : defs.Unlisted root)
    (hmodule : root.kind ≠ .module) (h : defs.Trail root definition path) :
    path.length ≤ defs.types.next + 1 := by
  have htypes : ∀ holder ∈ path.tail, holder ∈ (List.range defs.types.next).map (.type ⟨·⟩) := by
    induction h with
    | root => simp
    | @member holder definition kind path hholder hmem ih =>
        obtain ⟨rest, rfl⟩ := hholder.head
        intro other hother
        obtain rfl | hother := List.mem_cons.mp hother
        · have hhas := issued_of_has (has_of_mem_members hmem)
          obtain ⟨id, rfl, -⟩ | ⟨id, rfl, -⟩ := isScope_of_mem_members hmem
          · cases hholder with
            | root => exact absurd rfl hmodule
            | member _ hmem => exact absurd hmem (unlisted_module defs id _ _)
          · exact List.mem_map.mpr ⟨id.index, List.mem_range.mpr hhas, rfl⟩
        · exact ih other hother
  have hnodup := (h.nodup hplanted hroot).tail
  have hlength := (hnodup.subperm fun _ hmem => htypes _ hmem).length_le
  rw [List.length_tail, List.length_map, List.length_range] at hlength
  omega

end Trail

/-- All that a definition holds that is listed nowhere, each once. -/
theorem mem_subtreeWithin_iff (hplanted : defs.Planted) (hroot : defs.Unlisted root)
    (hmodule : root.kind ≠ .module) :
    definition ∈ defs.subtreeWithin (defs.types.next + 1) root ↔ defs.Below root definition := by
  refine ⟨subtreeWithin_below, fun h => ?_⟩
  obtain ⟨path, hpath⟩ := h.trail
  exact hpath.mem_subtreeWithin (hpath.length_le hplanted hroot hmodule)

end Graft.Definitions
