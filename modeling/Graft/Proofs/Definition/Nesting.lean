import Graft.Proofs.Definition.Adoption
import Graft.Proofs.Forest.Preorder

/-!
# The types of a module

The walk through the types of a module lists them in preorder, if the types that are nested form a
forest (`Nests.preorder`): what the module itself lists makes no difference to that. It lists each
type once if the module lists its types once and none that is nested in another one of them
(`Nests.nodup_allTypes`), and then none can be nested in itself (`ListsOnce.nests`).
-/

namespace Graft.Definitions

/-- Whether the types below those that a module lists form a forest: all of them exist, each is
nested once and in one type, and none is nested in itself. -/
structure Nests (defs : Definitions) (module : DefId .module) : Prop where
  has : ∀ id, defs.Below (.module module) (.type id) → defs.has (.type id) = true
  nodup : ∀ outer, defs.Below (.module module) (.type outer) → (defs.type outer).nested.Nodup
  once : ∀ outer other id, defs.Below (.module module) (.type outer) →
    defs.Below (.module module) (.type other) → id ∈ (defs.type outer).nested →
    id ∈ (defs.type other).nested → outer = other
  apart : ∀ outer id, defs.Below (.module module) (.type outer) → id ∈ (defs.type outer).nested →
    ¬ defs.Below (.type id) (.type outer)

/-- Whether a module lists its types once, and none that is nested in one of them. -/
structure ListsOnce (defs : Definitions) (module : DefId .module) : Prop where
  nodup : (defs.module module).types.Nodup
  top : ∀ id ∈ (defs.module module).types, ∀ outer, defs.Below (.module module) (.type outer) →
    id ∉ (defs.type outer).nested

variable {defs : Definitions} {module : DefId .module} {id outer : DefId .type}

/-- There are no more different types than have been made. -/
theorem length_le_next {ids : List (DefId .type)} (hnodup : ids.Nodup)
    (hhas : ∀ id ∈ ids, defs.has (.type id) = true) : ids.length ≤ defs.types.next :=
  Forest.length_le_of_lt (fun _ _ heq => (DefId.index_eq_iff.mp heq).symm) hnodup fun id hmem =>
    Table.lt_next_of_has (hhas id hmem)

theorem below_of_listed (hmem : id ∈ (defs.module module).types) :
    defs.Below (.module module) (.type id) :=
  .member .top (type_mem_module.mpr hmem)

theorem Below.nested {top : Definition} (h : defs.Below top (.type outer))
    (hmem : id ∈ (defs.type outer).nested) : defs.Below top (.type id) :=
  .member h (type_mem_type.mpr hmem)

/-- What holds of the types that a module lists, or of a type, and of the types nested in those that
it holds of, holds of all types below the module or the type. -/
theorem Below.type_induction {P : DefId .type → Prop} {top : Definition}
    (h : defs.Below top (.type id)) (htop : ∀ id, top = .type id → P id)
    (hlisted : ∀ module, top = .module module → ∀ id ∈ (defs.module module).types, P id)
    (hnested : ∀ outer, defs.Below top (.type outer) → P outer →
      ∀ id ∈ (defs.type outer).nested, P id) : P id := by
  generalize hdefinition : Definition.type id = definition at h
  induction h generalizing id with
  | top => exact htop id hdefinition.symm
  | @member holder definition kind hholder hmem ih =>
      subst hdefinition
      have hkind : kind = .type := (kind_of_mem_members hmem).symm
      subst hkind
      cases holder with
      | module other =>
          obtain ⟨_, hid, ⟨⟩⟩ := List.mem_map.mp hmem
          cases hholder with
          | top => exact hlisted other rfl _ hid
          | member _ hmem => exact absurd hmem (unlisted_module defs other _ _)
      | type outer =>
          obtain ⟨_, hid, ⟨⟩⟩ := List.mem_map.mp hmem
          exact hnested outer hholder (ih rfl) _ hid
      | field | method | property | event => cases hmem

/-- A type below something is that, or is listed by it, or is nested in a type below it. -/
theorem Below.type_cases {top : Definition} (h : defs.Below top (.type id)) :
    top = .type id ∨ (∃ module, top = .module module ∧ id ∈ (defs.module module).types) ∨
      ∃ outer, defs.Below top (.type outer) ∧ id ∈ (defs.type outer).nested := by
  refine h.type_induction (P := fun id => top = .type id ∨
    (∃ module, top = .module module ∧ id ∈ (defs.module module).types) ∨
      ∃ outer, defs.Below top (.type outer) ∧ id ∈ (defs.type outer).nested) ?_ ?_ ?_
  · exact fun id heq => Or.inl heq
  · exact fun module heq id hmem => Or.inr (Or.inl ⟨module, heq, hmem⟩)
  · exact fun outer hbelow _ id hmem => Or.inr (Or.inr ⟨outer, hbelow, hmem⟩)

/-- Where a module lists its types once, no type is nested in itself: the way down to such a type would
enter the circle by a type that is nested in one on the way as well as in one of the circle. -/
theorem ListsOnce.nests (h : defs.ListsOnce module)
    (hhas : ∀ id, defs.Below (.module module) (.type id) → defs.has (.type id) = true)
    (hnodup : ∀ outer, defs.Below (.module module) (.type outer) → (defs.type outer).nested.Nodup)
    (honce : ∀ outer other id, defs.Below (.module module) (.type outer) →
      defs.Below (.module module) (.type other) → id ∈ (defs.type outer).nested →
      id ∈ (defs.type other).nested → outer = other) : defs.Nests module := by
  refine ⟨hhas, hnodup, honce, fun outer id hbelow => ?_⟩
  revert id
  -- By induction on the way down from the module to `outer`.
  refine hbelow.type_induction
    (P := fun outer => ∀ id ∈ (defs.type outer).nested, ¬ defs.Below (.type id) (.type outer))
    nofun ?listed ?nested
  case listed =>
    intro _ heq root hroot id hid hagain
    cases heq
    have hbelow := (below_of_listed hroot).nested hid
    obtain heq | ⟨_, heq, _⟩ | ⟨holder, hholder, hmem⟩ := hagain.type_cases
    · cases heq
      exact h.top root hroot root hbelow hid
    · cases heq
    · exact h.top root hroot holder (hbelow.trans hholder) hmem
  case nested =>
    -- A circle through `outer` comes back to it from a type that `outer` is nested in, which is `holder`.
    intro holder hholder hapart outer houter id hid hagain
    have hbelow := hholder.nested houter
    obtain heq | ⟨_, heq, _⟩ | ⟨other, hother, hmem⟩ := hagain.type_cases
    · cases heq
      have hself : holder = outer := honce holder outer outer hholder hbelow houter hid
      subst hself
      exact hapart holder houter .top
    · cases heq
    · have hbelow' := (hbelow.nested hid).trans hother
      have hsame : holder = other := honce holder other outer hholder hbelow' houter hmem
      subst hsame
      exact hapart outer houter ((Below.top.nested hid).trans hother)

/-- Whether the types of a module form a forest can be checked on a list of them, if nested types are
made after those around them. -/
theorem nests_of_closed (types : List (DefId .type))
    (hlisted : ∀ id ∈ (defs.module module).types, id ∈ types)
    (hnested : ∀ outer ∈ types, ∀ id ∈ (defs.type outer).nested, id ∈ types)
    (hhas : ∀ id ∈ types, defs.has (.type id) = true)
    (hnodup : ∀ outer ∈ types, (defs.type outer).nested.Nodup)
    (honce : ∀ outer ∈ types, ∀ other ∈ types, ∀ id ∈ (defs.type outer).nested,
      id ∈ (defs.type other).nested → outer = other)
    (hlater : ∀ outer ∈ types, ∀ id ∈ (defs.type outer).nested, outer.index < id.index) :
    defs.Nests module := by
  have hmem {id : DefId .type} (hbelow : defs.Below (.module module) (.type id)) : id ∈ types :=
    hbelow.type_induction nofun (fun _ heq => by cases heq; exact hlisted) fun outer _ => hnested outer
  refine ⟨fun id hbelow => hhas id (hmem hbelow), fun outer hbelow => hnodup outer (hmem hbelow),
    fun outer other id hbelow hbelow' => honce outer (hmem hbelow) other (hmem hbelow') id,
    fun outer id hbelow hid hagain => ?_⟩
  -- All that is below `id` is made after it, but `outer` was made before.
  have hle : outer ∈ types ∧ id.index ≤ outer.index := by
    refine hagain.type_induction (P := fun other => other ∈ types ∧ id.index ≤ other.index) ?_ nofun ?_
    · rintro _ ⟨⟩
      exact ⟨hnested outer (hmem hbelow) id hid, Nat.le_refl _⟩
    · exact fun middle _ h other hother => ⟨hnested middle h.1 other hother,
        Nat.le_trans h.2 (Nat.le_of_lt (hlater middle h.1 other hother))⟩
  exact absurd (hlater outer hle.1 id hid) (Nat.not_lt.mpr hle.2)

namespace Nests

theorem branching (h : defs.Nests module) :
    Forest.Branching (fun id => (defs.type id).nested)
      (fun id => defs.Below (.module module) (.type id)) defs.types.next where
  closed _ hbelow _ hmem := hbelow.nested hmem
  nodup := h.nodup
  once := h.once
  bounded _ hnodup hbelow := length_le_next hnodup fun id hmem => h.has id (hbelow id hmem)

/-- The types of a module are listed in preorder. -/
theorem preorder (h : defs.Nests module) :
    Forest.Preorder (fun id => [id]) (fun id => (defs.type id).nested) (defs.module module).types
      (defs.allTypes module) := by
  obtain ⟨nodes, hnodes, hlength⟩ := h.branching.preorder_of_roots
    (fun _ hmem => below_of_listed hmem) fun root hroot outer hreaches hmem => by
      have hbelow : defs.Below (.type root) (.type outer) := by
        clear hmem
        induction hreaches with
        | refl => exact .top
        | tail _ hmem ih => exact ih.nested hmem
      exact h.apart outer root ((below_of_listed hroot).trans hbelow) hmem hbelow
  rw [allTypes, hnodes.visit_eq hlength]
  exact hnodes

/-- The types of a module are all that are below it. -/
theorem mem_allTypes (h : defs.Nests module) :
    id ∈ defs.allTypes module ↔ defs.Below (.module module) (.type id) := by
  constructor
  · exact Forest.forall_mem_visit (fun _ hmem => below_of_listed hmem) h.branching.closed id
  · intro hbelow
    refine hbelow.type_induction (P := (· ∈ defs.allTypes module)) nofun ?_ ?_
    · rintro _ ⟨⟩ root hroot
      exact h.preorder.subset hroot
    · exact fun outer _ houter id hmem => (h.preorder.sublist outer houter id hmem).subset (by simp)

theorem nodup_allTypes (h : defs.Nests module) (honce : defs.ListsOnce module) :
    (defs.allTypes module).Nodup :=
  (h.branching.preorder_visit (fun _ hmem => below_of_listed hmem) honce.nodup honce.top).2

end Nests

/-- A module that lists a type and another one nested in it: first the nested one. -/
def listedTwice : Definitions × DefId .module :=
  let (module, defs) := ({} : Definitions).makeModule { name := "Game" }
  let (outer, defs) := defs.makeType { namespaceName := "Core", name := "Clock", flags := 1 }
  let (inner, defs) := defs.addNested outer { namespaceName := "", name := "Face", flags := 2 }
  ((defs.adopt (.module module) (.type inner)).adopt (.module module) (.type outer), module)

theorem nests_listedTwice : listedTwice.1.Nests listedTwice.2 :=
  nests_of_closed [⟨0⟩, ⟨1⟩] (by decide +kernel) (by decide +kernel) (by decide +kernel)
    (by decide +kernel) (by decide +kernel) (by decide +kernel)

/-- A type that is nested in another one, and listed by the module as well, is listed twice, the first
time before the one around it. -/
theorem types_listed_twice : ¬ ∀ (defs : Definitions) module, defs.Nests module →
    (defs.allTypes module).Nodup := by
  intro h
  have htypes : listedTwice.1.allTypes listedTwice.2 = [⟨1⟩, ⟨0⟩, ⟨1⟩] := by decide +kernel
  have hnodup := h _ _ nests_listedTwice
  rw [htypes] at hnodup
  exact absurd hnodup (by decide)

end Graft.Definitions
