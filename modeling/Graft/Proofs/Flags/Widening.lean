import Graft.Proofs.Flags.Merge

/-!
# Where merging widens the access level

Merging the flags of a symbol that must exist grants everything that is declared
(`dominates_declared`). It keeps what the symbol granted before exactly when one of the two levels
dominates the other (`dominates_existing_iff`): there is no join of levels, and family access for
which assembly access is declared becomes assembly access. Declarations whose levels are comparable
with each other and with the symbol therefore add up (`foldl_merge_dominates`), others do not.
-/

namespace Graft

namespace AccessLevel

variable {a b c : AccessLevel}

/-- Every level grants what it grants. -/
@[simp]
theorem dominates_self (a : AccessLevel) : a.dominates a := by
  cases a <;> rfl

/-- What a dominated level grants is granted. -/
theorem dominates_trans (h : a.dominates b) (h' : b.dominates c) : a.dominates c := by
  revert h h'
  cases a <;> cases b <;> cases c <;> decide

/-- One of two levels grants everything the other grants. -/
def Comparable (a b : AccessLevel) : Prop :=
  a.dominates b ∨ b.dominates a

/-- Only family and assembly access are not comparable. -/
theorem comparable_iff : a.Comparable b ↔ (a, b) ≠ (.family, .assembly)
    ∧ (a, b) ≠ (.assembly, .family) := by
  unfold Comparable
  cases a <;> cases b <;> decide

end AccessLevel

namespace FlagScheme

variable {scheme : FlagScheme} {nested : Bool} {existing declared : UInt32}

/-- Merged flags grant either what the symbol granted or what is declared. -/
theorem level_merge (h : scheme.Masked) (nested : Bool) (policy : Policy)
    (existing declared : UInt32) :
    scheme.level nested (scheme.merge nested policy existing declared) =
      if policy = .failIfMissing
          ∧ (scheme.level nested existing).dominates (scheme.level nested declared) then
        scheme.level nested existing
      else scheme.level nested declared := by
  split
  case isTrue hkept =>
    refine h nested _ existing ?_
    rw [merge, mergedAccess, if_pos hkept, keepMask, merged_and_access]
  case isFalse hreplaced =>
    refine h nested _ declared ?_
    rw [merge, mergedAccess, if_neg hreplaced, keepMask, merged_and_access]

/-- Merged flags grant what is declared. -/
theorem dominates_declared (h : scheme.Masked) (nested : Bool) (policy : Policy)
    (existing declared : UInt32) :
    (scheme.level nested (scheme.merge nested policy existing declared)).dominates
      (scheme.level nested declared) := by
  rw [level_merge h]
  split
  case isTrue hkept => exact hkept.2
  case isFalse => exact AccessLevel.dominates_self _

/-- The merged flags of a symbol that must exist grant what the symbol granted before exactly when
its level and the declared one are comparable. -/
theorem dominates_existing_iff (h : scheme.Masked) :
    (scheme.level nested (scheme.merge nested .failIfMissing existing declared)).dominates
        (scheme.level nested existing)
      ↔ (scheme.level nested existing).Comparable (scheme.level nested declared) := by
  rw [level_merge h]
  split
  case isTrue hkept => exact iff_of_true (AccessLevel.dominates_self _) (.inl hkept.2)
  case isFalse hreplaced =>
    constructor
    · exact .inr
    · rintro (hkept | hwider)
      · exact absurd ⟨rfl, hkept⟩ hreplaced
      · exact hwider

/-- Declarations whose levels are comparable with each other and with that of the symbol add up:
merged one after the other, they leave what the symbol granted and grant what each of them
declares. -/
theorem foldl_merge_dominates (h : scheme.Masked) :
    ∀ (declarations : List UInt32) (existing : UInt32),
      (existing :: declarations).Pairwise
        (fun flags flags' => (scheme.level nested flags).Comparable (scheme.level nested flags')) →
      ∀ flags ∈ existing :: declarations,
        (scheme.level nested
          (declarations.foldl (scheme.merge nested .failIfMissing) existing)).dominates
            (scheme.level nested flags)
  | [], existing, _, flags, hflags => by
    rw [List.mem_singleton.mp hflags]
    exact AccessLevel.dominates_self _
  | declared :: rest, existing, hchain, flags, hflags => by
    obtain ⟨hexisting, hdeclared, hrest⟩ :
        (∀ flags ∈ declared :: rest,
          (scheme.level nested existing).Comparable (scheme.level nested flags)) ∧
        (∀ flags ∈ rest,
          (scheme.level nested declared).Comparable (scheme.level nested flags)) ∧ _ := by
      simpa only [List.pairwise_cons] using hchain
    -- the merged flags grant what one of the two levels grants, so they stay in the chain
    have hmerged := foldl_merge_dominates h rest
      (scheme.merge nested .failIfMissing existing declared)
      (List.pairwise_cons.mpr ⟨fun flags hflags => by
        rw [level_merge h]
        split
        · exact hexisting flags (List.mem_cons_of_mem _ hflags)
        · exact hdeclared flags hflags, hrest⟩)
    have hfirst := hmerged _ List.mem_cons_self
    rcases List.mem_cons.mp hflags with rfl | hflags
    · exact AccessLevel.dominates_trans hfirst
        ((dominates_existing_iff h).mpr (hexisting declared List.mem_cons_self))
    rcases List.mem_cons.mp hflags with rfl | hflags
    · exact AccessLevel.dominates_trans hfirst (dominates_declared h ..)
    · exact hmerged flags (List.mem_cons_of_mem _ hflags)

/-- Family access for which assembly access is declared becomes assembly access. -/
example : FlagScheme.field.merge false .failIfMissing 4 3 = 3 := by decide

end FlagScheme

end Graft
