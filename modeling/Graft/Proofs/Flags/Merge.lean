import Graft.Flags.Merge

/-!
# Merging flags once is enough

Flags that were merged with what is declared agree with it: merging them again changes nothing
(`merge_merge`), and neither does merging flags with themselves (`merge_self`).
-/

namespace Graft.FlagScheme

/-- Whether the access bits alone decide the access level. -/
def Masked (scheme : FlagScheme) : Prop :=
  ∀ nested bits bits', bits &&& scheme.accessMask = bits' &&& scheme.accessMask →
    scheme.level nested bits = scheme.level nested bits'

theorem masked_type : FlagScheme.type.Masked := by
  intro nested bits bits' h
  simp only [FlagScheme.type, AccessLevel.ofTypeBits] at h ⊢
  rw [h]

theorem masked_field : FlagScheme.field.Masked := by
  intro nested bits bits' h
  simp only [FlagScheme.field, AccessLevel.ofMemberBits] at h ⊢
  rw [h]

theorem masked_method : FlagScheme.method.Masked := by
  intro nested bits bits' h
  simp only [FlagScheme.method, AccessLevel.ofMemberBits] at h ⊢
  rw [h]

theorem masked_property : FlagScheme.property.Masked := fun _ _ _ _ => rfl

theorem masked_event : FlagScheme.event.Masked := fun _ _ _ _ => rfl

section Bits

variable (access kept chosen declared existing : UInt32)

/-- The access bits of merged flags are the chosen ones. -/
theorem merged_and_access :
    ((chosen &&& access) ||| ((declared &&& ~~~access &&& ~~~(kept &&& ~~~access))
      ||| (existing &&& (kept &&& ~~~access)))) &&& access = chosen &&& access := by
  apply UInt32.toBitVec_inj.mp
  ext i hi
  simp only [UInt32.toBitVec_and, UInt32.toBitVec_or, UInt32.toBitVec_not, BitVec.getElem_and,
    BitVec.getElem_or, BitVec.getElem_not]
  cases access.toBitVec[i] <;> simp

/-- The preserved bits of merged flags are those of the existing symbol. -/
theorem merged_and_kept :
    ((chosen &&& access) ||| ((declared &&& ~~~access &&& ~~~(kept &&& ~~~access))
      ||| (existing &&& (kept &&& ~~~access)))) &&& (kept &&& ~~~access)
        = existing &&& (kept &&& ~~~access) := by
  apply UInt32.toBitVec_inj.mp
  ext i hi
  simp only [UInt32.toBitVec_and, UInt32.toBitVec_or, UInt32.toBitVec_not, BitVec.getElem_and,
    BitVec.getElem_or, BitVec.getElem_not]
  cases access.toBitVec[i] <;> cases kept.toBitVec[i] <;> simp

/-- Flags are made up of their access bits, their preserved bits and the rest. -/
theorem merged_self :
    (declared &&& access) ||| ((declared &&& ~~~access &&& ~~~(kept &&& ~~~access))
      ||| (declared &&& (kept &&& ~~~access))) = declared := by
  apply UInt32.toBitVec_inj.mp
  ext i hi
  simp only [UInt32.toBitVec_and, UInt32.toBitVec_or, UInt32.toBitVec_not, BitVec.getElem_and,
    BitVec.getElem_or, BitVec.getElem_not]
  cases access.toBitVec[i] <;> cases kept.toBitVec[i] <;> simp

end Bits

variable {scheme : FlagScheme}

/-- Merging flags with themselves changes nothing. -/
theorem merge_self (scheme : FlagScheme) (nested : Bool) (policy : Policy) (flags : UInt32) :
    scheme.merge nested policy flags flags = flags := by
  have haccess : scheme.mergedAccess nested policy flags flags = flags &&& scheme.accessMask := by
    unfold mergedAccess
    exact ite_self _
  rw [merge, haccess, keepMask, merged_self]

/-- Merged flags agree with what is declared. -/
theorem merge_merge (h : scheme.Masked) (nested : Bool) (policy : Policy)
    (existing declared : UInt32) :
    scheme.merge nested policy (scheme.merge nested policy existing declared) declared
      = scheme.merge nested policy existing declared := by
  obtain ⟨chosen, hchosen, hfixed⟩ : ∃ chosen,
      scheme.mergedAccess nested policy existing declared = chosen &&& scheme.accessMask ∧
        ∀ merged, merged &&& scheme.accessMask = chosen &&& scheme.accessMask →
          scheme.mergedAccess nested policy merged declared = chosen &&& scheme.accessMask := by
    by_cases hkeep : policy = .failIfMissing
        ∧ (scheme.level nested existing).dominates (scheme.level nested declared)
    · refine ⟨existing, if_pos hkeep, fun merged hmerged => ?_⟩
      rw [mergedAccess, h nested merged existing hmerged, if_pos hkeep, hmerged]
    · refine ⟨declared, if_neg hkeep, fun merged hmerged => ?_⟩
      rw [mergedAccess, hmerged, ite_self]
  have hmerge (existing : UInt32) : scheme.merge nested policy existing declared =
      scheme.mergedAccess nested policy existing declared
        ||| ((declared &&& ~~~scheme.accessMask &&& ~~~scheme.keepMask)
          ||| (existing &&& scheme.keepMask)) := rfl
  rw [hmerge existing, hchosen, keepMask]
  rw [merge, hfixed _ (merged_and_access ..), keepMask, merged_and_kept]

end Graft.FlagScheme
