import Graft.Proofs.Declaration.Statement
import Graft.Proofs.Signature.Naming

/-!
# Names of declared types

The full name of a declared type, put together from the names of the types around it, for types that
belong to a module. What is declared inside a module is a type, and only a type that is declared
there has a namespace. Signatures are compared by these names, and by no other ones.
-/

namespace Graft

namespace Shape

variable {names names' : TypeNames} {left right : Shape}

/-- Namings that agree on two signatures give the same verdict about them. -/
theorem agree_congr (hleft : ∀ options, names.Agree names' options left.targets)
    (hright : ∀ options, names.Agree names' options right.targets)
    (h : left.Agree names right) : left.Agree names' right := by
  cases left <;> cases right <;> try exact h
  · exact (TypeSig.same_congr (hleft _) (hright _)).symm.trans h
  · exact (PropertySig.same_congr (hleft _) (hright _)).symm.trans h
  · exact (TypeRef.same_congr (hleft _) (hright _)).symm.trans h

theorem overloads_congr (hleft : ∀ options, names.Agree names' options left.targets)
    (hright : ∀ options, names.Agree names' options right.targets)
    (h : left.Overloads names right) : left.Overloads names' right := by
  cases left <;> cases right <;> try exact h
  exact (MethodSig.same_congr (hleft _) (hright _)).symm.trans h

theorem resultsAgree_congr (hleft : ∀ options, names.Agree names' options left.targets)
    (hright : ∀ options, names.Agree names' options right.targets)
    (h : left.ResultsAgree names right) : left.ResultsAgree names' right := by
  cases left <;> cases right <;> try exact h
  rename_i left right
  obtain ⟨_, _, leftResult, _, _⟩ := left
  obtain ⟨_, _, rightResult, _, _⟩ := right
  refine (TypeSig.same_congr (fun hscope target hmem => hleft _ hscope target ?_)
    fun hscope target hmem => hright _ hscope target ?_).symm.trans h
  · exact List.mem_append_left _ (List.mem_append_left _ hmem)
  · exact List.mem_append_left _ (List.mem_append_left _ hmem)

end Shape

namespace Declarations

variable {decls : Declarations} {declaration parent : Declaration} {id outer : DeclId .type}
  {module : DeclId .module}

/-- The name of a type that belongs to a module does not depend on how deep types may be nested. -/
theorem typeNameWithin_eq {fuel fuel' : Nat} (hfuel : fuel ≤ fuel')
    (hmodule : decls.moduleWithin fuel id = some module) :
    decls.typeNameWithin fuel' id = decls.typeNameWithin fuel id := by
  induction fuel generalizing id fuel' with
  | zero => simp [moduleWithin] at hmodule
  | succ fuel ih =>
      obtain ⟨fuel', rfl⟩ := Nat.exists_eq_succ_of_ne_zero (by omega : fuel' ≠ 0)
      rw [typeNameWithin, typeNameWithin]
      rw [moduleWithin] at hmodule
      cases hplace : (decls.type id).place with
      | topLevel => rfl
      | nested owner =>
          simp only [hplace] at hmodule ⊢
          split at hmodule
          · rw [ih (by omega : fuel ≤ fuel') hmodule]
          · simp at hmodule

/-- The full name of a type that is declared inside another one. -/
theorem typeName_nested (hmodule : decls.moduleOf? id = some module)
    (houter : decls.outer? id = some outer) :
    decls.typeName id = decls.typeName outer ++ "/" ++ (decls.type id).name := by
  rw [moduleOf?] at hmodule
  obtain ⟨fuel, hfuel⟩ : ∃ fuel, decls.types.next = fuel + 1 := by
    refine Nat.exists_eq_succ_of_ne_zero fun hzero => ?_
    simp [hzero, moduleWithin] at hmodule
  rw [hfuel, moduleWithin] at hmodule
  rw [outer?] at houter
  cases hplace : (decls.type id).place with
  | topLevel => simp [hplace] at houter
  | nested owner =>
      simp only [hplace] at hmodule houter
      split at houter
      · rename_i hhas
        cases houter
        rw [if_pos hhas] at hmodule
        rw [typeName, typeName, hfuel, typeNameWithin_eq (Nat.le_succ fuel) hmodule, typeNameWithin]
        simp only [hplace, if_pos hhas]
      · simp at houter

/-- The full name of a type that is declared at top level. -/
theorem typeName_top (hmodule : decls.moduleOf? id = some module)
    (houter : decls.outer? id = none) :
    decls.typeName id =
      Text.qualify (decls.statement (.type id)).namespaceName (decls.type id).name := by
  rw [moduleOf?] at hmodule
  obtain ⟨fuel, hfuel⟩ : ∃ fuel, decls.types.next = fuel + 1 := by
    refine Nat.exists_eq_succ_of_ne_zero fun hzero => ?_
    simp [hzero, moduleWithin] at hmodule
  rw [hfuel, moduleWithin] at hmodule
  rw [outer?] at houter
  rw [typeName, hfuel, typeNameWithin]
  cases hplace : (decls.type id).place with
  | topLevel _ namespaceName => simp [statement, TypeDecl.namespaceName?, hplace]
  | nested owner =>
      simp only [hplace] at hmodule houter
      split at houter
      · simp at houter
      · rw [if_neg ‹_›] at hmodule
        cases hmodule

/-- Things are declared inside modules and types. -/
theorem kind_of_parent? (h : decls.parent? declaration = some parent) :
    parent.kind = .type ∨ parent.kind = .module ∧ declaration.kind = .type := by
  cases declaration with
  | module id => cases h
  | type id =>
      unfold parent? at h
      dsimp only at h
      split at h
      · cases h
        exact .inl rfl
      · obtain ⟨module, -, rfl⟩ := Option.map_eq_some_iff.mp h
        exact .inr ⟨rfl, rfl⟩
  | field id | method id | property id | event id =>
      obtain ⟨owner, -, rfl⟩ := Option.map_eq_some_iff.mp h
      exact .inl rfl

/-- A module is declared inside nothing. -/
theorem kind_ne_module_of_parent? (h : decls.parent? declaration = some parent) :
    declaration.kind ≠ .module := by
  cases declaration with
  | module => cases h
  | type | field | method | property | event => exact fun hkind => nomatch hkind

/-- What is declared inside a type has no namespace. -/
theorem namespaceName_of_parent? (h : decls.parent? declaration = some parent)
    (hkind : parent.kind = .type) : (decls.statement declaration).namespaceName = "" := by
  cases declaration with
  | type id =>
      unfold parent? at h
      dsimp only at h
      split at h
      · rename_i outer houter
        rw [outer?] at houter
        cases hplace : (decls.type id).place with
        | topLevel => simp [hplace] at houter
        | nested => simp [statement, TypeDecl.namespaceName?, hplace]
      · obtain ⟨module, -, rfl⟩ := Option.map_eq_some_iff.mp h
        cases hkind
  | module | field | method | property | event => rfl

end Declarations

end Graft
