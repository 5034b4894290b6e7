import Graft.Proofs.Session.Asking
import Graft.Proofs.Signature.Renaming

/-!
# Types that are entangled

What a resolution asks for leads from a type to its module and to types that it depends on, and from a
module nowhere. So a declaration that is asked for on the way to its own scope or signature is a nested
type, and the type that it is nested in depends on it in the end (`entangled_of_asks`).
-/

namespace Graft

open Relation

namespace Declarations

variable {decls : Declarations}

/-- The types that a declared type depends on: its declaring type, and those in its base type, its
interfaces and the constraints of its generic parameters. -/
inductive Depends (decls : Declarations) (id other : DeclId .type) : Prop where
  | declaring (h : decls.outer? id = some other)
  | base {ref : TypeRef} (h : (decls.type id).base = some ref)
      (hmem : .declaration (.type other) ∈ ref.targets)
  | interface {ref : TypeRef} (h : ref ∈ (decls.type id).interfaces)
      (hmem : .declaration (.type other) ∈ ref.targets)
  | constraint {params : List GenericParam} {param : GenericParam} {ref : TypeRef}
      (h : (decls.type id).generics = some params) (hparam : param ∈ params)
      (href : ref ∈ param.constraints) (hmem : .declaration (.type other) ∈ ref.targets)

/-- Whether a type is nested in a type that depends on it in the end. -/
def Entangled (decls : Declarations) (id : DeclId .type) : Prop :=
  ∃ outer, decls.outer? id = some outer ∧ ReflTransGen decls.Depends outer id

/-- Whether resolving one declaration may ask for another one. -/
def Asks (decls : Declarations) (declaration other : Declaration) : Prop :=
  other ∈ decls.forerunners declaration ++ decls.followers declaration

theorem mem_declaredIn {targets : List Target} {declaration : Declaration} :
    declaration ∈ declaredIn targets ↔ .declaration declaration ∈ targets := by
  unfold declaredIn
  rw [List.mem_filterMap]
  constructor
  · rintro ⟨target, hmem, htarget⟩
    cases target <;> cases htarget
    exact hmem
  · exact fun hmem => ⟨_, hmem, rfl⟩

/-- What a declaration of a closed set asks for is in the set, unless it does not exist. -/
theorem Closed.asks {asked : Declaration → Prop} {declaration other : Declaration}
    (h : decls.Closed asked) (hasked : asked declaration) (hasks : decls.Asks declaration other)
    (hhas : decls.has other = true) : asked other := by
  have hstated (hmem : .declaration other ∈ (decls.statement declaration).targets) : asked other :=
    h.stated declaration other hasked hmem hhas
  unfold Asks forerunners followers at hasks
  simp only [List.mem_append, mem_declaredIn, List.mem_map, Option.mem_toList] at hasks
  rcases hasks with (hparent | hshape) | (((hbase | hinterface) | hgeneric) | hoverride) | haccessor
  · exact h.parent declaration other hasked hparent
  · exact hstated (by simp [Statement.targets, hshape])
  · exact hstated (by simp [Statement.targets, hbase])
  · exact hstated (by simp only [Statement.targets, List.mem_append, hinterface, true_or, or_true])
  · exact hstated (by simp [Statement.targets, hgeneric])
  · exact hstated (by simp only [Statement.targets, List.mem_append, hoverride, or_true])
  · obtain ⟨entry, hmem, rfl⟩ := haccessor
    exact h.accessors declaration entry.1 entry.2 hasked hmem

/-- References to types lead to types. -/
theorem exists_type_of_mem {ref : TypeRef} {declaration : Declaration}
    (h : .declaration declaration ∈ ref.targets) : ∃ id, declaration = .type id := by
  have hkind : declaration.kind = .type := ref.targets_ofType _ h
  cases declaration <;> cases hkind
  exact ⟨_, rfl⟩

theorem forerunners_type (id : DeclId .type) :
    decls.forerunners (.type id) = (decls.parent? (.type id)).toList := by
  simp [forerunners, statement, Shape.targets, declaredIn]

/-- Around a type there is a module or its declaring type. -/
theorem parent?_type {id : DeclId .type} {parent : Declaration}
    (h : decls.parent? (.type id) = some parent) :
    (∃ module, parent = .module module) ∨
      ∃ outer, parent = .type outer ∧ decls.outer? id = some outer := by
  rw [parent?] at h
  cases houter : decls.outer? id with
  | some outer =>
      rw [houter] at h
      cases h
      exact .inr ⟨outer, rfl, rfl⟩
  | none =>
      rw [houter] at h
      obtain ⟨module, -, rfl⟩ := Option.map_eq_some_iff.mp h
      exact .inl ⟨module, rfl⟩

/-- A type asks for its module or for types that it depends on. -/
theorem asks_type {id : DeclId .type} {other : Declaration} (h : decls.Asks (.type id) other) :
    (∃ module, other = .module module) ∨ ∃ type, other = .type type ∧ decls.Depends id type := by
  rcases List.mem_append.mp h with hbefore | hafter
  · rw [forerunners_type, Option.mem_toList] at hbefore
    rcases parent?_type hbefore with hmodule | ⟨outer, rfl, houter⟩
    · exact .inl hmodule
    · exact .inr ⟨outer, rfl, .declaring houter⟩
  · right
    rw [Search.followers_type] at hafter
    rcases List.mem_append.mp hafter with hbase | hafter
    · rw [mem_declaredIn] at hbase
      cases href : (decls.type id).base with
      | none => simp [href] at hbase
      | some ref =>
          rw [href, Option.elim_some] at hbase
          obtain ⟨type, rfl⟩ := exists_type_of_mem hbase
          exact ⟨type, rfl, .base href hbase⟩
    rcases List.mem_append.mp hafter with hinterface | hgeneric
    · obtain ⟨ref, href, hmem⟩ := List.mem_flatMap.mp hinterface
      rw [mem_declaredIn] at hmem
      obtain ⟨type, rfl⟩ := exists_type_of_mem hmem
      exact ⟨type, rfl, .interface href hmem⟩
    · rw [mem_declaredIn] at hgeneric
      cases hparams : (decls.type id).generics with
      | none => simp [hparams] at hgeneric
      | some params =>
          rw [hparams, Option.elim_some] at hgeneric
          obtain ⟨param, hparam, hmem⟩ := List.mem_flatMap.mp hgeneric
          obtain ⟨ref, href, hmem⟩ := List.mem_flatMap.mp hmem
          obtain ⟨type, rfl⟩ := exists_type_of_mem hmem
          exact ⟨type, rfl, .constraint hparams hparam href hmem⟩

/-- From a type on, only modules and types are asked for, and these types the first one depends on in
the end. -/
theorem reaches_type {id : DeclId .type} {other : Declaration}
    (h : ReflTransGen decls.Asks (.type id) other) :
    (∃ module, other = .module module) ∨
      ∃ type, other = .type type ∧ ReflTransGen decls.Depends id type := by
  induction h with
  | refl => exact .inr ⟨id, rfl, .refl⟩
  | tail _ hasks ih =>
      rcases ih with ⟨module, rfl⟩ | ⟨type, rfl, hdepends⟩
      · exact absurd hasks List.not_mem_nil
      · rcases asks_type hasks with hmodule | ⟨next, rfl, hnext⟩
        · exact .inl hmodule
        · exact .inr ⟨next, rfl, hdepends.tail hnext⟩

/-- The scope around a declaration and all that its signature refers to are modules and types. -/
theorem kind_of_forerunner {declaration first : Declaration}
    (h : first ∈ decls.forerunners declaration) :
    (∃ module, first = .module module) ∨ ∃ id, first = .type id := by
  have hkind : first.kind = .module ∨ first.kind = .type := by
    rcases List.mem_append.mp h with hparent | hsignature
    · rw [Option.mem_toList] at hparent
      cases declaration with
      | module id => cases hparent
      | type id =>
          rcases parent?_type hparent with ⟨module, rfl⟩ | ⟨outer, rfl, -⟩
          · exact .inl rfl
          · exact .inr rfl
      | field id | method id | property id | event id =>
          obtain ⟨owner, -, rfl⟩ := Option.map_eq_some_iff.mp hparent
          exact .inr rfl
    · rw [mem_declaredIn] at hsignature
      right
      cases declaration with
      | module | type => exact absurd hsignature List.not_mem_nil
      | field => exact TypeSig.targets_ofType _ _ hsignature
      | method => exact MethodSig.targets_ofType _ _ hsignature
      | property id =>
          rcases List.mem_append.mp hsignature with htype | hparams
          · exact TypeSig.targets_ofType _ _ htype
          · exact TypeSig.targetsList_ofType _ _ hparams
      | event => exact TypeRef.targets_ofType _ _ hsignature
  cases first with
  | module id => exact .inl ⟨id, rfl⟩
  | type id => exact .inr ⟨id, rfl⟩
  | field | method | property | event => rcases hkind with hkind | hkind <;> cases hkind

/-- Only a nested type can be asked for on the way to its own scope or signature. -/
theorem entangled_of_asks {declaration first : Declaration}
    (hfirst : first ∈ decls.forerunners declaration)
    (hasks : ReflTransGen decls.Asks first declaration) :
    ∃ id, declaration = .type id ∧ decls.Entangled id := by
  rcases kind_of_forerunner hfirst with ⟨module, rfl⟩ | ⟨outer, rfl⟩
  · -- A module asks for nothing, and nothing comes before a module.
    rcases hasks.cases_head with rfl | ⟨next, hnext, -⟩
    · exact absurd hfirst List.not_mem_nil
    · exact absurd hnext List.not_mem_nil
  · rcases reaches_type hasks with ⟨module, rfl⟩ | ⟨id, rfl, hdepends⟩
    · exact absurd hfirst List.not_mem_nil
    · refine ⟨id, rfl, outer, ?_, hdepends⟩
      rw [forerunners_type, Option.mem_toList] at hfirst
      rcases parent?_type hfirst with ⟨module, hmodule⟩ | ⟨found, heq, houter⟩
      · cases hmodule
      · cases heq
        exact houter

end Declarations

end Graft
