import Graft.Declaration.Members
import Graft.Proofs.Definition.Record
import Graft.Proofs.Signature.Normal
import Mathlib.Data.List.Perm.Subperm

/-!
# One view of all declarations

A declaration of any kind read as a `Statement`: the name that it gives, its signature, and all
that it asks of the definition it stands for. `parent?` is the declaration around it, and a set of
declarations is `Closed` when it has, with every declaration, all those that its resolution may
ask for.
-/

namespace Graft

namespace Shape

/-- What a signature refers to. -/
def targets : Shape → List Target
  | .none => []
  | .field signature => signature.targets
  | .method signature => signature.targets
  | .property signature => signature.targets
  | .event type => type.targets

/-- The slots of the owners of generic variables in a signature. -/
def slots : Shape → List SlotId
  | .none => []
  | .field signature => signature.slots
  | .method signature => signature.slots
  | .property signature => signature.slots
  | .event type => type.slots

/-- A signature relinked. -/
def relink (link : Relink) : Shape → Shape
  | .none => .none
  | .field signature => .field (signature.relink link)
  | .method signature => .method (signature.relink link)
  | .property signature => .property (signature.relink link)
  | .event type => .event (type.relink link)

/-- Whether two signatures of the same kind are equal as declarations give them. -/
def Agree (names : TypeNames) : Shape → Shape → Prop
  | .field left, .field right => left.same names .declared right = true
  | .property left, .property right => left.same names .declared right = true
  | .event left, .event right => left.same names .declared right = true
  | _, _ => False

/-- Whether two signatures are those of the same overload. -/
def Overloads (names : TypeNames) : Shape → Shape → Prop
  | .method left, .method right => left.same names .overload right = true
  | _, _ => False

/-- Whether two signatures are those of methods with the same result. -/
def ResultsAgree (names : TypeNames) : Shape → Shape → Prop
  | .method left, .method right => left.result.same names .declared right.result = true
  | _, _ => False

theorem targets_relink (link : Relink) (shape : Shape) :
    (shape.relink link).targets = shape.targets.flatMap link.image := by
  cases shape with
  | none => rfl
  | field signature => exact signature.targets_relink
  | method signature => exact signature.targets_relink
  | property signature => exact signature.targets_relink
  | event type => exact type.targets_relink

theorem relink_congr {link link' : Relink} (howner : link.onOwner = link'.onOwner) (shape : Shape)
    (h : ∀ target ∈ shape.targets, link.AgreesAt link' target) :
    shape.relink link = shape.relink link' := by
  cases shape with
  | none => rfl
  | field signature => exact congrArg field (signature.relink_congr howner h)
  | method signature => exact congrArg method (signature.relink_congr howner h)
  | property signature => exact congrArg property (signature.relink_congr howner h)
  | event type => exact congrArg event (type.relink_congr howner h)

theorem fill_mono {answers answers' : Answers} (hextends : answers.Extends answers')
    {shape : Shape} (h : answers.SettlesAll shape.targets) :
    shape.relink (.fill answers') = shape.relink (.fill answers) :=
  (shape.relink_congr fill_onOwner fun _ ht => fill_agrees hextends (h _ ht)).symm

theorem agree_self {names : TypeNames} {shape : Shape} (h : .unknown ∉ shape.targets)
    (hnone : shape ≠ .none) (hmethod : ∀ signature, shape ≠ .method signature) :
    shape.Agree names shape := by
  cases shape with
  | none => exact absurd rfl hnone
  | field signature => exact signature.same_self h
  | method signature => exact absurd rfl (hmethod signature)
  | property signature => exact signature.same_self h
  | event type => exact type.same_self h

theorem overloads_self {names : TypeNames} {signature : MethodSig}
    (h : .unknown ∉ signature.targets) :
    (Shape.method signature).Overloads names (.method signature) :=
  signature.same_self h

theorem resultsAgree_self {names : TypeNames} {signature : MethodSig}
    (h : .unknown ∉ signature.targets) :
    (Shape.method signature).ResultsAgree names (.method signature) := by
  obtain ⟨callConv, genericCount, result, params, varargs⟩ := signature
  simp only [MethodSig.targets, List.mem_append, not_or] at h
  exact result.same_self h.1.1

end Shape

/-- What a declaration of any kind says, apart from its terms. -/
structure Statement where
  name : String
  /-- The namespace of a type at top level. -/
  namespaceName : String := ""
  shape : Shape := .none
  flags : Option UInt32 := none
  base : Option TypeRef := none
  interfaces : List TypeRef := []
  generics : Option (List GenericParam) := none
  overrides : List Override := []
  accessors : DeclaredAccessors := []

/-- What a statement refers to, apart from the methods that it names as accessors. -/
def Statement.targets (statement : Statement) : List Target :=
  statement.shape.targets ++ statement.base.elim [] TypeRef.targets
    ++ statement.interfaces.flatMap TypeRef.targets
    ++ statement.generics.elim [] (List.flatMap GenericParam.targets)
    ++ statement.overrides.flatMap Override.targets

/-- The slots of the owners of generic variables in what a statement says. -/
def Statement.slots (statement : Statement) : List SlotId :=
  statement.shape.slots ++ statement.base.elim [] TypeRef.slots
    ++ statement.interfaces.flatMap TypeRef.slots
    ++ statement.generics.elim [] (List.flatMap GenericParam.slots)
    ++ statement.overrides.flatMap Override.slots

namespace Declarations

/-- What a declaration says. -/
def statement (decls : Declarations) : Declaration → Statement
  | .module id => { name := (decls.module id).name }
  | .type id =>
    { name := (decls.type id).name
      namespaceName := (decls.type id).namespaceName?.getD ""
      flags := (decls.type id).flags
      base := (decls.type id).base
      interfaces := (decls.type id).interfaces
      generics := (decls.type id).generics }
  | .field id =>
    { name := (decls.field id).name
      shape := .field (decls.field id).signature
      flags := (decls.field id).flags }
  | .method id =>
    { name := (decls.method id).name
      shape := .method (decls.method id).signature
      flags := (decls.method id).flags
      overrides := (decls.method id).overrides }
  | .property id =>
    { name := (decls.property id).name
      shape := .property (decls.property id).signature
      flags := (decls.property id).flags
      accessors := (decls.property id).accessors }
  | .event id =>
    { name := (decls.event id).name
      shape := .event (decls.event id).type
      flags := (decls.event id).flags
      accessors := (decls.event id).accessors }

/-- The declaration around a declaration, if it still exists: the module of a type at top level,
and the type around a nested type or a member. -/
def parent? (decls : Declarations) : Declaration → Option Declaration
  | .module _ => none
  | .type id =>
    match decls.outer? id with
    | some outer => some (.type outer)
    | none => (decls.moduleOf? id).map .module
  | .field id => (decls.living? (decls.field id).owner).map .type
  | .method id => (decls.living? (decls.method id).owner).map .type
  | .property id => (decls.living? (decls.property id).owner).map .type
  | .event id => (decls.living? (decls.event id).owner).map .type

theorem has_moduleWithin {decls : Declarations} {depth : Nat} {id : DeclId .type}
    {module : DeclId .module} (h : decls.moduleWithin depth id = some module) :
    decls.has (.module module) = true := by
  induction depth generalizing id with
  | zero => cases h
  | succ depth ih =>
      rw [moduleWithin] at h
      split at h
      · split at h <;> cases h
        assumption
      · split at h
        · exact ih h
        · cases h

theorem has_outer {decls : Declarations} {id outer : DeclId .type}
    (h : decls.outer? id = some outer) : decls.has (.type outer) = true := by
  unfold outer? at h
  split at h
  · cases h
  · split at h <;> cases h
    assumption

theorem has_living {decls : Declarations} {owner living : DeclId .type}
    (h : decls.living? owner = some living) : decls.has (.type living) = true := by
  unfold living? at h
  split at h <;> cases h
  assumption

/-- Whether a declaration may be changed, or have things made for it. -/
def Writable (decls : Declarations) (declaration : Declaration) : Prop :=
  (decls.terms declaration).readOnly = false

/-- Whether resolving declarations of a set never asks for one outside the set. A reference to a
declaration that is gone is refused before it is asked for. -/
structure Closed (decls : Declarations) (asked : Declaration → Prop) : Prop where
  parent : ∀ declaration parent, asked declaration → decls.parent? declaration = some parent →
    asked parent
  stated : ∀ declaration other, asked declaration →
    .declaration other ∈ (decls.statement declaration).targets → decls.has other = true →
    asked other
  accessors : ∀ declaration role method, asked declaration →
    (role, method) ∈ (decls.statement declaration).accessors → asked (.method method)

/-- Whether a list of declarations is closed can be checked one declaration after another. -/
theorem closed_iff {decls : Declarations} {nodes : List Declaration} :
    decls.Closed (· ∈ nodes) ↔ ∀ node ∈ nodes,
      (∀ parent ∈ decls.parent? node, parent ∈ nodes) ∧
      (∀ target ∈ (decls.statement node).targets, ∀ other ∈ target.declared?,
        decls.has other = true → other ∈ nodes) ∧
      ∀ entry ∈ (decls.statement node).accessors, Declaration.method entry.2 ∈ nodes := by
  constructor
  · intro h node hnode
    refine ⟨fun parent hparent => h.parent node parent hnode hparent, ?_,
      fun entry hentry => h.accessors node entry.1 entry.2 hnode hentry⟩
    intro target htarget other hother
    cases target with
    | declaration =>
        cases hother
        exact h.stated node other hnode htarget
    | definition | unknown => cases hother
  · intro h
    refine ⟨fun node parent hnode hparent => (h node hnode).1 parent hparent, ?_,
      fun node role method hnode hmem => (h node hnode).2.2 _ hmem⟩
    exact fun node other hnode hmem => (h node hnode).2.1 _ hmem other rfl

instance (decls : Declarations) (nodes : List Declaration) :
    Decidable (decls.Closed (· ∈ nodes)) :=
  decidable_of_iff _ closed_iff.symm

/-- Every declaration that exists, and those that are gone. -/
def all (decls : Declarations) : List Declaration :=
  (List.range decls.modules.next).map (.module ⟨·⟩) ++ (List.range decls.types.next).map (.type ⟨·⟩)
    ++ (List.range decls.fields.next).map (.field ⟨·⟩)
    ++ (List.range decls.methods.next).map (.method ⟨·⟩)
    ++ (List.range decls.properties.next).map (.property ⟨·⟩)
    ++ (List.range decls.events.next).map (.event ⟨·⟩)

theorem length_all (decls : Declarations) : decls.all.length = decls.count := by
  simp only [all, count, List.length_append, List.length_map, List.length_range]

theorem mem_all {decls : Declarations} {declaration : Declaration}
    (h : decls.has declaration = true) : declaration ∈ decls.all := by
  cases declaration <;> simp only [all, List.mem_append, List.mem_map, List.mem_range] <;> simp
  all_goals exact ⟨_, Table.lt_next_of_has h, rfl⟩

/-- There are no more different declarations than have been made. -/
theorem length_le_count {decls : Declarations} {declarations : List Declaration}
    (hdistinct : declarations.Nodup)
    (hhas : ∀ declaration ∈ declarations, decls.has declaration = true) :
    declarations.length ≤ decls.count := by
  rw [← decls.length_all]
  exact (hdistinct.subperm fun _ hmem => mem_all (hhas _ hmem)).length_le

end Declarations

end Graft
