import Graft.Proofs.Declaration.Drafting
import Graft.Proofs.Declaration.Naming
import Mathlib.Data.List.Pairwise

/-!
# Consistent drafts

However patches are drafted from nothing, no two declarations of one list have the same key, what is
held by something read-only is read-only, and every member is as read-only as its type
(`Draft.Consistent`): each request keeps this (`Consistent.registers`). So at most one declaration
fits a request, which is answered if it agrees with the request and refused if it does not
(`draft_consistent`).
-/

namespace Graft

/-! ## Names that stay -/

namespace Declarations

variable {decls decls' : Declarations} {node : Declaration} {id : DeclId .type}
  {module : DeclId .module} {fuel fuel' : Nat}

/-- The module of a type is found however deep types may be nested, if deep enough. -/
theorem moduleWithin_mono (hfuel : fuel ≤ fuel')
    (hmodule : decls.moduleWithin fuel id = some module) :
    decls.moduleWithin fuel' id = some module := by
  induction fuel generalizing id fuel' with
  | zero => cases hmodule
  | succ fuel ih =>
      obtain ⟨fuel', rfl⟩ := Nat.exists_eq_succ_of_ne_zero (by omega : fuel' ≠ 0)
      rw [moduleWithin] at hmodule ⊢
      cases hplace : (decls.type id).place with
      | topLevel => simpa only [hplace] using hmodule
      | nested owner =>
          simp only [hplace] at hmodule ⊢
          split at hmodule
          · rw [if_pos ‹_›]
            exact ih (by omega) hmodule
          · cases hmodule

namespace Acquires

theorem has (h : decls.Acquires decls' node) {declaration : Declaration}
    (hhas : decls.has declaration = true) : decls'.has declaration = true :=
  h.keeps.has declaration hhas

theorem moduleWithin (h : decls.Acquires decls' node) (hhas : decls.has (.type id) = true)
    (hmodule : decls.moduleWithin fuel id = some module) :
    decls'.moduleWithin fuel id = some module := by
  induction fuel generalizing id with
  | zero => cases hmodule
  | succ fuel ih =>
      rw [Declarations.moduleWithin] at hmodule ⊢
      rw [h.place id hhas]
      cases hplace : (decls.type id).place with
      | topLevel scope =>
          simp only [hplace] at hmodule ⊢
          split at hmodule
          · rename_i hscope
            have hscope' : decls'.modules.has scope.index = true :=
              h.has (show decls.has (.module scope) = true from hscope)
            rw [if_pos hscope', hmodule]
          · cases hmodule
      | nested owner =>
          simp only [hplace] at hmodule ⊢
          split at hmodule
          · rename_i howner
            have howner' : decls'.types.has owner.index = true :=
              h.has (show decls.has (.type owner) = true from howner)
            rw [if_pos howner']
            exact ih howner hmodule
          · cases hmodule

/-- A type that belongs to a module keeps its name: everything around it is still there. -/
theorem typeNameWithin (h : decls.Acquires decls' node) (hhas : decls.has (.type id) = true)
    (hmodule : decls.moduleWithin fuel id = some module) :
    decls'.typeNameWithin fuel id = decls.typeNameWithin fuel id := by
  have hname {id : DeclId .type} (hhas : decls.has (.type id) = true) :
      (decls'.type id).name = (decls.type id).name := (h.keeps.stays _ hhas).name
  induction fuel generalizing id with
  | zero => cases hmodule
  | succ fuel ih =>
      rw [Declarations.moduleWithin] at hmodule
      rw [Declarations.typeNameWithin, Declarations.typeNameWithin, h.place id hhas, hname hhas]
      cases hplace : (decls.type id).place with
      | topLevel => rfl
      | nested owner =>
          simp only [hplace] at hmodule ⊢
          split at hmodule
          · rename_i howner
            have howner' : decls'.types.has owner.index = true :=
              h.has (show decls.has (.type owner) = true from howner)
            rw [if_pos howner, if_pos howner', ih howner hmodule]
          · cases hmodule

theorem moduleOf (h : decls.Acquires decls' node) (hhas : decls.has (.type id) = true)
    (hmodule : decls.moduleOf? id = some module) : decls'.moduleOf? id = some module :=
  moduleWithin_mono h.next (h.moduleWithin hhas hmodule)

theorem typeName (h : decls.Acquires decls' node) (hhas : decls.has (.type id) = true)
    (hmodule : decls.moduleOf? id = some module) : decls'.typeName id = decls.typeName id :=
  (typeNameWithin_eq h.next (h.moduleWithin hhas hmodule)).trans (h.typeNameWithin hhas hmodule)

end Acquires

end Declarations

/-- Overloads are told apart by their parameters, and so a method is the overload that it is as soon
as these are of known shape. -/
theorem Shape.overloads_known {names : TypeNames} {signature : MethodSig}
    (hknown : .unknown ∉ TypeSig.targetsList (signature.params ++ signature.varargs)) :
    (Shape.method signature).Overloads names (.method signature) := by
  obtain ⟨callConv, genericCount, result, params, varargs⟩ := signature
  rw [TypeSig.targetsList_eq_flatMap, List.flatMap_append, ← TypeSig.targetsList_eq_flatMap,
    ← TypeSig.targetsList_eq_flatMap, List.mem_append, not_or] at hknown
  refine (MethodSig.same_iff _ _).mpr ⟨rfl, fun hmem => ?_⟩
  simp only [MethodSig.normal, MethodSig.targets, Comparison.ignoreResult_overload, if_true,
    TypeSig.targets, List.nil_append, List.mem_append] at hmem
  exact hmem.elim (fun h => hknown.1 (TypeSig.unknown_of_normalList _ h))
    fun h => hknown.2 (TypeSig.unknown_of_normalList _ h)

theorem Shape.Overloads.symm {names : TypeNames} {left right : Shape}
    (h : left.Overloads names right) : right.Overloads names left := by
  cases left <;> cases right <;> try cases h
  exact MethodSig.same_symm h

/-- Two signatures that are the overload of a third are one overload. -/
theorem Shape.overloads_of_both {names : TypeNames} {left right shape : Shape}
    (hleft : left.Overloads names shape) (hright : right.Overloads names shape) :
    left.Overloads names right := by
  cases left <;> cases shape <;> try cases hleft
  cases right <;> try cases hright
  exact MethodSig.same_of_same (MethodSig.same_symm hleft) (MethodSig.same_symm hright)

/-! ## Consistency -/

namespace Draft

/-- Whether two declarations of a scope have the same key: a module its name, a type at top level
its namespace and its name, and what is declared in a type its name, with the overload of a method.
-/
structure SameKey (draft : Draft) (scope : DraftScope) (left right : Declaration) : Prop where
  kind : left.kind = right.kind
  name : (draft.decls.statement left).name = (draft.decls.statement right).name
  space : ∀ module, scope = .holder (.module module) →
    draft.decls.space? left = draft.decls.space? right
  overload : left.kind = .method → (draft.decls.statement left).shape.Overloads
    draft.world.typeNames (draft.decls.statement right).shape

theorem SameKey.symm {draft : Draft} {scope : DraftScope} {left right : Declaration}
    (h : draft.SameKey scope left right) : draft.SameKey scope right left :=
  ⟨h.kind.symm, h.name.symm, fun module hscope => (h.space module hscope).symm,
    fun hkind => (h.overload (h.kind.trans hkind)).symm⟩

/-- Whether a draft is in order. -/
structure Consistent (draft : Draft) : Prop where
  has : ∀ scope kind, ∀ node ∈ draft.listed scope kind, draft.decls.has node = true
  apart : ∀ scope kind, (draft.listed scope kind).Pairwise fun left right =>
    ¬ draft.SameKey scope left right
  member : ∀ owner kind, ∀ node ∈ draft.decls.members (.type owner) kind,
    (draft.decls.terms node).readOnly = (draft.decls.type owner).terms.readOnly
  guarded : ∀ module kind, ∀ node ∈ draft.decls.members (.module module) kind,
    (draft.decls.module module).terms.readOnly = true → (draft.decls.terms node).readOnly = true
  housed : ∀ id, draft.decls.has (.type id) = true →
    ∃ module, draft.decls.moduleOf? id = some module
  live : ∀ node, draft.decls.has node = true → ∀ other,
    .declaration other ∈ (draft.decls.statement node).shape.targets → draft.decls.has other = true

variable {draft next start : Draft} {call : DraftCall} {node left right : Declaration}
  {scope : DraftScope} {kind : SymbolKind}

theorem kind_of_mem_listed (hmem : node ∈ draft.listed scope kind) : node.kind = kind := by
  cases scope with
  | patch index =>
      unfold listed at hmem
      dsimp only at hmem
      split at hmem
      · obtain ⟨id, -, rfl⟩ := List.mem_map.mp hmem
        exact Eq.symm ‹_›
      · cases hmem
  | holder holder => exact Declarations.kind_of_mem_members hmem

end Draft

namespace DraftCall.Registers

variable {draft next : Draft} {call : DraftCall} {node : Declaration}

/-- What was declared for a request has the key that was asked for. -/
theorem fits (h : call.Registers draft next node) (hadmissible : call.Admissible draft) :
    call.Fits next.world node where
  name := h.name
  space space hspace := h.space.trans hspace
  overload hkind := by
    rw [h.shape]
    cases call with
    | method owner name signature => exact Shape.overloads_known (hadmissible.known signature rfl)
    | module | type | nested | field | property | event => cases hkind

/-- What was declared for a request agrees with it. -/
theorem agrees (h : call.Registers draft next node) (hadmissible : call.Admissible draft) :
    call.Agrees next node where
  policy := congrArg Terms.policy h.terms
  access haccess := by
    refine (congrArg Terms.readOnly h.terms).trans ?_
    cases call with
    | module => rfl
    | type scope =>
        have hscope := h.acquires.keeps.stays _ (hadmissible.holder (.module scope) rfl)
        have hterms : (next.decls.module scope).terms = (draft.decls.module scope).terms :=
          hscope.terms
        simp only [DraftCall.readOnly, hterms]
    | nested | field | method | property | event => cases haccess

end DraftCall.Registers

namespace Draft

variable {draft next start : Draft} {call : DraftCall} {node left right : Declaration}
  {scope : DraftScope} {kind : SymbolKind}

namespace Consistent

/-- What is held by something read-only is read-only. -/
theorem readOnly_below (h : draft.Consistent) {top : Declaration}
    (htop : (draft.decls.terms top).readOnly = true) (hbelow : draft.decls.Below top node) :
    (draft.decls.terms node).readOnly = true := by
  induction hbelow with
  | top => exact htop
  | @member holder node kind _ hmem ih =>
      cases holder with
      | module module => exact h.guarded module kind node hmem ih
      | type owner => exact (h.member owner kind node hmem).trans ih
      | field | method | property | event => cases kind <;> cases hmem

/-- A draft in which nothing is declared is in order. -/
theorem of_empty (hdecls : start.decls = {})
    (hpatches : ∀ index, (start.patches index).modules = []) : start.Consistent := by
  have habsent (node : Declaration) : start.decls.has node = false := by
    rw [hdecls]
    cases node <;> rfl
  have hmembers (holder : Declaration) (kind : SymbolKind) : start.decls.members holder kind = [] :=
    Declarations.members_of_absent (habsent holder) kind
  have hlisted (scope : DraftScope) (kind : SymbolKind) : start.listed scope kind = [] := by
    cases scope with
    | patch index => simp [listed, hpatches]
    | holder holder => exact hmembers holder kind
  constructor <;> simp [habsent, hmembers, hlisted]

/-- What names a draft gives to what is there, it gives also once something was declared. -/
theorem names_agree (h : draft.Consistent) (hregisters : call.Registers draft next node)
    {targets : List Target} (options : Comparison)
    (hlive : ∀ other, .declaration other ∈ targets → draft.decls.has other = true) :
    next.world.typeNames.Agree draft.world.typeNames options targets := by
  intro _ target hmem
  have hacquires := hregisters.acquires
  unfold TypeNames.AgreesAt
  split
  · rw [hregisters.world]
    rfl
  · rename_i id
    have hhas : draft.decls.has (.type id) = true := hlive _ hmem
    obtain ⟨module, hmodule⟩ := h.housed id hhas
    have hold : draft.world.decls.types.has id.index = true := hhas
    have hnew : next.world.decls.types.has id.index = true := hacquires.has hhas
    simp only [World.typeNames, hold, hnew, if_true, hacquires.typeName hhas hmodule]
  · trivial

/-- What two declarations had not in common they do not get in common. -/
theorem sameKey_of_registers (h : draft.Consistent) (hregisters : call.Registers draft next node)
    (hleft : draft.decls.has left = true) (hright : draft.decls.has right = true)
    (hsame : next.SameKey scope left right) : draft.SameKey scope left right := by
  have hstays {node : Declaration} (hhas : draft.decls.has node = true) :=
    hregisters.acquires.keeps.stays node hhas
  refine ⟨hsame.kind, ?_, fun module hscope => ?_, fun hkind => ?_⟩
  · rw [← (hstays hleft).name, ← (hstays hright).name]
    exact hsame.name
  · rw [← (hstays hleft).space, ← (hstays hright).space]
    exact hsame.space module hscope
  · have hoverload := hsame.overload hkind
    rw [(hstays hleft).shape, (hstays hright).shape] at hoverload
    exact Shape.overloads_congr
      (fun options => h.names_agree hregisters options (h.live left hleft))
      (fun options => h.names_agree hregisters options (h.live right hright)) hoverload

/-- What has the key of what was declared last would have been found. -/
theorem fits_of_sameKey (h : draft.Consistent) (hadmissible : call.Admissible draft)
    (hregisters : call.Registers draft next node) (hmem : left ∈ call.siblings draft)
    (hsame : next.SameKey call.scope left node) : call.Fits draft.world left := by
  have hleft := h.has _ _ left hmem
  have hstays := hregisters.acquires.keeps.stays left hleft
  refine ⟨?_, fun space hspace => ?_, fun hkind => ?_⟩
  · rw [← hregisters.name, ← hsame.name]
    exact hstays.name.symm
  · obtain ⟨module, hscope⟩ : ∃ module, call.scope = .holder (.module module) := by
      cases call with
      | type module => exact ⟨module, rfl⟩
      | module | nested | field | method | property | event => cases hspace
    have hnode := hsame.space module hscope
    rw [hstays.space, hregisters.space] at hnode
    exact hnode.trans hspace
  · have hoverload := hsame.overload ((kind_of_mem_listed hmem).trans hkind)
    rw [hstays.shape, hregisters.shape] at hoverload
    exact Shape.overloads_congr
      (fun options => h.names_agree hregisters options (h.live left hleft))
      (fun options => h.names_agree hregisters options hadmissible.live) hoverload

/-- What has been declared anew is listed where it was asked for, and nowhere else. -/
theorem mem_listed_iff (hregisters : call.Registers draft next node) {other : Declaration} :
    other ∈ next.listed scope kind ↔ other ∈ draft.listed scope kind ∨
      (call.scope = scope ∧ kind = node.kind) ∧ other = node := by
  rw [hregisters.listed, List.mem_append]
  split <;> simp [*]

theorem apart_registers (h : draft.Consistent) (hadmissible : call.Admissible draft)
    (hregisters : call.Registers draft next node)
    (hnone : ∀ node ∈ call.siblings draft, ¬ call.Fits draft.world node) :
    (next.listed scope kind).Pairwise fun left right => ¬ next.SameKey scope left right := by
  -- The list grows by at most the new declaration, and nothing listed before has its key.
  have hold : (draft.listed scope kind).Pairwise fun left right =>
      ¬ next.SameKey scope left right :=
    (h.apart scope kind).imp_of_mem fun hleft hright hne hsame =>
      hne (h.sameKey_of_registers hregisters (h.has _ _ _ hleft) (h.has _ _ _ hright) hsame)
  rw [hregisters.listed]
  split
  · rename_i hhere
    obtain ⟨rfl, rfl⟩ := hhere
    rw [List.pairwise_append]
    refine ⟨hold, List.pairwise_singleton .., fun left hleft right hright hsame => ?_⟩
    obtain rfl := List.mem_singleton.mp hright
    rw [hregisters.kind] at hleft
    exact hnone left hleft (h.fits_of_sameKey hadmissible hregisters hleft hsame)
  · simpa using hold

/-- Every type is in a module. -/
theorem housed_registers (h : draft.Consistent) (hadmissible : call.Admissible draft)
    (hregisters : call.Registers draft next node) (id : DeclId .type)
    (hhas : next.decls.has (.type id) = true) :
    ∃ module, next.decls.moduleOf? id = some module := by
  have hacquires := hregisters.acquires
  obtain hold | rfl := (hacquires.gains.has _).mp hhas
  · obtain ⟨module, hmodule⟩ := h.housed id hold
    exact ⟨module, hacquires.moduleOf hold hmodule⟩
  have hgrown := hregisters.grown rfl
  have hplace := hregisters.place id rfl
  obtain ⟨fuel, hfuel⟩ := Nat.exists_eq_succ_of_ne_zero (Nat.ne_of_gt (Nat.zero_lt_of_lt hgrown))
  rw [Declarations.moduleOf?, hfuel, Declarations.moduleWithin]
  cases call with
  | type module =>
      have hmodule : next.decls.modules.has module.index = true :=
        hacquires.has (hadmissible.holder _ rfl)
      rw [← Option.some.inj hplace]
      exact ⟨module, if_pos hmodule⟩
  | nested owner =>
      have howner := hadmissible.holder _ rfl
      have howner' : next.decls.types.has owner.index = true := hacquires.has howner
      obtain ⟨module, hmodule⟩ := h.housed owner howner
      rw [← Option.some.inj hplace]
      refine ⟨module, (if_pos howner').trans ?_⟩
      exact Declarations.moduleWithin_mono (by omega) (hacquires.moduleWithin howner hmodule)
  | module | field | method | property | event => cases hplace

/-- A request that is answered with something new keeps a draft in order. -/
theorem registers (h : draft.Consistent) (hadmissible : call.Admissible draft)
    (hregisters : call.Registers draft next node)
    (hnone : ∀ node ∈ call.siblings draft, ¬ call.Fits draft.world node) :
    next.Consistent := by
  have hacquires := hregisters.acquires
  have hterms {node : Declaration} (hhas : draft.decls.has node = true) :
      next.decls.terms node = draft.decls.terms node := (hacquires.keeps.stays node hhas).terms
  have hholder {holder other : Declaration} {kind : SymbolKind}
      (hmem : other ∈ draft.decls.members holder kind) : draft.decls.has holder = true := by
    by_contra hhas
    rw [Declarations.members_of_absent (Bool.eq_false_iff.mpr hhas)] at hmem
    cases hmem
  have hcases {holder other : Declaration} {kind : SymbolKind}
      (hmem : other ∈ next.listed (.holder holder) kind) :=
    (mem_listed_iff hregisters).mp hmem
  -- Whatever is listed now was listed before, or it is the new declaration in the scope of the request.
  refine ⟨fun scope kind other hmem => ?has, fun scope kind =>
    h.apart_registers hadmissible hregisters hnone, fun owner kind other hmem => ?member,
    fun module kind other hmem hreadOnly => ?guarded, h.housed_registers hadmissible hregisters,
    fun other hhas target htarget => ?live⟩
  case has =>
    obtain hold | ⟨-, rfl⟩ := (mem_listed_iff hregisters).mp hmem
    · exact hacquires.has (h.has _ _ _ hold)
    · exact (hacquires.gains.has _).mpr (.inr rfl)
  case member =>
    obtain hold | ⟨⟨hscope, -⟩, rfl⟩ := hcases hmem
    · have howner := congrArg Terms.readOnly (hterms (hholder hold))
      rw [hterms (h.has (.holder (.type owner)) kind other hold), h.member owner kind other hold]
      exact howner.symm
    · have howner := congrArg Terms.readOnly (hterms (hadmissible.holder _ hscope))
      rw [hregisters.terms]
      refine Eq.trans ?_ howner.symm
      cases call <;> cases hscope <;> rfl
  case guarded =>
    obtain hold | ⟨⟨hscope, -⟩, rfl⟩ := hcases hmem
    · have hmodule := congrArg Terms.readOnly (hterms (hholder hold))
      rw [hterms (h.has (.holder (.module module)) kind other hold)]
      exact h.guarded module kind other hold (hmodule.symm.trans hreadOnly)
    · have hmodule := congrArg Terms.readOnly (hterms (hadmissible.holder _ hscope))
      have hbefore : (draft.decls.module module).terms.readOnly = true :=
        hmodule.symm.trans hreadOnly
      rw [hregisters.terms]
      cases call <;> cases hscope
      simp [DraftCall.readOnly, hbefore]
  case live =>
    obtain hold | rfl := (hacquires.gains.has _).mp hhas
    · rw [(hacquires.keeps.stays other hold).shape] at htarget
      exact hacquires.has (h.live other hold target htarget)
    · rw [hregisters.shape] at htarget
      exact hacquires.has (hadmissible.live target htarget)

/-- At most one declaration fits a request. -/
theorem fits_unique (h : draft.Consistent) (hleft : left ∈ call.siblings draft)
    (hright : right ∈ call.siblings draft) (hfits : call.Fits draft.world left)
    (hfits' : call.Fits draft.world right) : left = right := by
  by_contra hne
  have : Std.Symm fun left right => ¬ draft.SameKey call.scope left right :=
    ⟨fun _ _ hapart hsame => hapart hsame.symm⟩
  refine (h.apart call.scope call.kind).forall hleft hright hne ?_
  have hkind := kind_of_mem_listed hleft
  refine ⟨hkind.trans (kind_of_mem_listed hright).symm, hfits.name.trans hfits'.name.symm,
    fun module hscope => ?_, fun hmethod => ?_⟩
  · cases call <;> cases hscope
    exact (hfits.space _ rfl).trans (hfits'.space _ rfl).symm
  · have hcall := hkind.symm.trans hmethod
    exact Shape.overloads_of_both (hfits.overload hcall) (hfits'.overload hcall)

/-- What answers a request in a draft that is in order: the one declaration that fits, or a conflict
and nothing else, if one fits; and else a new declaration, which fits from then on. -/
theorem perform (h : draft.Consistent) (hadmissible : call.Admissible draft) :
    (∀ node ∈ call.siblings draft, call.Fits draft.world node →
      (call.Agrees draft node → call.perform draft = (.ok node, draft)) ∧
      (¬ call.Agrees draft node → ∃ symbol clash,
        call.perform draft = (.error (.conflict symbol clash), draft))) ∧
    ((∀ node ∈ call.siblings draft, ¬ call.Fits draft.world node) →
      ∃ node next, call.perform draft = (.ok node, next) ∧ call.Registers draft next node ∧
        node ∈ call.siblings next ∧ call.Fits next.world node ∧ call.Agrees next node) := by
  obtain ⟨found, hfound, hfits, hanswer⟩ | ⟨hnone, node, next, hanswer, hregisters⟩ :=
    DraftCall.perform_answers hadmissible.holder
  · refine ⟨fun node hmem hnode => ?_, fun hnone => absurd hfits (hnone found hfound)⟩
    obtain rfl := h.fits_unique hmem hfound hnode hfits
    obtain ⟨hagrees, hok⟩ | ⟨hagrees, hconflict⟩ := hanswer
    · exact ⟨fun _ => hok, fun hnot => absurd hagrees hnot⟩
    · exact ⟨fun hyes => absurd hyes hagrees, fun _ => hconflict⟩
  · refine ⟨fun node hmem hnode => absurd hnode (hnone node hmem), fun _ =>
      ⟨node, next, hanswer, hregisters, ?_, hregisters.fits hadmissible,
        hregisters.agrees hadmissible⟩⟩
    exact (mem_listed_iff hregisters).mpr (.inr ⟨⟨rfl, hregisters.kind.symm⟩, rfl⟩)

end Consistent

/-- The drafts that requests lead to, each of which could be made where it was made. -/
inductive Reaches (start : Draft) : Draft → Prop where
  | start : Reaches start start
  | perform {draft : Draft} {call : DraftCall} (hdraft : Reaches start draft)
      (hadmissible : call.Admissible draft) : Reaches start (call.perform draft).2

/-- Requests keep a draft in order. -/
theorem Consistent.reaches (h : start.Consistent) (hreaches : start.Reaches draft) :
    draft.Consistent := by
  induction hreaches with
  | start => exact h
  | @perform draft call _ hadmissible ih =>
      obtain ⟨_, _, _, hanswer⟩ | ⟨hnone, node, next, hanswer, hregisters⟩ :=
        DraftCall.perform_answers hadmissible.holder
      · obtain ⟨-, hok⟩ | ⟨-, symbol, clash, hconflict⟩ := hanswer
        · rwa [hok]
        · rwa [hconflict]
      · rw [hanswer]
        exact ih.registers hadmissible hregisters hnone

end Draft

/-- However patches are drafted from nothing, no two declarations of one list have the same key, what
is held by something read-only is read-only, and what a type declares is as read-only as the type. A
request for a key that is declared is answered with the one declaration that has it, exactly if that
agrees with the request on the policy and, for a module or a type at top level, on the access that
results; and else with a conflict, while nothing whatever changes. A request for a new key is answered
with a new declaration that has it and agrees. -/
theorem draft_consistent {start draft : Draft} (hdecls : start.decls = {})
    (hpatches : ∀ index, (start.patches index).modules = []) (hreaches : start.Reaches draft) :
    (∀ scope kind, (draft.listed scope kind).Pairwise fun left right =>
      ¬ draft.SameKey scope left right) ∧
    (∀ top node, (draft.decls.terms top).readOnly = true → draft.decls.Below top node →
      (draft.decls.terms node).readOnly = true) ∧
    (∀ owner kind, ∀ node ∈ draft.decls.members (.type owner) kind,
      (draft.decls.terms node).readOnly = (draft.decls.type owner).terms.readOnly) ∧
    ∀ call : DraftCall, call.Admissible draft →
      (∀ node ∈ call.siblings draft, call.Fits draft.world node →
        (call.Agrees draft node → call.perform draft = (.ok node, draft)) ∧
        (¬ call.Agrees draft node → ∃ symbol clash,
          call.perform draft = (.error (.conflict symbol clash), draft))) ∧
      ((∀ node ∈ call.siblings draft, ¬ call.Fits draft.world node) →
        ∃ node next, call.perform draft = (.ok node, next) ∧ call.Registers draft next node ∧
          node ∈ call.siblings next ∧ call.Fits next.world node ∧ call.Agrees next node) := by
  have h := (Draft.Consistent.of_empty hdecls hpatches).reaches hreaches
  exact ⟨h.apart, fun _ _ => h.readOnly_below, h.member, fun _ => h.perform⟩

/-- A draft in which nothing has been declared yet. -/
def Draft.blank : Draft :=
  ⟨{}, fun _ => { name := "Fixes" }⟩

/-- A type that is asked for in a read-only module is read-only; asking for it again, without asking
for it to be read-only, answers that type. -/
theorem draft_consistent_guarded :
    let requireModule := DraftCall.module 0 "Game" .failIfMissing true
    let declareType := DraftCall.type ⟨0⟩ "Core" "Clock" .createIfMissing false
    let draft := (declareType.perform (requireModule.perform Draft.blank).2).2
    Draft.blank.decls = {} ∧ (∀ index, (Draft.blank.patches index).modules = []) ∧
      Draft.blank.Reaches draft ∧ declareType.perform draft = (.ok (.type ⟨0⟩), draft) ∧
      (draft.decls.type ⟨0⟩).terms.readOnly = true := by
  intro requireModule declareType draft
  have hmodule : requireModule.Admissible Draft.blank := ⟨nofun, nofun, nofun⟩
  have htype : declareType.Admissible (requireModule.perform Draft.blank).2 :=
    ⟨fun _ hscope => by cases hscope; rfl, nofun, nofun⟩
  have hreaches : Draft.blank.Reaches draft := .perform (.perform .start hmodule) htype
  have hagain : declareType.Admissible draft :=
    ⟨fun _ hscope => by cases hscope; rfl, nofun, nofun⟩
  obtain ⟨-, hbelow, -, hcalls⟩ := draft_consistent rfl (fun _ => rfl) hreaches
  have hmem : Declaration.type ⟨0⟩ ∈ draft.decls.members (.module ⟨0⟩) .type := by decide
  refine ⟨rfl, fun _ => rfl, hreaches, ?_, hbelow (.module ⟨0⟩) (.type ⟨0⟩) rfl (.member .top hmem)⟩
  obtain ⟨hanswer, -⟩ := (hcalls declareType hagain).1 (.type ⟨0⟩) hmem
    ⟨rfl, fun _ hspace => by cases hspace; rfl, nofun⟩
  exact hanswer ⟨rfl, fun _ => rfl⟩

end Graft
