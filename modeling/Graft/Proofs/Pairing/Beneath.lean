import Graft.Proofs.Pairing.Circles

/-!
# What is in flight beneath

Modules and types ask for modules and types only, so a member that is in flight beneath them makes no
difference to them. The type around a member and its signature are therefore resolved by themselves
just as they are on the way to the member (`on_bearings`).
-/

namespace Graft

open Relation SessionTask

/-! ## Scopes -/

namespace Declarations

variable {decls : Declarations} {declaration other : Declaration}

theorem isScope_of_forerunner (h : other ∈ decls.forerunners declaration) :
    other.kind.isScope = true := by
  rcases kind_of_forerunner h with ⟨module, rfl⟩ | ⟨id, rfl⟩ <;> rfl

/-- Modules and types lead to modules and types only. -/
theorem isScope_of_reaches (hscope : declaration.kind.isScope = true)
    (h : ReflTransGen decls.Asks declaration other) : other.kind.isScope = true := by
  cases declaration with
  | module id =>
      rcases h.cases_head with rfl | ⟨next, hnext, -⟩
      · rfl
      · exact absurd hnext List.not_mem_nil
  | type id =>
      rcases reaches_type h with ⟨module, rfl⟩ | ⟨type, rfl, -⟩ <;> rfl
  | field | method | property | event => cases hscope

/-- Modules and types have no accessors. -/
theorem accessors_of_isScope (hscope : declaration.kind.isScope = true) :
    (decls.statement declaration).accessors = [] := by
  cases declaration with
  | module | type => rfl
  | field | method | property | event => cases hscope

end Declarations

namespace Pairing

variable {decls : Declarations} {declaration member : Declaration} {depth : Nat}

/-- What a member asks for before it is located is resolved by itself as it is above the member. -/
theorem couples_beneath (hmember : member.kind.isScope = false)
    (hliving : decls.has member = true) (hfirst : declaration ∈ decls.forerunners member)
    (hhas : decls.has declaration = true) :
    (same decls fun _ => True).Couples (resolve declaration)
      (resolveWithin decls.count [(member, none)] declaration) := by
  have hscope := Declarations.isScope_of_forerunner hfirst
  have hheld (other : Declaration) (h : ReflTransGen decls.Asks declaration other)
      (_ : decls.has other = true) :
      ∀ entry ∈ (decls.statement other).accessors, decls.has (.method entry.2) = true := by
    simp [Declarations.accessors_of_isScope (Declarations.isScope_of_reaches hscope h)]
  have hnot : ∀ entry ∈ [(member, (none : Option Definition))],
      ¬ ReflTransGen decls.Asks declaration entry.1 := by
    rintro entry hmem hreaches
    obtain rfl := List.mem_singleton.mp hmem
    exact absurd (Declarations.isScope_of_reaches hscope hreaches) (by simp [hmember])
  have hchain : InFlight.Chain decls [(member, none)] declaration :=
    ⟨by simp, by simpa using hliving, hhas, fun other hmem => by
      cases List.mem_singleton.mp hmem
      exact ⟨declaration, hfirst, .refl⟩⟩
  rintro _ state ⟨rfl, hsettled⟩
  -- Both come to the end that the resolution comes to which hands over where no depth is left.
  have halone := @couples_resolveOr decls (fun _ => True) declaration [] [] (fun _ => resolve)
    (fun _ _ => trivial) (fun _ _ => trivial) hheld nofun (decls.count + 1) (decls.count + 1)
    (Nat.lt_succ_self _) (Nat.lt_succ_self _) (.start hhas) state state ⟨rfl, hsettled⟩
  have habove := @couples_resolveOr decls (fun _ => True) declaration [] [(member, none)]
    (fun _ => resolve) (fun _ _ => trivial) (fun _ _ => trivial) hheld hnot (decls.count + 1)
    decls.count (Nat.lt_succ_self _) (Nat.lt_succ_self _) hchain state state ⟨rfl, hsettled⟩
  have hresolve : (resolve declaration).on state =
      (resolveWithin (decls.count + 1) [] declaration).on state := by
    unfold resolve
    rw [on_bind, on_world]
    dsimp only
    rw [hsettled.1]
  rw [hresolve]
  exact ⟨halone.outcome.symm.trans habove.outcome,
    ⟨habove.alike.1.trans halone.alike.1.symm, halone.alike.1.symm ▸ halone.alike.2⟩,
    fun _ _ => trivial⟩

end Pairing

/-! ## Before a member is located -/

namespace Search

/-- The signature of a member resolved. -/
def resolveShape (search : Search) : Shape → SessionTask Shape
  | .none => return .none
  | .field signature => return .field (← search.resolveTypeSig signature)
  | .method signature => return .method (← search.resolveMethodSig signature)
  | .property signature => return .property (← search.resolvePropertySig signature)
  | .event type => return .event (← search.resolveTypeRef type)

/-- The type around a declared member and its signature, resolved: what is known before the member is
looked for. -/
def bearings (search : Search) (declaration : Declaration) : SessionTask (DefId .type × Shape) := do
  let world ← world
  match world.decls.parent? declaration with
  | some (.type owner) =>
    let owner ← search.type owner
    return (owner, ← search.resolveShape (world.decls.statement declaration).shape)
  | _ => throw (detached world declaration)

open Pairing

variable {P : Pairing} {decls : Declarations} {search search' : Search}

theorem couples_resolveShape (law : P.Linked decls) (shape : Shape)
    (h : P.CouplesAll decls search search' (declaredIn shape.targets)) :
    P.Couples (search.resolveShape shape) (search'.resolveShape shape) := by
  cases shape with
  | none => exact .pure _
  | field signature => exact (couples_resolveTypeSig law signature h).bind fun _ => .pure _
  | method signature => exact (couples_resolveMethodSig law signature h).bind fun _ => .pure _
  | property signature => exact (couples_resolvePropertySig law signature h).bind fun _ => .pure _
  | event type => exact (couples_resolveTypeRef law type h).bind fun _ => .pure _

theorem couples_bearings (law : P.Linked decls) {declaration : Declaration}
    (h : P.CouplesAll decls search search' (decls.forerunners declaration))
    (hparent : ∀ parent, decls.parent? declaration = some parent → decls.has parent = true) :
    P.Couples (search.bearings declaration) (search'.bearings declaration) := by
  obtain ⟨hscope, hsignature⟩ := couplesAll_append.mp h
  refine law.world fun world world' hlinks hdecls => ?_
  subst hdecls
  rw [hlinks.decls, hlinks.detached]
  cases howner : world.decls.parent? declaration with
  | none => exact .throw rfl (law.expected _ trivial)
  | some parent =>
      cases parent with
      | type owner =>
          have hliving := hparent _ howner
          refine (couples_type law (hscope _ (by simp [howner]) hliving)).bind fun owner => ?_
          exact (couples_resolveShape law _ hsignature).bind fun _ => .pure _
      | module | field | method | property | event => exact .throw rfl (law.expected _ trivial)

end Search

/-- What is known before a member is located is the same whether or not the member is in flight. -/
theorem on_bearings {state : SessionState} {member : Declaration}
    (hmember : member.kind.isScope = false) (hliving : state.world.decls.has member = true) :
    (Search.bearings (resolveWithin state.world.decls.count [(member, none)]) member).on state =
      (Search.bearings resolve member).on state := by
  have law : (Pairing.same state.world.decls fun _ => True).Lawful state.world.decls :=
    Pairing.lawful_same fun _ _ => trivial
  have hparent (parent : Declaration) (h : state.world.decls.parent? member = some parent) :
      state.world.decls.has parent = true := by
    cases member with
    | module | type => cases hmember
    | field | method | property | event =>
        obtain ⟨owner, howner, rfl⟩ := Option.map_eq_some_iff.mp h
        exact Declarations.has_living howner
  have hagree := Search.couples_bearings law.toLinked
    (fun declaration hfirst hhas => Pairing.couples_beneath hmember hliving hfirst hhas) hparent
    state state ⟨rfl, rfl, Source.failsAs_true _⟩
  exact Prod.ext hagree.outcome.symm hagree.alike.1

end Graft
