import Graft.Proofs.Pairing.Circles

/-!
# Which declaration a failure is about

A failure that disputes what a symbol stands for is about the declaration that is located or
reconciled just then, and a declaration that is in flight is neither located nor reconciled again. So
while a declaration is in flight no failure of a search is about it (`couples_blaming`).
-/

namespace Graft

open SessionTask

/-- Whether what an error disputes is the symbol of another declaration than this one, as it is named
in a state. -/
def SessionState.BlamesOthers (state : SessionState) (declaration : Declaration) (error : Error) :
    Prop :=
  ∀ symbol, error.Disputes symbol →
    ∃ other, other ≠ declaration ∧ symbol = state.world.declSymbol other

theorem Error.Plain.blamesOthers {error : Error} (h : error.Plain) (state : SessionState)
    (declaration : Declaration) : state.BlamesOthers declaration error :=
  fun _ hdisputes => absurd hdisputes h.not_disputes

namespace Pairing

variable {P : Pairing} {decls : Declarations} {declaration blamed : Declaration} {depth : Nat}
  {inFlight : InFlight} {expected : SessionState → Error → Prop} {α : Type}

/-! ## Beside what is in flight -/

/-- What is in flight is neither located nor reconciled nor remembered once more. So whatever is resolved
beside it comes to the same end as itself, if all else that may be done then does: by induction on the
depth, since what comes on top leaves the declaration in flight. -/
theorem couples_beside {aloft : Declaration} (law : P.Lawful decls)
    (hcyclic : ∀ symbol state, P.Expected state (.cyclic symbol))
    (hremembered : ∀ other, P.Couples (remembered? other) (remembered? other))
    (hremember : ∀ other definition, other ≠ aloft →
      P.Couples (remember other definition) (remember other definition))
    (hdoubts : ∀ other, other ≠ aloft → P.Doubts other)
    (haloft : inFlight.lookup aloft ≠ none) :
    P.Couples (resolveWithin depth inFlight declaration)
      (resolveWithin depth inFlight declaration) := by
  have hrefused (declaration : Declaration) : P.Couples
      (do throw (.cyclic ((← SessionTask.world).declSymbol declaration)) : SessionTask Definition)
      (do throw (.cyclic ((← SessionTask.world).declSymbol declaration))) :=
    law.world fun world world' hlinks _ =>
      .throw (congrArg Error.cyclic (hlinks.declSymbol _)) (hcyclic _)
  induction depth generalizing inFlight declaration with
  | zero => exact hrefused declaration
  | succ depth ih =>
      rw [resolveWithin_succ]
      refine (hremembered declaration).bind fun remembered => ?_
      cases remembered with
      | some definition => exact .pure _
      | none =>
          dsimp only
          cases hlookup : inFlight.lookup declaration with
          | some found =>
              cases found with
              | some definition => exact .pure _
              | none => exact hrefused declaration
          | none =>
              have hne : declaration ≠ aloft := by
                rintro rfl
                exact haloft hlookup
              have hpush (found : Option Definition) (next : Declaration) :
                  P.Couples (resolveWithin depth ((declaration, found) :: inFlight) next)
                    (resolveWithin depth ((declaration, found) :: inFlight) next) := by
                refine ih ?_
                rwa [List.lookup_cons, beq_false_of_ne hne.symm]
              refine (Search.couples_locate law (hdoubts _ hne) fun next _ _ => hpush none next).bind
                fun located => ?_
              refine (Search.couples_reconcile law located.1 located.2 (fun _ => hdoubts _ hne)
                (fun entry _ => hpush _ _) fun next _ _ => hpush _ next).bind fun _ => ?_
              exact (hremember _ _ hne).bind fun _ => .pure _

/-! ## Other failures are expected -/

/-- The same states are alike, and other failures are expected. -/
def expecting (P : Pairing) (expected : SessionState → Error → Prop) : Pairing :=
  { P with Expected := expected }

theorem Couples.expecting {task task' : SessionTask α} (h : P.Couples task task')
    (himp : ∀ state error, P.Expected state error → expected state error) :
    (P.expecting expected).Couples task task' := by
  intro left right halike
  have hagree := h left right halike
  exact ⟨hagree.outcome, hagree.alike, fun error herror => himp _ _ (hagree.expected error herror)⟩

theorem Lawful.expecting (law : P.Lawful decls)
    (himp : ∀ state error, P.Expected state error → expected state error) :
    (P.expecting expected).Lawful decls where
  decls_eq := law.decls_eq
  links := law.links
  expected error h state := himp state error (law.expected error h state)
  changeDefs change := (law.changeDefs change).expecting himp
  log entry := (law.log entry).expecting himp
  module? name := (law.module? name).expecting himp
  keepModule name module := (law.keepModule name module).expecting himp

/-! ## Failures about other declarations -/

/-- Every state is like itself alone, and failures are about other declarations. -/
def blaming (decls : Declarations) (blamed : Declaration) : Pairing :=
  (same decls Error.Plain).expecting fun state => state.BlamesOthers blamed

/-- What comes to the same end as itself and fails plainly at most blames nothing. -/
theorem Couples.blaming {task task' : SessionTask α}
    (h : (same decls Error.Plain).Couples task task') : (blaming decls blamed).Couples task task' :=
  h.expecting fun state _ hplain => hplain.blamesOthers state blamed

theorem lawful_blaming : (blaming decls blamed).Lawful decls :=
  (lawful_same fun _ h => h).expecting fun state _ hplain => hplain.blamesOthers state blamed

theorem Disputes.eq {error : Error} {symbol symbol' : Symbol} (h : error.Disputes symbol)
    (h' : error.Disputes symbol') : symbol' = symbol := by
  rcases h with rfl | ⟨mismatch, rfl⟩ <;> rcases h' with h' | ⟨mismatch', h'⟩ <;> cases h' <;> rfl

theorem doubts_blaming (hne : declaration ≠ blamed) :
    (blaming decls blamed).Doubts declaration :=
  fun _ _ hdisputes _ hdisputes' => ⟨declaration, hne, Disputes.eq hdisputes hdisputes'⟩

/-- While a declaration is in flight, whatever is resolved does not fail with a complaint about it. -/
theorem couples_blaming (hblamed : inFlight.lookup blamed ≠ none) :
    (blaming decls blamed).Couples (resolveWithin depth inFlight declaration)
      (resolveWithin depth inFlight declaration) := by
  refine couples_beside lawful_blaming (fun symbol _ _ hdisputes => ?_)
    (fun other => (same_remembered? other).blaming) (fun other definition _ => ?_)
    (fun _ => doubts_blaming) hblamed
  · exact absurd rfl (hdisputes.acyclic symbol)
  · have hremember : (same decls Error.Plain).Couples (remember other definition)
        (remember other definition) :=
      couples_self fun state hsettled => ⟨hsettled, fun _ => expected_of_ok⟩
    exact hremember.blaming

end Pairing

end Graft
