import Graft.Proofs.Pairing.Resolving
import Graft.Proofs.Session.Entangled
import Graft.Proofs.Source.Failing

/-!
# Circles of declarations

Declarations may refer to each other in any way, and still a resolution comes to an end: on the stack
of what is in flight nothing stands twice, so it never grows longer than there are declarations. The
depth that bounds the recursion is therefore no part of the outcome (`resolve_never_runs_out`).
A declaration that is asked for before it is located has been asked for on the way to its own scope or
signature; this happens to nested types alone, and to those only whose declaring type leads back
to them (`cyclic_only_entangled`).
-/

namespace Graft

open Relation

/-! ## One state, two searches -/

namespace Pairing

open SessionTask

variable {decls : Declarations} {expected : Error → Prop} {α : Type}

/-- Whether a session works on some declarations, with a source that fails only as expected. -/
def Settled (decls : Declarations) (expected : Error → Prop) (state : SessionState) : Prop :=
  state.world.decls = decls ∧ (state.world.source state.session.source).FailsAs expected

/-- Every state is like itself alone. -/
def same (decls : Declarations) (expected : Error → Prop) : Pairing where
  Alike left right := right = left ∧ Settled decls expected left
  Expected _ := expected

/-- What succeeds has not failed. -/
theorem expected_of_ok {value : α} {error : Error} (h : Except.ok value = .error error) :
    expected error := by
  cases h

/-- An operation comes to the same end as itself. -/
theorem couples_self {task : SessionTask α}
    (h : ∀ state, Settled decls expected state → Settled decls expected (task.on state).2 ∧
      ∀ error, (task.on state).1 = .error error → expected error) :
    (same decls expected).Couples task task := by
  rintro left right ⟨rfl, hsettled⟩
  obtain ⟨hafter, hexpected⟩ := h _ hsettled
  exact ⟨rfl, ⟨rfl, hafter⟩, hexpected⟩

theorem lawful_same (hplain : ∀ error : Error, error.Plain → expected error) :
    (same decls expected).Lawful decls where
  decls_eq _ _ halike := halike.2.1
  links left right halike := halike.1 ▸ ⟨⟨rfl, rfl⟩, rfl⟩
  expected error h _ := hplain error h
  changeDefs change := by
    refine couples_self fun state hsettled => ?_
    rw [on_changeDefs]
    exact ⟨hsettled, fun _ => expected_of_ok⟩
  log entry := by
    refine couples_self fun state hsettled => ?_
    rw [on_log]
    exact ⟨hsettled, fun _ => expected_of_ok⟩
  keepModule name module := couples_self fun state hsettled => ⟨hsettled, fun _ => expected_of_ok⟩
  module? name := by
    refine couples_self fun state hsettled => ?_
    rw [SessionTask.module?, on_bind, on_get]
    dsimp only
    cases state.session.modules.get? name with
    | some module => exact ⟨hsettled, fun _ => expected_of_ok⟩
    | none =>
        obtain ⟨defs, hkeeps⟩ := @Task.load_keeps state.session.source name state.world
        -- What a source answers instead of a module is plain, or was expected of it.
        have hfails {error : Error}
            (herror : ((Task.load state.session.source name).on state.world).1 = .error error) :
            expected error := by
          rcases Task.load_fails hsettled.2 herror with rfl | ⟨name, rfl⟩ | hexpected
          · exact hplain _ trivial
          · exact hplain _ trivial
          · exact hexpected
        rw [on_bind, on_attempt]
        cases hon : (Task.load state.session.source name).on state.world with
        | mk outcome world =>
            rw [hon] at hfails hkeeps
            dsimp only at hkeeps
            subst hkeeps
            cases outcome with
            | ok module => exact ⟨hsettled, fun _ => expected_of_ok⟩
            | error error =>
                dsimp only
                split
                · contradiction
                · exact ⟨hsettled, fun _ => expected_of_ok⟩
                · rename_i heq
                  cases heq
                  refine ⟨hsettled, fun failed hfailed => ?_⟩
                  cases hfailed
                  exact hfails rfl

end Pairing

/-! ## What is in flight -/

/-- The stack of a resolution that is asked for a declaration: different declarations that exist, and
whichever of them is not located yet has led to the declaration by way of a forerunner. -/
structure InFlight.Chain (decls : Declarations) (inFlight : InFlight) (declaration : Declaration) :
    Prop where
  distinct : (inFlight.map (·.1)).Nodup
  living : ∀ entry ∈ inFlight, decls.has entry.1 = true
  asked : decls.has declaration = true
  led : ∀ other, (other, none) ∈ inFlight →
    ∃ first ∈ decls.forerunners other, ReflTransGen decls.Asks first declaration

namespace InFlight.Chain

variable {decls : Declarations} {inFlight : InFlight} {declaration next : Declaration}

theorem start (h : decls.has declaration = true) : Chain decls [] declaration :=
  ⟨List.nodup_nil, nofun, h, nofun⟩

/-- The stack is no longer than there are declarations. -/
theorem length_le (h : Chain decls inFlight declaration) : inFlight.length ≤ decls.count := by
  have hliving : ∀ other ∈ inFlight.map (·.1), decls.has other = true := by
    intro other hmem
    obtain ⟨entry, hentry, rfl⟩ := List.mem_map.mp hmem
    exact h.living entry hentry
  simpa using Declarations.length_le_count h.distinct hliving

/-- A declaration that is not in flight may be, and then ask for others: for its forerunners as long as
it is not located, and for its followers as well when it is. -/
theorem push {found : Option Definition} (h : Chain decls inFlight declaration)
    (hnew : inFlight.lookup declaration = none) (hnext : decls.has next = true)
    (hasks : decls.Asks declaration next)
    (hlocated : found = none → next ∈ decls.forerunners declaration) :
    Chain decls ((declaration, found) :: inFlight) next := by
  refine ⟨?_, ?_, hnext, ?_⟩
  · rw [List.map_cons, List.nodup_cons]
    refine ⟨fun hmem => ?_, h.distinct⟩
    obtain ⟨entry, hentry, heq⟩ := List.mem_map.mp hmem
    have hne := List.lookup_eq_none_iff.mp hnew entry hentry
    simp [heq] at hne
  · exact List.forall_mem_cons.mpr ⟨h.asked, h.living⟩
  · intro other hmem
    rcases List.mem_cons.mp hmem with heq | htail
    · cases heq
      exact ⟨next, hlocated rfl, .refl⟩
    · obtain ⟨first, hfirst, hled⟩ := h.led other htail
      exact ⟨first, hfirst, hled.tail hasks⟩

/-- Whatever is in flight and not located when it is asked for again is an entangled type. -/
theorem entangled (h : Chain decls inFlight declaration)
    (hlookup : inFlight.lookup declaration = some none) :
    ∃ id, declaration = .type id ∧ decls.Entangled id := by
  obtain ⟨before, after, heq, -⟩ := List.lookup_eq_some_iff.mp hlookup
  obtain ⟨first, hfirst, hled⟩ := h.led declaration (by simp [heq])
  exact Declarations.entangled_of_asks hfirst hled

end InFlight.Chain

/-! ## No depth is too small -/

/-- Resolves a declaration as `resolveWithin` does, and hands over to another search as soon as no
depth is left or something is in flight twice. -/
def SessionTask.resolveOr (otherwise : InFlight → Search) : Nat → InFlight → Search
  | 0, inFlight, declaration => otherwise inFlight declaration
  | depth + 1, inFlight, declaration =>
    if (inFlight.map (·.1)).Nodup then do
      match ← remembered? declaration with
      | some definition => return definition
      | none =>
        match inFlight.lookup declaration with
        | some (some definition) => return definition
        | some none => throw (.cyclic ((← world).declSymbol declaration))
        | none =>
          let (definition, made) ← Search.locate
            (resolveOr otherwise depth ((declaration, none) :: inFlight)) declaration
          Search.reconcile
            (resolveOr otherwise depth ((declaration, some definition) :: inFlight))
            declaration definition made
          remember declaration definition
          return definition
    else otherwise inFlight declaration

namespace Pairing

open SessionTask

variable {decls : Declarations} {expected : Error → Prop} {declaration : Declaration}
  {inFlight beneath : InFlight} {otherwise : InFlight → Search}

theorem same_remembered? (declaration : Declaration) :
    (same decls expected).Couples (remembered? declaration) (remembered? declaration) := by
  refine couples_self fun state hsettled => ?_
  rw [remembered?, on_bind, on_get]
  dsimp only
  cases state.session.resolved.get? declaration with
  | none => exact ⟨hsettled, fun _ => expected_of_ok⟩
  | some definition => exact ⟨hsettled, fun _ => expected_of_ok⟩

/-- Nothing depends on the depth, on what is done when there is none left, or on what is in flight
beneath and never asked for again. -/
theorem couples_resolveOr (hacyclic : ∀ error : Error, error.Acyclic → expected error)
    (hcyclic : ∀ id, decls.Entangled id → expected (.cyclic ⟨.type, decls.typeName id⟩))
    (hheld : ∀ other, ReflTransGen decls.Asks declaration other → decls.has other = true →
      ∀ entry ∈ (decls.statement other).accessors, decls.has (.method entry.2) = true)
    (hbeneath : ∀ entry ∈ beneath, ¬ ReflTransGen decls.Asks declaration entry.1)
    {depth depth' : Nat} (hdepth : decls.count < depth + inFlight.length)
    (hdepth' : decls.count < depth' + (inFlight ++ beneath).length)
    (hchain : (inFlight ++ beneath).Chain decls declaration) :
    (same decls expected).Couples (resolveOr otherwise depth inFlight declaration)
      (resolveWithin depth' (inFlight ++ beneath) declaration) := by
  have law : (same decls expected).Lawful decls :=
    lawful_same fun error hplain => hacyclic error hplain.acyclic
  induction depth generalizing depth' inFlight declaration with
  | zero =>
      -- A stack as long as this would hold more declarations than there are.
      have := hchain.length_le
      rw [List.length_append] at this
      omega
  | succ depth ih =>
      obtain ⟨depth', rfl⟩ : ∃ depth, depth' = depth + 1 := by
        have := hchain.length_le
        exact Nat.exists_eq_succ_of_ne_zero (by omega)
      have hlookup : (inFlight ++ beneath).lookup declaration = inFlight.lookup declaration := by
        have hnone : beneath.lookup declaration = none := by
          refine List.lookup_eq_none_iff.mpr fun entry hmem => ?_
          refine bne_iff_ne.mpr ?_
          rintro rfl
          exact hbeneath entry hmem .refl
        rw [List.lookup_append, hnone, Option.or_none]
      have hpush (found : Option Definition) (next : Declaration)
          (hnew : inFlight.lookup declaration = none) (hnext : decls.has next = true)
          (hasks : decls.Asks declaration next)
          (hlocated : found = none → next ∈ decls.forerunners declaration) :
          (same decls expected).Couples
            (resolveOr otherwise depth ((declaration, found) :: inFlight) next)
            (resolveWithin depth' ((declaration, found) :: (inFlight ++ beneath)) next) := by
        refine @ih next ((declaration, found) :: inFlight)
          (fun other hled => hheld other (.head hasks hled))
          (fun entry hmem hled => hbeneath entry hmem (.head hasks hled)) depth' ?_ ?_
          (hchain.push (hlookup ▸ hnew) hnext hasks hlocated)
        · rw [List.length_cons]
          omega
        · rw [List.cons_append, List.length_cons]
          omega
      have hdistinct : (inFlight.map (·.1)).Nodup :=
        hchain.distinct.sublist ((List.sublist_append_left inFlight beneath).map _)
      rw [resolveOr, if_pos hdistinct, resolveWithin_succ, hlookup]
      refine (same_remembered? declaration).bind fun remembered => ?_
      cases remembered with
      | some definition => exact .pure _
      | none =>
          dsimp only
          cases hfound : inFlight.lookup declaration with
          | some found =>
              cases found with
              | some definition => exact .pure _
              | none =>
                  -- Both fail here, and for one reason only: the type is entangled.
                  obtain ⟨id, rfl, hentangled⟩ := hchain.entangled (hlookup.trans hfound)
                  refine law.world fun world world' hlinks hdecls => ?_
                  subst hdecls
                  exact Couples.throw (congrArg Error.cyclic (hlinks.declSymbol _))
                    fun _ => hcyclic id hentangled
          | none =>
              have hdoubts : (same decls expected).Doubts declaration :=
                fun _ error h => hacyclic error h.acyclic
              refine (Search.couples_locate law hdoubts ?_).bind fun located => ?_
              · intro next hmem hnext
                exact hpush none next hfound hnext (List.mem_append_left _ hmem) fun _ => hmem
              have hlocated (next : Declaration) (hnext : decls.has next = true)
                  (hasks : decls.Asks declaration next) :=
                hpush (some located.1) next hfound hnext hasks fun h => by cases h
              refine (Search.couples_reconcile law located.1 located.2 (fun _ => hdoubts) ?_ ?_).bind
                fun _ => ?_
              · intro entry hmem
                refine hlocated _ (hheld declaration .refl hchain.asked entry hmem) ?_
                exact List.mem_append_right _ (List.mem_append_right _ (List.mem_map_of_mem hmem))
              · intro next hmem hnext
                refine hlocated next hnext ?_
                rcases List.mem_append.mp hmem with hsignature | hfollower
                · exact List.mem_append_left _ (List.mem_append_right _ hsignature)
                · exact List.mem_append_right _ hfollower
              refine (couples_self fun state hsettled => ?_).bind fun _ => .pure _
              exact ⟨hsettled, fun _ => expected_of_ok⟩

/-- With and without a bound a session does the same for a declaration. -/
theorem couples_resolve (hacyclic : ∀ error : Error, error.Acyclic → expected error)
    (hcyclic : ∀ id, decls.Entangled id → expected (.cyclic ⟨.type, decls.typeName id⟩))
    (hheld : ∀ other, ReflTransGen decls.Asks declaration other → decls.has other = true →
      ∀ entry ∈ (decls.statement other).accessors, decls.has (.method entry.2) = true)
    {depth : Nat} (hdepth : decls.count < depth) (hhas : decls.has declaration = true) :
    (same decls expected).Couples (resolveOr otherwise depth [] declaration)
      (resolve declaration) := by
  rintro left right ⟨rfl, hsettled⟩
  unfold resolve
  rw [on_bind, on_world]
  dsimp only
  rw [hsettled.1]
  exact @couples_resolveOr _ _ _ [] [] otherwise hacyclic hcyclic hheld nofun _ _ hdepth
    (Nat.lt_succ_self _) (.start hhas) _ _ ⟨rfl, hsettled⟩

end Pairing

/-! ## What a session is asked to resolve -/

/-- What may be asked of a session by means of a search: a declaration that exists, or any reference
or signature. -/
inductive Search.Request (decls : Declarations) : {α : Type} → (Search → SessionTask α) → Prop where
  | declaration (declaration : Declaration) (h : decls.has declaration = true) :
      Request decls fun search => search declaration
  | typeRef (ref : TypeRef) : Request decls fun search => search.resolveTypeRef ref
  | typeSig (signature : TypeSig) : Request decls fun search => search.resolveTypeSig signature
  | methodSig (signature : MethodSig) : Request decls fun search => search.resolveMethodSig signature
  | fieldRef (ref : FieldRef) : Request decls fun search => search.resolveFieldRef ref
  | methodRef (ref : MethodRef) : Request decls fun search => search.resolveMethodRef ref
  | propertySig (signature : PropertySig) :
      Request decls fun search => search.resolvePropertySig signature
  | genericParam (param : GenericParam) : Request decls fun search => search.resolveGenericParam param
  | override (override : Override) : Request decls fun search => search.resolveOverride override

namespace Search.Request

open SessionTask Pairing

variable {decls : Declarations} {α : Type} {request : Search → SessionTask α}

/-- Requests come to the same end with searches that come to the same end for all that exists. -/
theorem couples {P : Pairing} {search search' : Search} (law : P.Linked decls)
    (hsearch : ∀ declaration, decls.has declaration = true →
      P.Couples (search declaration) (search' declaration)) (h : Request decls request) :
    P.Couples (request search) (request search') := by
  have hall (asked : List Declaration) : P.CouplesAll decls search search' asked :=
    fun declaration _ => hsearch declaration
  cases h with
  | declaration declaration h => exact hsearch declaration h
  | typeRef ref => exact couples_resolveTypeRef law ref (hall _)
  | typeSig signature => exact couples_resolveTypeSig law signature (hall _)
  | methodSig signature => exact couples_resolveMethodSig law signature (hall _)
  | fieldRef ref => exact couples_resolveFieldRef law ref (hall _)
  | methodRef ref => exact couples_resolveMethodRef law ref (hall _)
  | propertySig signature => exact couples_resolvePropertySig law signature (hall _)
  | genericParam param => exact couples_resolveGenericParam law param (hall _)
  | override override => exact couples_resolveOverride law override (hall _)

/-- With and without a bound a session does the same. -/
theorem couples_resolve {expected : Error → Prop} {depth : Nat} (h : Request decls request)
    (hacyclic : ∀ error : Error, error.Acyclic → expected error)
    (hcyclic : ∀ id, decls.Entangled id → expected (.cyclic ⟨.type, decls.typeName id⟩))
    (hheld : decls.HoldsAccessors) (hdepth : decls.count < depth)
    (otherwise : InFlight → Search) :
    (same decls expected).Couples (request (resolveOr otherwise depth [])) (request resolve) := by
  have law : (same decls expected).Lawful decls :=
    lawful_same fun error hplain => hacyclic error hplain.acyclic
  exact h.couples law.toLinked fun declaration hhas =>
    Pairing.couples_resolve hacyclic hcyclic
      (fun other _ hhas entry hmem => hheld other entry.1 entry.2 hhas hmem) hdepth hhas

end Search.Request

/-- A module without types, and declarations of a type whose base type is nested in it. -/
def World.knot : World :=
  { defs := (({} : Definitions).makeModule { name := "Game" }).2
    decls :=
      { modules := ⟨#[some { terms := ⟨.failIfMissing, false⟩, name := "Game", types := [⟨0⟩] }]⟩
        types := ⟨#[
          some
            { terms := ⟨.createIfMissing, false⟩
              place := .topLevel ⟨0⟩ "Core"
              name := "Clock"
              base := some (.declared ⟨1⟩)
              nested := [⟨1⟩] },
          some { terms := ⟨.createIfMissing, false⟩, place := .nested ⟨0⟩, name := "Hand" }]⟩ }
    sources := ⟨#[some (.memory ⟨[("Game", ⟨0⟩)]⟩ {})]⟩ }

/-- A resolution runs in a circle only where a nested type is asked for on the way to its declaring
type: where that type depends, in the end, on the nested one. -/
theorem cyclic_only_entangled {state : SessionState} (hheld : state.world.decls.HoldsAccessors)
    (hsource : (state.world.source state.session.source).FailsAs Error.Acyclic) {α : Type}
    {request : Search → SessionTask α} (hrequest : Search.Request state.world.decls request)
    {symbol : Symbol}
    (herror : ((request SessionTask.resolve).on state).1 = .error (.cyclic symbol)) :
    ∃ id, symbol = state.world.declSymbol (.type id) ∧ state.world.decls.Entangled id := by
  let expected (error : Error) : Prop := ∀ symbol, error = .cyclic symbol →
    ∃ id, symbol = state.world.declSymbol (.type id) ∧ state.world.decls.Entangled id
  have hacyclic (error : Error) (h : error.Acyclic) : expected error :=
    fun symbol heq => absurd heq (h symbol)
  have hcouples := hrequest.couples_resolve hacyclic
    (fun id hentangled symbol heq => ⟨id, (Error.cyclic.inj heq).symm, hentangled⟩)
    hheld (Nat.lt_succ_self _) fun _ => SessionTask.resolve
  have hsettled : Pairing.Settled state.world.decls expected state :=
    ⟨rfl, hsource.mono hacyclic⟩
  have hagree := hcouples state state ⟨rfl, hsettled⟩
  exact hagree.expected _ (hagree.outcome.trans herror) symbol rfl

/-- A nested type that is the base type of its declaring type cannot be asked for first. -/
theorem cyclic_only_entangled_knot :
    ((SessionTask.resolve (.type ⟨1⟩)).on ⟨{ source := ⟨0⟩ }, .knot⟩).1 =
        .error (.cyclic ⟨.type, "Core.Clock/Hand"⟩) ∧
      ∃ id, ⟨.type, "Core.Clock/Hand"⟩ = World.knot.declSymbol (.type id) ∧
        World.knot.decls.Entangled id := by
  have hcyclic : ((SessionTask.resolve (.type ⟨1⟩)).on ⟨{ source := ⟨0⟩ }, .knot⟩).1 =
      .error (.cyclic ⟨.type, "Core.Clock/Hand"⟩) := by
    decide +kernel
  exact ⟨hcyclic, @cyclic_only_entangled ⟨{ source := ⟨0⟩ }, .knot⟩ (by decide +kernel) trivial _ _
    (.declaration _ (by decide +kernel)) _ hcyclic⟩

end Graft
