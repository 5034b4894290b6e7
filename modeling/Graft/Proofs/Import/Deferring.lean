import Graft.Proofs.Import.History
import Mathlib.Data.Set.Card

/-!
# Deferred work is done once and in order

Whatever happens to an importer from the moment it is made, work that is deferred for a method is
done at once if the method stands for a declaration that exists, and else when the method is next
bound; it is done once, work for one method in the order in which it came, and always with the
declaration to which the method is bound then (`ImportHistory.Punctual`).
-/

namespace Graft

/-- What happened to an importer since it was made. -/
structure ImportHistory where
  /-- The world in which the importer was made. -/
  origin : World
  /-- The patch module. -/
  scope : DefId .module
  events : List ImportEvent

namespace ImportHistory

variable (history : ImportHistory)

/-- The importer. -/
def importer : ImporterId :=
  ⟨history.origin.importers.next⟩

/-- The world with the importer just made. -/
def start : World :=
  ((Task.makeImporter history.scope).on history.origin).2

/-- The world before the event with a number. -/
def world (moment : Nat) : World :=
  (history.events.take moment).foldl (fun world event => event.after history.importer world)
    history.start

/-- Whether methods are only bound to declarations that exist then. -/
def Admissible : Prop :=
  ∀ moment token declaration, history.events[moment]? = some (.bindMethod token declaration) →
    (history.world moment).decls.methods.has declaration.index = true

/-- The declaration to which an event binds a method. -/
def binds? (moment : Nat) (token : Token) : Option (DeclId .method) :=
  history.events[moment]?.bind (·.binds? token)

/-- The work that an event brings for a method. -/
def brought (moment : Nat) (token : Token) : List Continuation :=
  history.events[moment]?.elim [] fun event =>
    event.brings history.importer (history.world moment) token

/-- Whether what came for a method at one moment still waits at another: the method stood for
nothing that existed when it came, and was not bound since. -/
def Waits (came moment : Nat) (token : Token) : Prop :=
  (history.world came).livingFor? history.importer token = none ∧
    ∀ between, between < moment → came < between → history.binds? between token = none

instance (came moment : Nat) (token : Token) : Decidable (history.Waits came moment token) :=
  inferInstanceAs (Decidable (_ ∧ _))

/-- The work that waits for a method, in the order in which it came. -/
def waiting (moment : Nat) (token : Token) : List Continuation :=
  (List.range moment).flatMap fun came =>
    if history.Waits came moment token then history.brought came token else []

/-- The work that is done because of an event. -/
def turns (moment : Nat) : List Turn :=
  history.events[moment]?.elim [] fun event =>
    event.turns history.importer (history.world moment) (history.waiting moment)

/-- Whether all deferred work is done when it should be. -/
structure Punctual : Prop where
  /-- The callers that are told and the slots that are filled by an event are those of its turns,
  in their order. -/
  done : ∀ moment,
    (history.world (moment + 1)).notices =
        ((history.world moment).afterTurns (history.turns moment)).notices ∧
      (history.world (moment + 1)).slot? =
        ((history.world moment).afterTurns (history.turns moment)).slot?
  /-- Whatever came for a method was done once and in the order in which it came, but for what
  still waits. -/
  once : ∀ moment token,
    (List.range moment).flatMap (history.brought · token) =
      (((List.range moment).flatMap history.turns).filter (·.token = token)).map (·.work) ++
        history.waiting moment token
  /-- Work is done with the declaration to which its method is bound, and which exists. -/
  bound : ∀ moment, ∀ turn ∈ history.turns moment,
    (history.world (moment + 1)).livingFor? history.importer turn.token = some turn.declaration
  queued : ∀ moment token,
    (history.world moment).queue history.importer token = history.waiting moment token
  idle : ∀ moment token, (history.world moment).livingFor? history.importer token ≠ none →
    (history.world moment).queue history.importer token = []
  count : ∀ moment, ((history.world moment).importer history.importer).pendingCount =
    {token | history.waiting moment token ≠ []}.ncard

variable {history} {moment : Nat} {event : ImportEvent}

theorem world_succ (hevent : history.events[moment]? = some event) :
    history.world (moment + 1) = event.after history.importer (history.world moment) := by
  rw [world, world, List.take_add_one, hevent]
  simp

theorem world_succ_of_none (hevent : history.events[moment]? = none) :
    history.world (moment + 1) = history.world moment := by
  rw [world, world, List.take_add_one, hevent]
  simp

/-- The importer that was just made. -/
theorem importer_start : history.start.importer history.importer = { scope := history.scope } := by
  simp [start, Task.makeImporter, importer, World.importer]

theorem world_zero : history.world 0 = history.start := rfl

theorem live_start : (history.world 0).importers.has history.importer.index = true := by
  simp [world_zero, start, Task.makeImporter, importer, Table.has]

theorem queue_start (token : Token) : (history.world 0).queue history.importer token = [] := by
  rw [world_zero, World.queue, importer_start]
  rfl

theorem methodFor?_start (token : Token) :
    (history.world 0).methodFor? history.importer token = none := by
  rw [world_zero, World.methodFor?, importer_start]
  rfl

theorem slotFor?_start (token : Token) :
    (history.world 0).slotFor? history.importer token = none := by
  rw [world_zero, World.slotFor?, importer_start]
  rfl

/-! ## What waits from one moment to the next -/

theorem waits_succ {came : Nat} {token : Token} (hcame : came < moment) :
    history.Waits came (moment + 1) token ↔
      history.Waits came moment token ∧ history.binds? moment token = none := by
  constructor
  · rintro ⟨hliving, hbetween⟩
    exact ⟨⟨hliving, fun between hlt => hbetween between (by omega)⟩,
      hbetween moment (by omega) hcame⟩
  · rintro ⟨⟨hliving, hbetween⟩, hnow⟩
    refine ⟨hliving, fun between hlt hafter => ?_⟩
    rcases Nat.lt_succ_iff_lt_or_eq.mp hlt with hlt | rfl
    · exact hbetween between hlt hafter
    · exact hnow

theorem waits_self {token : Token} : history.Waits moment (moment + 1) token ↔
    (history.world moment).livingFor? history.importer token = none := by
  refine ⟨And.left, fun hliving => ⟨hliving, fun between hlt hafter => ?_⟩⟩
  omega

/-- Nothing comes for a method at the moment at which it is bound. -/
theorem brought_of_binds {token : Token} (h : (history.binds? moment token).isSome = true) :
    history.brought moment token = [] := by
  rw [binds?] at h
  rw [brought]
  cases hevent : history.events[moment]? with
  | none => rfl
  | some event =>
      rw [hevent] at h
      cases event <;> first | rfl | cases h

/-- Binding a method leaves nothing that waits for it. -/
theorem waiting_succ (token : Token) : history.waiting (moment + 1) token =
    if (history.binds? moment token).isSome then []
    else history.waiting moment token ++
      if (history.world moment).livingFor? history.importer token = none then
        history.brought moment token
      else [] := by
  rw [waiting, List.range_succ, List.flatMap_append, List.flatMap_singleton]
  simp only [waits_self]
  by_cases hbinds : (history.binds? moment token).isSome = true
  -- The event binds the method, so it comes between whatever came earlier and the next moment.
  · have hearlier : (List.range moment).flatMap (fun came =>
        if history.Waits came (moment + 1) token then history.brought came token else []) = [] := by
      refine List.flatMap_eq_nil_iff.mpr fun came hcame => if_neg fun hwaits => ?_
      rw [((waits_succ (List.mem_range.mp hcame)).mp hwaits).2] at hbinds
      cases hbinds
    rw [if_pos hbinds, hearlier, brought_of_binds hbinds, ite_self, List.append_nil]
  · have hearlier : (List.range moment).flatMap (fun came =>
        if history.Waits came (moment + 1) token then history.brought came token else []) =
          history.waiting moment token := by
      refine List.flatMap_congr fun came hcame => ?_
      simp only [waits_succ (List.mem_range.mp hcame), Option.not_isSome_iff_eq_none.mp hbinds,
        and_true]
    rw [if_neg hbinds, hearlier]

/-! ## What holds at every moment -/

/-- What is kept from one moment to the next. -/
structure Kept (history : ImportHistory) (moment : Nat) : Prop where
  live : (history.world moment).importers.has history.importer.index = true
  queued : ∀ token,
    (history.world moment).queue history.importer token = history.waiting moment token
  issued : ∀ token declaration,
    (history.world moment).methodFor? history.importer token = some declaration →
      declaration.index < (history.world moment).decls.methods.next
  idle : ∀ token, (history.world moment).livingFor? history.importer token ≠ none →
    (history.world moment).queue history.importer token = []
  tidy : ((history.world moment).importer history.importer).Tidy

theorem kept_start : history.Kept 0 where
  live := live_start
  queued := queue_start
  issued token declaration h := by
    rw [methodFor?_start] at h
    cases h
  idle token _ := queue_start token
  tidy := by
    rw [world_zero, importer_start]
    exact ⟨List.nodup_nil, fun _ _ h => by cases h⟩

/-- A method that stands for a declaration that exists did so before the event, or is bound by it.
-/
theorem living_back (h : history.Kept moment)
    (heffect : event.Effect history.importer (history.world moment) (history.world (moment + 1)))
    {token : Token} (hbinds : event.binds? token = none)
    (hliving : (history.world (moment + 1)).livingFor? history.importer token ≠ none) :
    (history.world moment).livingFor? history.importer token ≠ none := by
  obtain ⟨declaration, hfound⟩ := Option.ne_none_iff_exists'.mp hliving
  obtain ⟨hmethod, hhas⟩ := Option.filter_eq_some_iff.mp hfound
  rw [heffect.methodFor, hbinds, Option.none_or] at hmethod
  have hhas' := heffect.released declaration (h.issued token declaration hmethod) hhas
  have hfound' : (history.world moment).livingFor? history.importer token = some declaration :=
    Option.filter_eq_some_iff.mpr ⟨hmethod, hhas'⟩
  rw [hfound']
  exact Option.some_ne_none _

/-- What an event does at its moment. -/
theorem Kept.effect (h : history.Kept moment) (hevent : history.events[moment]? = some event) :
    event.Effect history.importer (history.world moment) (history.world (moment + 1)) := by
  rw [world_succ hevent]
  exact event.effect h.live

theorem Kept.succ (h : history.Kept moment) (hadmissible : history.Admissible) :
    history.Kept (moment + 1) := by
  cases hevent : history.events[moment]? with
  | none =>
      have hwaiting (token : Token) :
          history.waiting (moment + 1) token = history.waiting moment token := by
        rw [waiting_succ, binds?, brought, hevent]
        simp
      refine ⟨?_, ?_, ?_, ?_, ?_⟩ <;> rw [world_succ_of_none hevent]
      exacts [h.live, fun token => (h.queued token).trans (hwaiting token).symm, h.issued, h.idle,
        h.tidy]
  | some event =>
      have heffect := h.effect hevent
      have hbinds (token : Token) : history.binds? moment token = event.binds? token := by
        rw [binds?, hevent, Option.bind_some]
      have hbrought (token : Token) : history.brought moment token =
          event.brings history.importer (history.world moment) token := by
        rw [brought, hevent, Option.elim_some]
      refine ⟨heffect.live, fun token => ?_, fun token declaration hmethod => ?_,
        fun token hliving => ?_, heffect.tidy h.tidy⟩
      · rw [heffect.queue, waiting_succ, hbinds, hbrought, h.queued]
      · refine Nat.lt_of_lt_of_le ?_ heffect.issued
        rw [heffect.methodFor] at hmethod
        rcases Option.or_eq_some_iff.mp hmethod with hbound | ⟨-, hmethod⟩
        · cases ImportEvent.binds?_eq_some hbound
          exact Table.lt_next_of_has (hadmissible moment token declaration hevent)
        · exact h.issued token declaration hmethod
      · rw [heffect.queue]
        by_cases hbound : (event.binds? token).isSome = true
        · rw [if_pos hbound]
        -- A released declaration does not come back: its method was idle before, too.
        · rw [if_neg hbound]
          have hliving' := living_back h heffect (Option.not_isSome_iff_eq_none.mp hbound) hliving
          rw [if_neg hliving', h.idle token hliving', List.append_nil]

theorem kept (hadmissible : history.Admissible) (moment : Nat) : history.Kept moment := by
  induction moment with
  | zero => exact kept_start
  | succ moment ih => exact ih.succ hadmissible

/-! ## Punctuality -/

/-- The turns of an event are those that its effect is about. -/
theorem Kept.turns_eq (h : history.Kept moment) (hevent : history.events[moment]? = some event) :
    history.turns moment = event.turns history.importer (history.world moment)
      ((history.world moment).queue history.importer) := by
  rw [turns, hevent, Option.elim_some, ← funext h.queued]

/-- What came for a method before an event or because of it was done, is done or waits. -/
theorem Kept.conserved (h : history.Kept moment) (hsucc : history.Kept (moment + 1))
    (token : Token) :
    history.waiting moment token ++ history.brought moment token =
      ((history.turns moment).filter (·.token = token)).map (·.work) ++
        history.waiting (moment + 1) token := by
  rw [← h.queued, ← hsucc.queued]
  cases hevent : history.events[moment]? with
  | none =>
      rw [brought, turns, hevent, world_succ_of_none hevent]
      simp
  | some event =>
      rw [h.turns_eq hevent, world_succ hevent, brought, hevent, Option.elim_some]
      exact event.conserves h.live (h.idle token)

/-- Deferred work is done at once or when its method is next bound, once, in order, and with the
declaration to which the method is bound then. -/
theorem deferred_punctual (hadmissible : history.Admissible) : history.Punctual where
  done moment := by
    have h := kept hadmissible moment
    cases hevent : history.events[moment]? with
    | none =>
        rw [world_succ_of_none hevent, turns, hevent]
        exact ⟨rfl, rfl⟩
    | some event =>
        rw [h.turns_eq hevent]
        exact ⟨(h.effect hevent).notices, (h.effect hevent).slot⟩
  once moment token := by
    induction moment with
    | zero => rfl
    | succ moment ih =>
        -- By induction on the moment: each event hands over exactly what it takes out of the queue.
        have hconserved := (kept hadmissible moment).conserved (kept hadmissible (moment + 1)) token
        rw [List.range_succ, List.flatMap_append, List.flatMap_append, ih]
        simp only [List.flatMap_singleton, List.filter_append, List.map_append, List.append_assoc]
        rw [hconserved]
  bound moment turn hturn := by
    have h := kept hadmissible moment
    cases hevent : history.events[moment]? with
    | none =>
        rw [turns, hevent] at hturn
        cases hturn
    | some event =>
        rw [h.turns_eq hevent] at hturn
        refine (h.effect hevent).living_turn hturn ?_
        rintro declaration token rfl
        exact hadmissible moment token declaration hevent
  queued moment := (kept hadmissible moment).queued
  idle moment := (kept hadmissible moment).idle
  count moment := by
    have h := kept hadmissible moment
    -- Every queue in the table has something in it, so the tokens that wait are its keys.
    have hwaiting : {token | history.waiting moment token ≠ []} =
        (((history.world moment).importer history.importer).pending.entries.map
          Prod.fst).toFinset := by
      ext token
      rw [List.coe_toFinset, Set.mem_ofPred_eq, Set.mem_ofPred_eq, ← h.queued]
      exact h.tidy.mem_keys_iff.symm
    rw [hwaiting, Set.ncard_coe_finset, List.toFinset_card_of_nodup h.tidy.distinct,
      List.length_map]
    rfl

/-- A method that is asked for, declared, bound and asked for again. -/
def callbacks : ImportHistory where
  origin := { decls := (Declarations.makeType {}
    { terms := ⟨.failIfMissing, false⟩, place := .topLevel ⟨0⟩ "N", name := "C" }).2 }
  scope := ⟨0⟩
  events := [
    .defer ⟨0x06000001⟩ "first",
    .declareMethod ⟨0⟩ "M" default .failIfMissing,
    .bindMethod ⟨0x06000001⟩ ⟨0⟩,
    .defer ⟨0x06000001⟩ "second"]

theorem callbacks_punctual : callbacks.Admissible ∧ callbacks.Punctual ∧
    (callbacks.world 4).notices.map Prod.fst = #["first", "second"] := by
  have hadmissible : callbacks.Admissible := by
    rintro (_ | _ | _ | _ | moment) token declaration hevent <;> cases hevent
    rfl
  exact ⟨hadmissible, deferred_punctual hadmissible, by decide +kernel⟩

end ImportHistory

end Graft
