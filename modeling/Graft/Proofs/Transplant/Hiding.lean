import Graft.Proofs.Transplant.Stacking

/-!
# The names of hidden methods

A hidden method is named after the method whose body it holds, with the least number that makes the
name an unused one. Numbers are written differently, so of one number more than a type has methods
one gives an unused name (`exists_leastUnused`): the search comes to an end, however many numbers it
may try, and making a hidden method never fails for want of a name. Each hidden method is listed
after methods with other names, now and ever after, so no two of a type have the same name.
-/

namespace Graft

/-! ## The search for a name -/

/-- Whether an index is the least one that makes an unused name of a stem. There are no more names
before it than there are taken ones. -/
structure LeastUnused (stem : String) (taken : List String) (index : Nat) : Prop where
  unused : stem ++ toString index ∉ taken
  least : ∀ smaller < index, stem ++ toString smaller ∈ taken
  within : index ≤ taken.length

section Search

variable {stem : String} {taken : List String} {index : Nat}

/-- Names of one stem with different numbers are different. -/
theorem append_toString_injective (stem : String) :
    Function.Injective fun index : Nat => stem ++ toString index := by
  intro index other heq
  exact Nat.repr_inj.mp ((String.append_right_inj stem).mp heq)

/-- Not all of more names than are taken are taken. -/
theorem exists_unused (stem : String) (taken : List String) :
    ∃ index ≤ taken.length, stem ++ toString index ∉ taken := by
  by_contra! htaken
  let candidates := (List.range (taken.length + 1)).map fun index => stem ++ toString index
  have hnodup : candidates.Nodup := List.nodup_range.map (append_toString_injective stem)
  have hsubset : candidates ⊆ taken := by
    intro candidate hmem
    obtain ⟨index, hindex, rfl⟩ := List.mem_map.mp hmem
    exact htaken index (by simpa [Nat.lt_succ_iff] using hindex)
  have hlength := (hnodup.subperm hsubset).length_le
  simp [candidates] at hlength

theorem exists_leastUnused (stem : String) (taken : List String) :
    ∃ index, LeastUnused stem taken index := by
  have hexists : ∃ index : Nat, stem ++ toString index ∉ taken := by
    obtain ⟨index, -, hunused⟩ := exists_unused stem taken
    exact ⟨index, hunused⟩
  refine ⟨Nat.find hexists, Nat.find_spec hexists, fun smaller hlt => ?_, ?_⟩
  · exact not_not.mp (Nat.find_min hexists hlt)
  · obtain ⟨index, hwithin, hunused⟩ := exists_unused stem taken
    exact (Nat.find_min' hexists hunused).trans hwithin

/-- The search goes past taken names to the least unused one, if it tries that one. -/
theorem LeastUnused.firstUnusedName_eq (h : LeastUnused stem taken index) {start tries : Nat}
    (hstart : start ≤ index) : firstUnusedName stem taken tries start =
      if index < start + tries then some (stem ++ toString index) else none := by
  induction tries generalizing start with
  | zero => simp [firstUnusedName, hstart]
  | succ tries ih =>
      have hnext : firstUnusedName stem taken (tries + 1) start =
          if stem ++ toString start ∈ taken then firstUnusedName stem taken tries (start + 1)
          else some (stem ++ toString start) := by
        simp [firstUnusedName]
      rcases Nat.lt_or_eq_of_le hstart with hlt | rfl
      · have hsum : start + (tries + 1) = start + 1 + tries := by omega
        rw [hnext, if_pos (h.least start hlt), ih hlt, hsum]
      · rw [hnext, if_neg h.unused, if_pos (by omega)]

theorem LeastUnused.hiddenName_eq (h : LeastUnused stem taken index) :
    hiddenName stem taken = .ok (stem ++ toString index) := by
  rw [hiddenName, h.firstUnusedName_eq (Nat.zero_le index), if_pos (by have := h.within; omega)]

end Search

/-! ## The first call to a base body -/

/-- The names of the methods that a type lists. -/
def Definitions.methodNames (defs : Definitions) (type : DefId .type) : List String :=
  (defs.type type).methods.map fun id => (defs.method id).name

namespace TransplantContext

/-- The stem of the name of the hidden method. -/
def stem (context : TransplantContext) (state : SessionState) : String :=
  (state.world.defs.method context.method).name ++ context.suffix

/-- The hidden method that is made in a type, and the state in which there is one. -/
def hide (context : TransplantContext) (state : SessionState) (owner : DefId .type)
    (index : Nat) : DefId .method × SessionState :=
  let (hidden, defs) := state.world.defs.addMethod owner
    (context.hiddenMethod (state.world.defs.method context.method)
      (context.stem state ++ toString index))
  let world := { state.world with defs }
  let entry := .baseSynthesized (world.methodName hidden) (world.methodName context.method)
  (hidden, { state with world := { world with log := world.log.push entry } })

/-- What a call to the base body comes to: the hidden method that there is, or else one that is made
in the type of the method, with the least number that gives it an unused name. It fails only if the
method belongs to no type that exists. -/
def Answers (context : TransplantContext) (state : SessionState) : Prop :=
  let called := (TransplantTask.baseMethod.run context).on state
  match context.hidden with
  | some hidden => called = (.ok (hidden, context), state)
  | none =>
    match state.world.defs.living? (state.world.defs.method context.method).owner with
    | none =>
      called = (.error (.unresolved (.unattached (state.world.methodName context.method))), state)
    | some owner =>
      ∃ index, LeastUnused (context.stem state) (state.world.defs.methodNames owner) index ∧
        called =
          let (hidden, state) := context.hide state owner index
          (.ok (hidden, { context with hidden := some hidden }), state)

theorem answers (context : TransplantContext) (state : SessionState) : context.Answers state := by
  unfold Answers
  cases hhidden : context.hidden with
  | some hidden => simp [TransplantTask.baseMethod, hhidden]
  | none =>
      cases howner : state.world.defs.living? (state.world.defs.method context.method).owner with
      | none => simp [TransplantTask.baseMethod, hhidden, howner, SessionTask.on_bind]
      | some owner =>
          obtain ⟨index, hleast⟩ :=
            exists_leastUnused (context.stem state) (state.world.defs.methodNames owner)
          have hname : hiddenName ((state.world.defs.method context.method).name ++ context.suffix)
              ((state.world.defs.type owner).methods.map
                fun id => (state.world.defs.method id).name) =
                .ok (context.stem state ++ toString index) := hleast.hiddenName_eq
          refine ⟨index, hleast, ?_⟩
          simp [TransplantTask.baseMethod, hhidden, howner, hname, SessionTask.on_bind,
            hide, hiddenMethod, ofExcept]
          rfl

/-- What is made on the first call is new, and listed after methods with other names. -/
theorem namedApart_hide {context : TransplantContext} {state : SessionState}
    {owner : DefId .type} {index : Nat} (hheld : state.world.defs.Held)
    (howner : state.world.defs.has (.type owner) = true)
    (hleast : LeastUnused (context.stem state) (state.world.defs.methodNames owner) index) :
    let (hidden, after) := context.hide state owner index
    state.world.defs.has (.method hidden) = false ∧
      state.world.defs.Grows after.world.defs ∧ after.world.defs.Held ∧
      after.world.defs.NamedApart owner hidden := by
  obtain ⟨token, hadds⟩ := Definitions.addMethod_adds howner
  have hunused : ∀ other ∈ state.world.defs.members (.type owner) .method, ∀ sibling,
      state.world.defs.record? other = some sibling →
        sibling.nature.name ≠ context.stem state ++ toString index := by
    intro other hother sibling hsibling heq
    obtain ⟨method, hmem, rfl⟩ := List.mem_map.mp hother
    rw [Definitions.record?_method (hheld _ _ _ hother)] at hsibling
    cases hsibling
    exact hleast.unused (List.mem_map.mpr ⟨method, hmem, heq⟩)
  exact ⟨Definitions.not_has_iff.mpr (Definitions.record?_eq_none_of_fresh hadds.fresh),
    hadds.grows, hadds.held rfl hheld, Moment.namedApart_of_adds hheld howner hadds rfl hunused⟩

end TransplantContext

/-! ## One hidden method after another -/

/-- The hidden methods made so far, the last one first, and the state that there is then. They come
of transplants and of first calls to base bodies; in between, requests are made to the session, and
anything else happens that leaves what there is in place. A transplant that fails after it has made
one is such a call, with other things before and after it. -/
inductive Hiding : List (DefId .method) → SessionState → Prop where
  | start {state : SessionState} (hsound : Moment.Sound { state }) : Hiding [] state
  | meanwhile {made : List (DefId .method)} {state state' : SessionState}
      (hhiding : Hiding made state) (hgrows : state.world.defs.Grows state'.world.defs)
      (hsound : Moment.Sound { state := state' }) : Hiding made state'
  | request {made : List (DefId .method)} {state : SessionState} (call : SessionCall)
      (hhiding : Hiding made state) : Hiding made (call.perform.on state).2
  | transplant {made : List (DefId .method)} {state state' : SessionState} {id : DeclId .method}
      {suffix : String} {hidden : DefId .method} (hhiding : Hiding made state)
      (htransplant : (SessionTask.transplant id suffix).on state = (.ok (some hidden), state')) :
      Hiding (hidden :: made) state'
  | base {made : List (DefId .method)} {state state' : SessionState}
      {context context' : TransplantContext} {hidden : DefId .method} (hhiding : Hiding made state)
      (hnone : context.hidden = none)
      (hbase : (TransplantTask.baseMethod.run context).on state = (.ok (hidden, context'), state')) :
      Hiding (hidden :: made) state'

/-- What holds of the hidden methods made so far. -/
structure Hidden (made : List (DefId .method)) (state : SessionState) : Prop where
  sound : Moment.Sound { state }
  apart : ∀ hidden ∈ made, ∃ owner, state.world.defs.NamedApart owner hidden
  distinct : made.Nodup

namespace Hidden

variable {made : List (DefId .method)} {state state' : SessionState} {hidden : DefId .method}

theorem keep (h : Hidden made state) (hgrows : state.world.defs.Grows state'.world.defs)
    (hsound : Moment.Sound { state := state' }) : Hidden made state' where
  sound := hsound
  apart hidden hmem := by
    obtain ⟨owner, hapart⟩ := h.apart hidden hmem
    exact ⟨owner, hapart.mono h.sound.held hgrows⟩
  distinct := h.distinct

/-- A new method is not among those made before. -/
theorem push (h : Hidden made state) (hgrows : state.world.defs.Grows state'.world.defs)
    (hsound : Moment.Sound { state := state' })
    (hnew : state.world.defs.has (.method hidden) = false)
    (hapart : ∃ owner, state'.world.defs.NamedApart owner hidden) :
    Hidden (hidden :: made) state' := by
  have hkeep := h.keep hgrows hsound
  refine ⟨hsound, ?_, List.nodup_cons.mpr ⟨fun hmem => ?_, h.distinct⟩⟩
  · rintro other (_ | ⟨_, hmem⟩)
    · exact hapart
    · exact hkeep.apart other hmem
  · obtain ⟨owner, record, -, -, hrecord, -⟩ := h.apart hidden hmem
    simp [Definitions.has_iff.mpr ⟨record, hrecord⟩] at hnew

/-- Hidden methods of one type have different names. -/
theorem pairwise (h : Hidden made state) : made.Pairwise fun hidden other => hidden ≠ other ∧
    ((state.world.defs.method hidden).owner = (state.world.defs.method other).owner →
      (state.world.defs.method hidden).name ≠ (state.world.defs.method other).name) := by
  have howner {owner : DefId .type} {hidden : DefId .method}
      (hapart : state.world.defs.NamedApart owner hidden) :
      (state.world.defs.method hidden).owner = some owner := by
    obtain ⟨record, -, -, hrecord, howner, -⟩ := hapart
    cases (Definitions.record?_method (Definitions.has_iff.mpr ⟨_, hrecord⟩)).symm.trans hrecord
    exact howner
  refine h.distinct.imp_of_mem fun hmem hmem' hne => ⟨hne, fun hsame => ?_⟩
  obtain ⟨owner, hapart⟩ := h.apart _ hmem
  obtain ⟨owner', hapart'⟩ := h.apart _ hmem'
  obtain rfl : owner = owner' := by
    rw [howner hapart, howner hapart'] at hsame
    exact Option.some.inj hsame
  exact hapart.name_ne hapart' hne

end Hidden

/-- The first call to a base body makes one hidden method more. -/
theorem Hidden.base {made : List (DefId .method)} {state state' : SessionState}
    {context context' : TransplantContext} {hidden : DefId .method} (h : Hidden made state)
    (hnone : context.hidden = none)
    (hbase : (TransplantTask.baseMethod.run context).on state = (.ok (hidden, context'), state')) :
    Hidden (hidden :: made) state' := by
  have hon := context.answers state
  simp only [TransplantContext.Answers, hnone] at hon
  cases howner : state.world.defs.living? (state.world.defs.method context.method).owner with
  | none =>
      rw [howner, hbase] at hon
      cases hon
  | some owner =>
      rw [howner] at hon
      obtain ⟨index, hleast, hon⟩ := hon
      cases hbase.symm.trans hon
      rw [Definitions.living?, Option.filter_eq_some_iff] at howner
      obtain ⟨hnew, hgrows, hheld, hapart⟩ :=
        TransplantContext.namedApart_hide h.sound.held howner.2 hleast
      have hsound := h.sound.withDefs hgrows hheld
      exact h.push hgrows { hsound with } hnew ⟨owner, hapart⟩

/-- Whatever happens, hidden methods of one type have different names. -/
theorem Hiding.hidden {made : List (DefId .method)} {state : SessionState}
    (hhiding : Hiding made state) : Hidden made state := by
  induction hhiding with
  | start hsound => exact ⟨hsound, by simp, List.nodup_nil⟩
  | meanwhile hhiding hgrows hsound ih => exact ih.keep hgrows hsound
  | @request made state call hhiding ih =>
      have hreaches := World.reaches_all state.world [call]
      obtain ⟨next, hstate, -, hrun⟩ :=
        Moment.perform_run ih.sound rfl hreaches (List.mem_singleton_self call)
      rw [← hstate]
      exact ih.keep (hrun.later ih.sound).grows (hrun.sound ih.sound).plain
  | @transplant made state state' id suffix hidden hhiding htransplant ih =>
      have hcases := Layer.transplant_cases ih.sound id suffix
      rw [htransplant] at hcases
      rcases hcases with ⟨-, -, -, hnone⟩ | ⟨graft, found, method, hfound, -, hgrafts⟩
      · simp [SessionTask.transplant, SessionTask.on_bind, hnone _ rfl] at htransplant
      · cases hfound
        obtain ⟨hnew, hapart⟩ := hgrafts.apart hidden rfl
        exact ih.push hgrafts.grows hgrafts.sound hnew hapart
  | base hhiding hnone hbase ih => exact ih.base hnone hbase

/-- The names of hidden methods. The search for one stops at the least number that gives an unused
name, before it has tried more than one number more than there are names, whatever its own limit; so
a call to a base body fails for no other reason than that its method belongs to no type, and the
hidden method that it makes has that name. However many hidden methods are made in one type, for
whatever method and by whatever transplant, all have different names. -/
theorem hidden_methods_named :
    (∀ stem taken, ∃ index, LeastUnused stem taken index ∧ ∀ tries,
      firstUnusedName stem taken tries 0 =
        if index < tries then some (stem ++ toString index) else none) ∧
      (∀ (context : TransplantContext) state, context.Answers state) ∧
      ∀ made state, Hiding made state → made.Pairwise fun hidden other => hidden ≠ other ∧
        ((state.world.defs.method hidden).owner = (state.world.defs.method other).owner →
          (state.world.defs.method hidden).name ≠ (state.world.defs.method other).name) := by
  refine ⟨fun stem taken => ?_, TransplantContext.answers, fun made state hhiding =>
    hhiding.hidden.pairwise⟩
  obtain ⟨index, hleast⟩ := exists_leastUnused stem taken
  exact ⟨index, hleast, fun tries => by simp [hleast.firstUnusedName_eq (Nat.zero_le index)]⟩

theorem hidden_methods_named_clock :
    let state := Layer.second.after
    Hiding [⟨2⟩, ⟨1⟩] state ∧
      (state.world.defs.method ⟨2⟩).owner = (state.world.defs.method ⟨1⟩).owner ∧
      (state.world.defs.method ⟨2⟩).name ≠ (state.world.defs.method ⟨1⟩).name := by
  have hfirst : Layer.first.Onto ⟨0⟩ := Layer.onto_tick rfl (by decide +kernel) (by decide +kernel)
  have hsecond : Layer.second.Onto ⟨0⟩ :=
    Layer.onto_tick (by cbv) (by decide +kernel) (by decide +kernel)
  have hhiding : Hiding [⟨2⟩, ⟨1⟩] Layer.second.after :=
    .transplant (.transplant (.start (World.sound_clock _)) hfirst.succeeded) hsecond.succeeded
  obtain ⟨-, -, hnamed⟩ := hidden_methods_named
  have hsame : (Layer.second.after.world.defs.method ⟨2⟩).owner =
      (Layer.second.after.world.defs.method ⟨1⟩).owner := by decide +kernel
  have hdifferent := List.rel_of_pairwise_cons (hnamed _ _ hhiding) (List.mem_singleton_self _)
  exact ⟨hhiding, hsame, hdifferent.2 hsame⟩

end Graft
