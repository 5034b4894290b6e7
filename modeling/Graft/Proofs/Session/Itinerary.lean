import Graft.Install
import Graft.Proofs.Session.Asking

/-!
# The order in which declarations are resolved

In which order a session comes to remember declarations is decided by the declarations alone
(`Declarations.route`). A resolution that succeeds takes this route (`route_of_resolveWithin`), and
one whose route leads somewhere does not run in a circle (`heads_resolveWithin`). So what has
succeeded once runs in no circle when it is tried again (`Visits.again`).
-/

namespace Graft

namespace Declarations

/-- The declarations that are remembered after one of them has been asked for, latest first, or
nothing if that runs in a circle. The stack tells of those that are being resolved whether they have
been located. -/
def route (decls : Declarations) :
    Nat → List (Declaration × Bool) → List Declaration → Declaration → Option (List Declaration)
  | 0, _, _, _ => none
  | depth + 1, stack, known, declaration =>
    if declaration ∈ known then some known
    else
      match stack.lookup declaration with
      | some true => some known
      | some false => none
      | none => do
        let known ← (decls.forerunners declaration).foldlM
          (decls.route depth ((declaration, false) :: stack)) known
        let known ← (decls.followers declaration).foldlM
          (decls.route depth ((declaration, true) :: stack)) known
        return declaration :: known

variable {decls : Declarations} {depth : Nat} {stack : List (Declaration × Bool)}
  {known known' : List Declaration} {declaration other : Declaration}

section Route

variable {decls : Declarations} {depth : Nat} {stack : List (Declaration × Bool)}
  {items known known' : List Declaration} {declaration other : Declaration}

/-- What is known stays known on a part of a route, if that is so for each of its stages. -/
theorem subset_fold {stage : List Declaration → Declaration → Option (List Declaration)}
    (hstage : ∀ item known known', stage known item = some known' → known ⊆ known')
    (h : items.foldlM stage known = some known') : known ⊆ known' := by
  induction items generalizing known with
  | nil =>
      cases h
      exact List.Subset.refl _
  | cons item items ih =>
      rw [List.foldlM_cons] at h
      obtain ⟨middle, hfirst, hrest⟩ := Option.bind_eq_some_iff.mp h
      exact List.Subset.trans (hstage item known middle hfirst) (ih hrest)

/-- What is known stays known on a route. -/
theorem subset_route (h : decls.route depth stack known declaration = some known') :
    known ⊆ known' := by
  induction depth generalizing stack known known' declaration with
  | zero => cases h
  | succ depth ih =>
      rw [route] at h
      split at h
      · cases h
        exact List.Subset.refl _
      · split at h
        · cases h
          exact List.Subset.refl _
        · cases h
        · obtain ⟨middle, hfirst, hrest⟩ := Option.bind_eq_some_iff.mp h
          obtain ⟨last, hsecond, hlast⟩ := Option.bind_eq_some_iff.mp hrest
          cases hlast
          have hbefore := subset_fold (fun _ _ _ => ih) hfirst
          have hafter := subset_fold (fun _ _ _ => ih) hsecond
          exact List.Subset.trans (List.Subset.trans hbefore hafter) (List.subset_cons_self _ _)

/-- Whoever is on the route is known afterwards, unless it has been located and is not finished. -/
theorem mem_of_route (h : decls.route depth stack known declaration = some known') :
    declaration ∈ known' ∨ stack.lookup declaration = some true := by
  cases depth with
  | zero => cases h
  | succ depth =>
      rw [route] at h
      split at h
      · cases h
        exact .inl ‹_›
      · split at h
        · exact .inr ‹_›
        · cases h
        · obtain ⟨middle, -, hrest⟩ := Option.bind_eq_some_iff.mp h
          obtain ⟨last, -, hlast⟩ := Option.bind_eq_some_iff.mp hrest
          cases hlast
          exact .inl List.mem_cons_self

/-- What was asked for before a declaration was located can be asked for again afterwards. -/
theorem fold_again (h : items.foldlM (decls.route depth ((declaration, false) :: stack)) known =
      some known') {again : List Declaration} (hagain : again ⊆ items) :
    again.foldlM (decls.route depth ((declaration, true) :: stack)) known' = some known' := by
  have hstage (item : Declaration) (hmem : item ∈ items) :
      decls.route depth ((declaration, true) :: stack) known' item = some known' := by
    -- The stage of the item has come to an end, and the stages after it forget nothing.
    obtain ⟨front, rest, rfl⟩ := List.append_of_mem hmem
    rw [List.foldlM_append] at h
    obtain ⟨middle, -, h⟩ := Option.bind_eq_some_iff.mp h
    rw [List.foldlM_cons] at h
    obtain ⟨after, hitem, hrest⟩ := Option.bind_eq_some_iff.mp h
    cases depth with
    | zero => cases hitem
    | succ depth =>
        rw [route]
        obtain hknown | hlookup := mem_of_route hitem
        · rw [if_pos (subset_fold (fun _ _ _ => subset_route) hrest hknown)]
        · rw [List.lookup_cons] at hlookup ⊢
          split at hlookup
          · cases hlookup
          · split
            · rfl
            · simp [*]
  induction again with
  | nil => rfl
  | cons item again ih =>
      obtain ⟨hmem, hagain⟩ := List.cons_subset.mp hagain
      rw [List.foldlM_cons, hstage item hmem]
      exact ih hagain

/-- So can the signature of a definition that was there before. -/
theorem fold_signature (made : Bool)
    (h : (decls.forerunners declaration).foldlM
      (decls.route depth ((declaration, false) :: stack)) known = some known') :
    (if made then [] else declaredIn (decls.statement declaration).shape.targets).foldlM
      (decls.route depth ((declaration, true) :: stack)) known' = some known' := by
  refine fold_again h fun other hmem => ?_
  cases made with
  | true => cases hmem
  | false => exact List.mem_append_right _ hmem

end Route

end Declarations

/-! ## Resolving -/

/-- What is located is of the kind of its declaration. -/
theorem Search.kind_locate {search : Search} {declaration : Declaration} {found : Definition}
    {made : Bool} {state after : SessionState}
    (hon : (search.locate declaration).on state = (.ok (found, made), after)) :
    found.kind = declaration.kind := by
  cases declaration <;>
    · obtain ⟨_, _, -, hvalue⟩ := SessionTask.on_bind_ok.mp hon
      cases hvalue
      rfl

namespace SessionTask

variable {decls : Declarations} {known known' : List Declaration} {depth : Nat} {inFlight : InFlight}
  {declaration : Declaration} {state after : SessionState}

/-- The declarations that are being resolved, each with a mark that tells whether it has been
located. -/
def marks (inFlight : InFlight) : List (Declaration × Bool) :=
  inFlight.map fun entry => (entry.1, entry.2.isSome)

theorem lookup_marks : (marks inFlight).lookup declaration =
    (inFlight.lookup declaration).map Option.isSome := by
  induction inFlight with
  | nil => rfl
  | cons entry rest ih =>
      obtain ⟨other, found⟩ := entry
      simp only [marks, List.map_cons, List.lookup_cons] at ih ⊢
      cases declaration == other with
      | true => rfl
      | false => exact ih

/-- Looking a declaration up in the memo. -/
theorem on_remembered? (declaration : Declaration) (hstate : state.Recalls decls known) :
    ∃ next : SessionState, (remembered? declaration).on state =
      (.ok (state.session.resolved.get? declaration), next) ∧ next.Recalls decls known := by
  rw [remembered?, on_bind, on_get]
  dsimp only
  cases hmemo : state.session.resolved.get? declaration with
  | none => exact ⟨state, rfl, hstate⟩
  | some definition => exact ⟨_, rfl, hstate.decls, hstate.known, hstate.memory⟩

theorem recalls_remember {definition : Definition} (hstate : state.Recalls decls known)
    {next : SessionState} (hon : (remember declaration definition).on state = (.ok (), next)) :
    next.Recalls decls (declaration :: known) := by
  cases hon
  refine ⟨hstate.decls, fun other => ?_, hstate.memory⟩
  rw [List.mem_cons, Dictionary.get?_insert, hstate.known]
  split
  · simp [*]
  · simp [Ne.symm ‹_›]

/-- What is neither remembered nor being resolved is located, reconciled and remembered. -/
def resolveAnew (depth : Nat) (inFlight : InFlight) : Search := fun declaration => do
  let (definition, made) ←
    Search.locate (resolveWithin depth ((declaration, none) :: inFlight)) declaration
  Search.reconcile (resolveWithin depth ((declaration, some definition) :: inFlight))
    declaration definition made
  remember declaration definition
  return definition

/-- Resolving a declaration, by cases on what is known about it. -/
theorem resolveWithin_succ : resolveWithin (depth + 1) inFlight declaration = (do
    match ← remembered? declaration with
    | some definition => return definition
    | none =>
      match inFlight.lookup declaration with
      | some (some definition) => return definition
      | some none => throw (.cyclic ((← SessionTask.world).declSymbol declaration))
      | none => resolveAnew depth inFlight declaration) := by
  unfold resolveWithin
  refine bind_congr fun found => ?_
  cases found with
  | some definition => rfl
  | none =>
      cases inFlight.lookup declaration with
      | none => rfl
      | some found => cases found <;> rfl

/-- A resolution that succeeds has taken its route. -/
theorem route_of_resolveWithin {definition : Definition} (hstate : state.Recalls decls known)
    (hon : (resolveWithin depth inFlight declaration).on state = (.ok definition, after)) :
    ∃ known', decls.route depth (marks inFlight) known declaration = some known' ∧
      after.Recalls decls known' := by
  induction depth generalizing inFlight declaration known state definition after with
  | zero =>
      unfold resolveWithin at hon
      rw [on_bind, on_world] at hon
      cases hon
  | succ depth ih =>
      obtain ⟨middle, hmemo, hmiddle⟩ := on_remembered? declaration hstate
      rw [resolveWithin_succ, on_bind, hmemo] at hon
      rw [Declarations.route]
      cases hresolved : state.session.resolved.get? declaration with
      | some found =>
          rw [hresolved] at hon
          cases hon
          exact ⟨known, if_pos ((hstate.known _).mpr ⟨_, hresolved⟩), hmiddle⟩
      | none =>
          rw [hresolved] at hon
          dsimp only at hon
          rw [if_neg fun hmem => by simpa [hresolved] using (hstate.known _).mp hmem, lookup_marks]
          cases hlookup : inFlight.lookup declaration with
          | some found =>
              rw [hlookup] at hon
              cases found with
              | some found =>
                  cases hon
                  exact ⟨known, rfl, hmiddle⟩
              | none =>
                  rw [on_bind, on_world] at hon
                  cases hon
          | none =>
              rw [hlookup] at hon
              obtain ⟨⟨found, made⟩, located, hlocate, hon⟩ := on_bind_ok.mp hon
              obtain ⟨_, settled, hreconcile, hon⟩ := on_bind_ok.mp hon
              obtain ⟨_, final, hremember, hon⟩ := on_bind_ok.mp hon
              cases hon
              have hstage (entry : Declaration × Option Definition) (other : Declaration)
                  (known : List Declaration) (state : SessionState) (found : Definition)
                  (after : SessionState) (hstate : state.Recalls decls known)
                  (hon : (resolveWithin depth (entry :: inFlight) other).on state = (.ok found, after)) :
                  ∃ known', decls.route depth (marks (entry :: inFlight)) known other = some known' ∧
                    after.Recalls decls known' := ih hstate hon
              obtain ⟨known₁, hroute₁, hlocated⟩ := (Search.visits_locate declaration).route_of_ok
                (hstage (declaration, none)) hmiddle hlocate
              obtain ⟨known₂, hroute₂, hsettled⟩ :=
                (Search.visits_reconcile made (Search.kind_locate hlocate)).route_of_ok
                  (hstage (declaration, some definition)) hlocated hreconcile
              refine ⟨declaration :: known₂, ?_, recalls_remember hsettled hremember⟩
              -- Resolving the signature once more leads nowhere new.
              rw [List.foldlM_append] at hroute₂
              obtain ⟨_, hsignature, hroute₂⟩ := Option.bind_eq_some_iff.mp hroute₂
              cases hsignature.symm.trans (Declarations.fold_signature made hroute₁)
              exact Option.bind_eq_some_iff.mpr
                ⟨known₁, hroute₁, Option.bind_eq_some_iff.mpr ⟨known₂, hroute₂, rfl⟩⟩

/-- A resolution whose route leads somewhere fails at most because of something else than a circle.
-/
theorem heads_resolveWithin
    (h : decls.route depth (marks inFlight) known declaration = some known') :
    Heads decls known known' (resolveWithin depth inFlight declaration) := by
  induction depth generalizing inFlight declaration known known' with
  | zero => cases h
  | succ depth ih =>
      intro state hstate
      obtain ⟨middle, hmemo, hmiddle⟩ := on_remembered? declaration hstate
      rw [resolveWithin_succ, on_bind, hmemo]
      rw [Declarations.route] at h
      cases hresolved : state.session.resolved.get? declaration with
      | some found =>
          rw [if_pos ((hstate.known _).mpr ⟨_, hresolved⟩)] at h
          cases h
          exact hmiddle
      | none =>
          dsimp only
          rw [if_neg fun hmem => by simpa [hresolved] using (hstate.known _).mp hmem,
            lookup_marks] at h
          cases hlookup : inFlight.lookup declaration with
          | some found =>
              rw [hlookup] at h
              cases found <;> cases h
              exact hmiddle
          | none =>
              rw [hlookup] at h
              obtain ⟨known₁, hroute₁, h⟩ := Option.bind_eq_some_iff.mp h
              obtain ⟨known₂, hroute₂, hlast⟩ := Option.bind_eq_some_iff.mp h
              cases hlast
              -- One step deeper the route through this declaration is the one that the induction
              -- speaks of.
              have hstage (entry : Declaration × Option Definition) (other : Declaration)
                  (known known' : List Declaration)
                  (h : decls.route depth (marks (entry :: inFlight)) known other = some known') :
                  Heads decls known known' (resolveWithin depth (entry :: inFlight) other) := ih h
              have hlocate := (Search.visits_locate declaration).heads
                (hstage (declaration, none)) hroute₁
              refine hlocate.bind ?_ middle hmiddle
              rintro ⟨definition, made⟩ _ _ hlocated
              have hreconcile : Heads decls known₁ known₂ (Search.reconcile
                  (resolveWithin depth ((declaration, some definition) :: inFlight))
                  declaration definition made) := by
                refine (Search.visits_reconcile made (Search.kind_locate hlocated)).heads
                  (hstage (declaration, some definition)) ?_
                rw [List.foldlM_append]
                exact Option.bind_eq_some_iff.mpr
                  ⟨known₁, Declarations.fold_signature made hroute₁, hroute₂⟩
              refine hreconcile.bind fun _ _ _ _ state hstate => ?_
              exact recalls_remember hstate rfl

/-- Resolving declarations one after another asks for them. -/
theorem visits_resolveAll (declarations : List Declaration) :
    Visits decls resolve (resolveAll declarations) declarations := by
  have hall : Visits decls resolve (resolveAll declarations) (declarations.flatMap ([·])) := by
    refine .forM fun declaration _ => ?_
    exact (Visits.ask declaration).map fun _ => .pure ()
  rwa [List.flatMap_singleton'] at hall

/-- What has succeeded once runs in no circle when it is tried again by a session that remembers the
same declarations, whatever it finds. -/
theorem Visits.again {α : Type} {task : SessionTask α} {visited : List Declaration} {value : α}
    {again : SessionState} (h : Visits decls resolve task visited)
    (hstate : state.Recalls decls known) (hon : task.on state = (.ok value, after))
    (hagain : again.Recalls decls known) {error : Error} {failed : SessionState}
    (hfails : task.on again = (.error error, failed)) : error.Acyclic := by
  have hresolve (state : SessionState) (hstate : state.world.decls = decls)
      (declaration : Declaration) : (resolve declaration).on state =
        (resolveWithin (decls.count + 1) [] declaration).on state := by
    unfold resolve
    rw [on_bind, on_world]
    dsimp only
    rw [hstate]
  let stage := decls.route (decls.count + 1) []
  have hstage (declaration : Declaration) (known : List Declaration) (state : SessionState)
      (found : Definition) (after : SessionState) (hstate : state.Recalls decls known)
      (hon : (resolve declaration).on state = (.ok found, after)) :
      ∃ known', stage known declaration = some known' ∧ after.Recalls decls known' := by
    rw [hresolve state hstate.decls] at hon
    exact route_of_resolveWithin hstate hon
  obtain ⟨known', hroute, -⟩ := h.route_of_ok hstage hstate hon
  have hheads : Heads decls known known' task := by
    refine h.heads (fun declaration known known' hstage state hstate => ?_) hroute
    rw [hresolve state hstate.decls]
    have hwithin : Heads decls known known' (resolveWithin (decls.count + 1) [] declaration) :=
      heads_resolveWithin hstage
    exact hwithin state hstate
  have hlast := hheads again hagain
  rwa [hfails] at hlast

end SessionTask

end Graft
