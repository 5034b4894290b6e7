import Graft.Proofs.Pairing.Transplanting

/-!
# A session that has worked before

A session that has resolved other declarations before does the same with new ones as a session of its
own whose source keeps what the first one works on (`Shares`): it resolves them in the same way
(`carrying_sharing`), as long as they lead to none of the earlier ones.
-/

namespace Graft

open SessionTask

/-- The module that a source in memory keeps under a name. -/
def Source.module? (name : String) : Source → Option (DefId .module)
  | .memory modules _ => modules.get? name
  | .streamed .. => none

namespace SessionState

/-- The module that a session works on under a name, or would work on when asked. -/
def moduleNamed? (state : SessionState) (name : String) : Option (DefId .module) :=
  (state.session.modules.get? name).or
    ((state.world.source state.session.source).module? name)

/-- Whether a session gets its modules from memory. -/
def InMemory (state : SessionState) : Prop :=
  ∃ modules saves, state.world.source state.session.source = .memory modules saves

/-- Asking for a module in memory changes at most which modules the session has asked for. -/
theorem InMemory.on_module? {state : SessionState} (h : state.InMemory) (name : String) :
    ∃ modules : Dictionary String (DefId .module),
      let next : SessionState := ⟨{ state.session with modules }, state.world⟩
      (SessionTask.module? name).on state = (.ok (state.moduleNamed? name), next) ∧
        next.moduleNamed? = state.moduleNamed? := by
  obtain ⟨kept, saves, hmemory⟩ := h
  rw [SessionTask.module?, on_bind, on_get]
  dsimp only
  cases hsession : state.session.modules.get? name with
  | some module =>
      have hnamed : state.moduleNamed? name = some module := by
        simp [moduleNamed?, hsession]
      exact ⟨state.session.modules, congrArg (fun found => (Except.ok found, state)) hnamed.symm, rfl⟩
  | none =>
      rw [on_bind, on_attempt, Task.load_memory hmemory]
      cases hkept : kept.get? name with
      | none =>
          have hnamed : state.moduleNamed? name = none := by
            simp [moduleNamed?, hsession, hmemory, Source.module?, hkept]
          exact ⟨state.session.modules, congrArg (fun found => (Except.ok found, state)) hnamed.symm, rfl⟩
      | some module =>
          have hnamed : state.moduleNamed? name = some module := by
            simp [moduleNamed?, hsession, hmemory, Source.module?, hkept]
          refine ⟨state.session.modules.insert name module,
            congrArg (fun found => (Except.ok found, _)) hnamed.symm, funext fun other => ?_⟩
          unfold moduleNamed?
          rw [hmemory, Dictionary.get?_insert, Source.module?]
          split
          · rename_i heq
            rw [← heq, hsession, hkept]
            rfl
          · rfl

end SessionState

/-- Two sessions at work on the same graph, of which the first has resolved some declarations before
that are not asked for any more. Under every name they work on the same module. -/
structure SessionState.Shares (asked : Declaration → Prop) (earlier : List (Declaration × Definition))
    (left right : SessionState) : Prop where
  beside : ∃ sources log, right.world = left.world.beside sources log
  reaches : left.world.Reaches [] asked
  memory : left.InMemory
  memory' : right.InMemory
  modules : right.moduleNamed? = left.moduleNamed?
  resolved : left.session.resolved.entries = earlier ++ right.session.resolved.entries

namespace SessionState.Shares

variable {asked : Declaration → Prop} {earlier : List (Declaration × Definition)}
  {left right : SessionState} (h : left.Shares asked earlier right)

include h

/-- A session may change what it has asked for, as long as names mean the same modules. -/
theorem withModules {modules modules' : Dictionary String (DefId .module)}
    (hsame : moduleNamed? ⟨{ right.session with modules := modules' }, right.world⟩ =
      moduleNamed? ⟨{ left.session with modules }, left.world⟩) :
    Shares asked earlier ⟨{ left.session with modules }, left.world⟩
      ⟨{ right.session with modules := modules' }, right.world⟩ :=
  { h with modules := hsame }

/-- What is asked for has not been resolved before by one of the sessions only. -/
theorem remembered (hearlier : ∀ entry ∈ earlier, ¬ asked entry.1) {declaration : Declaration}
    (hasked : asked declaration) :
    left.session.resolved.get? declaration = right.session.resolved.get? declaration := by
  have hnone : earlier.find? (·.1 = declaration) = none := by
    refine List.find?_eq_none.mpr fun entry hmem => ?_
    rw [decide_eq_true_iff]
    rintro rfl
    exact hearlier entry hmem hasked
  simp only [Dictionary.get?, h.resolved, List.find?_append, hnone, Option.none_or]

end SessionState.Shares

namespace Pairing

variable {decls : Declarations} {asked : Declaration → Prop}
  {earlier : List (Declaration × Definition)} {declaration : Declaration} {α : Type}

/-- States are alike if one session shares what the other one has by itself. -/
def sharing (decls : Declarations) (asked : Declaration → Prop)
    (earlier : List (Declaration × Definition)) : Pairing where
  Alike left right := left.world.decls = decls ∧ left.Shares asked earlier right
  Expected _ _ := True

/-! ## The world and the modules -/

/-- What does not depend on sources or the log is done in the same way. -/
theorem couples_ofTask {task : Task α} (hinward : task.Inward)
    (hsame : ∀ world, World.SameBindings world (task.on world).2 ∧
      (task.on world).2.sources = world.sources) :
    (sharing decls asked earlier).Couples (ofTask task) (ofTask task) := by
  rintro ⟨session, world⟩ ⟨session', world'⟩ ⟨hdecls, hshares⟩
  obtain ⟨sources, log, hworld⟩ := hshares.beside
  obtain rfl : world' = world.beside sources log := hworld
  obtain ⟨hbindings, hsources⟩ := hsame world
  have hsource (id : SourceId) : (task.on world).2.source id = world.source id := by
    rw [World.source, hsources, World.source]
  rw [on_ofTask, on_ofTask, hinward]
  refine ⟨rfl, ⟨hbindings.decls.trans hdecls, ?_⟩, fun _ _ => trivial⟩
  have hmodules : SessionState.moduleNamed? ⟨session, (task.on world).2⟩ =
      SessionState.moduleNamed? ⟨session, world⟩ := by
    funext name
    simp only [SessionState.moduleNamed?, hsource]
  exact {
    beside := ⟨sources, log, rfl⟩
    reaches := hbindings.reaches hshares.reaches
    memory := by
      obtain ⟨modules, saves, hmemory⟩ := hshares.memory
      exact ⟨modules, saves, (hsource _).trans hmemory⟩
    memory' := hshares.memory'
    modules := hshares.modules.trans hmodules.symm
    resolved := hshares.resolved }

theorem lawful_sharing : (sharing decls asked earlier).Lawful decls where
  decls_eq _ _ halike := halike.1
  links left right halike := by
    obtain ⟨sources, log, hworld⟩ := halike.2.beside
    rw [hworld]
    exact ⟨⟨rfl, rfl⟩, rfl⟩
  expected _ _ _ := trivial
  changeDefs change :=
    couples_ofTask (fun _ _ _ => rfl) fun _ => ⟨⟨rfl, fun _ => rfl, fun _ => rfl, fun _ => rfl⟩, rfl⟩
  log entry := by
    rintro ⟨session, world⟩ ⟨session', world'⟩ ⟨hdecls, hshares⟩
    obtain ⟨sources, log, hworld⟩ := hshares.beside
    obtain rfl : world' = world.beside sources log := hworld
    have hbindings : world.SameBindings { world with log := world.log.push entry } :=
      ⟨rfl, fun _ => rfl, fun _ => rfl, fun _ => rfl⟩
    rw [on_log, on_log]
    exact ⟨rfl, ⟨hdecls, { hshares with
      beside := ⟨sources, log.push entry, rfl⟩
      reaches := hbindings.reaches hshares.reaches }⟩, fun _ _ => trivial⟩
  module? name := by
    rintro left right ⟨hdecls, hshares⟩
    -- The module may be new to one of the sessions only.
    obtain ⟨modules, hleft, hsame⟩ := hshares.memory.on_module? name
    obtain ⟨modules', hright, hsame'⟩ := hshares.memory'.on_module? name
    rw [hleft, hright]
    refine ⟨by rw [hshares.modules], ⟨hdecls, ?_⟩, fun _ _ => trivial⟩
    exact hshares.withModules (hsame'.trans (hshares.modules.trans hsame.symm))
  keepModule name module := by
    rintro left right ⟨hdecls, hshares⟩
    refine ⟨rfl, ⟨hdecls, hshares.withModules (funext fun other => ?_)⟩, fun _ _ => trivial⟩
    have hother := congrFun hshares.modules other
    unfold SessionState.moduleNamed? at hother ⊢
    rw [Dictionary.get?_insert, Dictionary.get?_insert]
    split
    · rfl
    · exact hother

/-! ## What has been resolved -/

section Resolving

variable (hearlier : ∀ entry ∈ earlier, ¬ asked entry.1)

include hearlier

theorem sharing_remembered? (hasked : asked declaration) :
    (sharing decls asked earlier).Couples (remembered? declaration) (remembered? declaration) := by
  rintro left right ⟨hdecls, hshares⟩
  unfold remembered?
  rw [on_bind, on_get, on_bind, on_get]
  dsimp only
  rw [hshares.remembered hearlier hasked]
  cases right.session.resolved.get? declaration with
  | none => exact ⟨rfl, ⟨hdecls, hshares⟩, fun _ _ => trivial⟩
  | some definition =>
      have hhit : (sharing decls asked earlier).Couples
          (changeSession fun session => { session with hits := session.hits + 1 })
          (changeSession fun session => { session with hits := session.hits + 1 }) :=
        fun left right ⟨hdecls, hshares⟩ => ⟨rfl, ⟨hdecls, { hshares with }⟩, fun _ _ => trivial⟩
      refine Couples.bind hhit (fun _ => ?_) left right ⟨hdecls, hshares⟩
      refine lawful_sharing.world fun world world' hlinks _ => ?_
      rw [hlinks.declSymbol]
      exact (lawful_sharing.log _).bind fun _ => .pure _

theorem sharing_remember (hasked : asked declaration) (definition : Definition) :
    (sharing decls asked earlier).Couples (remember declaration definition)
      (remember declaration definition) := by
  rintro left right ⟨hdecls, hshares⟩
  refine ⟨rfl, ⟨hdecls, { hshares with resolved := ?_ }⟩, fun _ _ => trivial⟩
  show Dictionary.put declaration definition left.session.resolved.entries = _
  rw [hshares.resolved, Dictionary.put_append fun entry hmem heq =>
    hearlier entry hmem (heq ▸ hasked)]
  rfl

/-- By induction on the depth: what is asked for on the way is again among what may be asked for. -/
theorem couples_resolveWithin (hclosed : decls.Closed asked) {depth : Nat} {inFlight : InFlight}
    (hasked : asked declaration) :
    (sharing decls asked earlier).Couples (resolveWithin depth inFlight declaration)
      (resolveWithin depth inFlight declaration) := by
  have law : (sharing decls asked earlier).Lawful decls := lawful_sharing
  have hcyclic {α : Type} (declaration : Declaration) : (sharing decls asked earlier).Couples
      (do throw (.cyclic ((← SessionTask.world).declSymbol declaration)) : SessionTask α)
      (do throw (.cyclic ((← SessionTask.world).declSymbol declaration))) := by
    refine law.world fun world world' hlinks _ => ?_
    exact Couples.throw (congrArg Error.cyclic (hlinks.declSymbol _)) fun _ => trivial
  induction depth generalizing inFlight declaration with
  | zero => exact hcyclic declaration
  | succ depth ih =>
      rw [resolveWithin_succ]
      refine (sharing_remembered? hearlier hasked).bind fun remembered => ?_
      cases remembered with
      | some definition => exact .pure _
      | none =>
          dsimp only
          cases inFlight.lookup declaration with
          | some found =>
              cases found with
              | some definition => exact .pure _
              | none => exact hcyclic declaration
          | none =>
              refine (Search.couples_locate law (fun _ _ _ => trivial) ?_).bind fun located => ?_
              · intro next hmem hnext
                exact ih (hclosed.asks hasked (List.mem_append_left _ hmem) hnext)
              refine (Search.couples_reconcile law located.1 located.2 (fun _ _ _ _ => trivial) ?_ ?_).bind
                fun _ => ?_
              · intro entry hmem
                exact ih (hclosed.accessors declaration entry.1 entry.2 hasked hmem)
              · intro next hmem hnext
                refine ih (hclosed.asks hasked ?_ hnext)
                rcases List.mem_append.mp hmem with hsignature | hfollower
                · exact List.mem_append_left _ (List.mem_append_right _ hsignature)
                · exact List.mem_append_right _ hfollower
              exact (sharing_remember hearlier hasked located.1).bind fun _ => .pure _

/-- Whatever is asked for is resolved in the same way, and bodies that lead to nothing else are carried
over in the same way. -/
theorem carrying_sharing : (sharing decls asked earlier).Carrying decls asked := by
  refine ⟨lawful_sharing, fun _ _ halike => halike.2.beside, fun _ _ halike => halike.2.reaches,
    fun _ _ => trivial, fun declaration hasked left right halike => ?resolve,
    fun hinward hquiet => couples_ofTask hinward fun world => ?imports⟩
  case resolve =>
    have hclosed : decls.Closed asked := halike.1 ▸ halike.2.reaches.closed
    refine lawful_sharing.world (fun world world' hlinks _ => ?_) left right halike
    rw [hlinks.decls]
    exact couples_resolveWithin hearlier hclosed hasked
  case imports =>
    obtain ⟨h, -⟩ := hquiet world world (.refl _)
    exact ⟨⟨h.decls, h.types, h.fields, h.methods⟩, h.sources⟩

end Resolving

end Pairing

end Graft
