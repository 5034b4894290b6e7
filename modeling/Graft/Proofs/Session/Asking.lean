import Graft.Proofs.Session.Moment
import Graft.Proofs.Source.Loading

/-!
# What operations of a session ask for

An operation of a session asks a search for declarations, one after another, and which ones and in
which order is decided by what is declared alone (`SessionTask.Visits`), not by what is found. There
is one lemma for every function. So all that is asked for before a declaration is located are its
forerunners (`visits_locate`), and after that its followers (`visits_reconcile`).
-/

namespace Graft

/-- The declarations that some references lead to. -/
def declaredIn (targets : List Target) : List Declaration :=
  targets.filterMap Target.declared?

@[simp] theorem declaredIn_append (targets targets' : List Target) :
    declaredIn (targets ++ targets') = declaredIn targets ++ declaredIn targets' :=
  List.filterMap_append

theorem declaredIn_flatMap {ι : Type} (items : List ι) (f : ι → List Target) :
    declaredIn (items.flatMap f) = items.flatMap fun item => declaredIn (f item) := by
  induction items with
  | nil => rfl
  | cons item items ih => rw [List.flatMap_cons, List.flatMap_cons, declaredIn_append, ih]

namespace Declarations

/-- What is asked for before a declaration is located: the scope around it, and all that its
signature refers to. -/
def forerunners (decls : Declarations) (declaration : Declaration) : List Declaration :=
  (decls.parent? declaration).toList ++ declaredIn (decls.statement declaration).shape.targets

/-- What is asked for once a declaration has been located: all else that it refers to, and its
accessors. -/
def followers (decls : Declarations) (declaration : Declaration) : List Declaration :=
  let statement := decls.statement declaration
  declaredIn (statement.base.elim [] TypeRef.targets) ++
    declaredIn (statement.interfaces.flatMap TypeRef.targets) ++
    declaredIn (statement.generics.elim [] (List.flatMap GenericParam.targets)) ++
    declaredIn (statement.overrides.flatMap Override.targets) ++
    statement.accessors.map fun entry => .method entry.2

end Declarations

/-! ## What an operation asks for -/

/-- Whether an error says something else than that resolutions run in a circle. -/
def Error.Acyclic (error : Error) : Prop :=
  ∀ symbol, error ≠ .cyclic symbol

/-- Whether a session knows some declarations and remembers just these, and gets its modules from a
source in memory. -/
structure SessionState.Recalls (state : SessionState) (decls : Declarations)
    (known : List Declaration) : Prop where
  decls : state.world.decls = decls
  known : ∀ declaration, declaration ∈ known ↔
    ∃ definition, state.session.resolved.get? declaration = some definition
  memory : ∃ modules saves, state.world.source state.session.source = .memory modules saves

namespace SessionTask

variable {decls : Declarations} {known known' known'' : List Declaration} {α β : Type}

/-- Whether an operation that succeeds leads from some declarations that are remembered to others,
and fails at most because of something else than a circle. -/
def Heads (decls : Declarations) (known known' : List Declaration) (task : SessionTask α) : Prop :=
  ∀ state : SessionState, state.Recalls decls known →
    match task.on state with
    | (.ok _, after) => after.Recalls decls known'
    | (.error error, _) => error.Acyclic

/-- Whether an operation asks for nothing. -/
def Calm (decls : Declarations) (task : SessionTask α) : Prop :=
  ∀ known, Heads decls known known task

/-- What comes next may depend on the answer of what comes first. -/
theorem Heads.bind {task : SessionTask α} {next : α → SessionTask β}
    (htask : Heads decls known known' task)
    (hnext : ∀ value state after, task.on state = (.ok value, after) →
      Heads decls known' known'' (next value)) :
    Heads decls known known'' (task >>= next) := by
  intro state hstate
  have hfirst := htask state hstate
  rw [on_bind]
  cases hon : task.on state with
  | mk outcome middle =>
      rw [hon] at hfirst
      cases outcome with
      | error error => exact hfirst
      | ok value => exact hnext value state middle hon middle hfirst

namespace Calm

theorem bind {task : SessionTask α} {next : α → SessionTask β} (htask : Calm decls task)
    (hnext : ∀ value, Calm decls (next value)) : Calm decls (task >>= next) :=
  fun known => (htask known).bind fun value _ _ _ => hnext value known

theorem world {next : World → SessionTask α}
    (hnext : ∀ world, world.decls = decls → Calm decls (next world)) :
    Calm decls (SessionTask.world >>= next) := by
  intro known state hstate
  rw [on_bind, on_world]
  exact hnext state.world hstate.decls known state hstate

theorem pure (value : α) : Calm decls (Pure.pure value) :=
  fun _ _ hstate => hstate

theorem throw {error : Error} (h : error.Acyclic) :
    Calm decls (MonadExcept.throw error : SessionTask α) :=
  fun _ _ _ => h

theorem ofExcept {outcome : Except Error α} (h : ∀ error, outcome = .error error → error.Acyclic) :
    Calm decls (MonadExcept.ofExcept outcome : SessionTask α) := by
  cases outcome with
  | error error => exact throw (h error rfl)
  | ok value => exact pure value

/-- Changing the definitions or writing into the log is nothing that is asked for. -/
theorem changeDefs (change : Definitions → Definitions) :
    Calm decls (SessionTask.changeDefs change) := by
  intro known state hstate
  rw [on_changeDefs]
  exact ⟨hstate.decls, hstate.known, hstate.memory⟩

theorem makeDef (make : Definitions → α × Definitions) : Calm decls (SessionTask.makeDef make) := by
  intro known state hstate
  rw [on_makeDef]
  exact ⟨hstate.decls, hstate.known, hstate.memory⟩

theorem log (entry : LogEntry) : Calm decls (SessionTask.log entry) := by
  intro known state hstate
  rw [on_log]
  exact ⟨hstate.decls, hstate.known, hstate.memory⟩

theorem changeModules (change : Session → Dictionary String (DefId .module)) :
    Calm decls (changeSession fun session => { session with modules := change session }) := by
  intro known state hstate
  rw [on_changeSession]
  exact ⟨hstate.decls, hstate.known, hstate.memory⟩

/-- A source in memory has a module, or it has not. -/
theorem module? (name : String) : Calm decls (SessionTask.module? name) := by
  intro known state hstate
  obtain ⟨modules, saves, hmemory⟩ := hstate.memory
  rw [SessionTask.module?, on_bind, on_get]
  dsimp only
  cases state.session.modules.get? name with
  | some module => exact hstate
  | none =>
      rw [on_bind, on_attempt, Task.load_memory hmemory]
      cases modules.get? name with
      | none => exact hstate
      | some module => exact ⟨hstate.decls, hstate.known, hstate.memory⟩

theorem checkWritable (declaration : Declaration) :
    Calm decls (SessionTask.checkWritable declaration) := by
  refine world fun world _ => ofExcept fun error herror => ?_
  unfold Declaration.checkWritable at herror
  split at herror <;> cases herror
  exact nofun

theorem findOrCreate {ι : Type} {found : Option ι} {create : SessionTask ι} (declaration : Declaration)
    (hcreate : Calm decls create) :
    Calm decls (SessionTask.findOrCreate declaration found create) := by
  refine world fun world _ => bind (ofExcept fun error herror => ?_) fun create? => ?_
  · unfold Declaration.mustCreate at herror
    split at herror <;> cases herror <;> exact nofun
  · split
    · exact pure _
    · refine bind (checkWritable declaration) fun _ => bind hcreate fun made => ?_
      exact Calm.world fun _ _ => bind (log _) fun _ => pure _

end Calm

/-- Whether an operation asks a search for some declarations, one after another, and for nothing
else. -/
inductive Visits (decls : Declarations) (search : Search) :
    {α : Type} → SessionTask α → List Declaration → Prop where
  | calm {α : Type} {task : SessionTask α} (h : Calm decls task) : Visits decls search task []
  | ask (declaration : Declaration) : Visits decls search (search declaration) [declaration]
  /-- What comes after a failure is not asked for any more. -/
  | stop {α : Type} {error : Error} {visited : List Declaration} (h : error.Acyclic) :
      Visits decls search (throw error : SessionTask α) visited
  | bind {α β : Type} {task : SessionTask α} {next : α → SessionTask β}
      {first second : List Declaration} (h : Visits decls search task first)
      (hnext : ∀ value, Visits decls search (next value) second) :
      Visits decls search (task >>= next) (first ++ second)
  | world {α : Type} {next : World → SessionTask α} {visited : List Declaration}
      (h : ∀ world, world.decls = decls → Visits decls search (next world) visited) :
      Visits decls search (SessionTask.world >>= next) visited

namespace Visits

variable {search : Search} {task : SessionTask α} {visited : List Declaration}
  {stage : List Declaration → Declaration → Option (List Declaration)}

theorem pure (value : α) : Visits decls search (Pure.pure value) [] :=
  .calm (.pure value)

/-- What is done with the answers asks for nothing. -/
theorem map {next : α → SessionTask β} (h : Visits decls search task visited)
    (hnext : ∀ value, Calm decls (next value)) : Visits decls search (task >>= next) visited := by
  have hcalm (value : α) : Visits decls search (next value) [] := .calm (hnext value)
  have hboth := h.bind hcalm
  rwa [List.append_nil] at hboth

/-- What comes before asks for nothing. -/
theorem after {next : α → SessionTask β} (h : Calm decls task)
    (hnext : ∀ value, Visits decls search (next value) visited) :
    Visits decls search (task >>= next) visited :=
  (Visits.calm h).bind hnext

theorem mapM {ι : Type} {f : ι → SessionTask α} {items : List ι} {visit : ι → List Declaration}
    (h : ∀ item ∈ items, Visits decls search (f item) (visit item)) :
    Visits decls search (items.mapM f) (items.flatMap visit) := by
  induction items with
  | nil => exact pure []
  | cons item items ih =>
      rw [List.mapM_cons, List.flatMap_cons]
      refine (h item List.mem_cons_self).bind fun value => ?_
      exact (ih fun other hmem => h other (List.mem_cons_of_mem _ hmem)).map fun values => .pure _

theorem forM {ι : Type} {f : ι → SessionTask Unit} {items : List ι} {visit : ι → List Declaration}
    (h : ∀ item ∈ items, Visits decls search (f item) (visit item)) :
    Visits decls search (items.forM f) (items.flatMap visit) := by
  induction items with
  | nil => exact pure ()
  | cons item items ih =>
      rw [List.flatMap_cons]
      refine (h item List.mem_cons_self).bind fun _ => ?_
      exact ih fun other hmem => h other (List.mem_cons_of_mem _ hmem)

/-- An operation succeeds only if every stage of its route does. -/
theorem route_of_ok (h : Visits decls search task visited)
    (hsearch : ∀ declaration known state value after, state.Recalls decls known →
      (search declaration).on state = (.ok value, after) →
      ∃ known', stage known declaration = some known' ∧ after.Recalls decls known')
    {state after : SessionState} {value : α} (hstate : state.Recalls decls known)
    (hon : task.on state = (.ok value, after)) :
    ∃ known', visited.foldlM stage known = some known' ∧ after.Recalls decls known' := by
  induction h generalizing known state after with
  | calm hcalm =>
      have hafter := hcalm known state hstate
      rw [hon] at hafter
      exact ⟨known, rfl, hafter⟩
  | ask declaration =>
      obtain ⟨known', hstage, hafter⟩ := hsearch declaration known state _ after hstate hon
      exact ⟨known', by simp [hstage], hafter⟩
  | stop => cases hon
  | bind _ _ ih ihNext =>
      obtain ⟨value, middle, hfirst, hsecond⟩ := on_bind_ok.mp hon
      obtain ⟨known₁, hroute₁, hmiddle⟩ := ih hstate hfirst
      obtain ⟨known₂, hroute₂, hafter⟩ := ihNext value hmiddle hsecond
      exact ⟨known₂, by rw [List.foldlM_append, hroute₁]; exact hroute₂, hafter⟩
  | world _ ih =>
      rw [on_bind, on_world] at hon
      exact ih state.world hstate.decls hstate hon

/-- An operation takes its route if every stage of it can be taken. -/
theorem heads (h : Visits decls search task visited)
    (hsearch : ∀ declaration known known', stage known declaration = some known' →
      Heads decls known known' (search declaration))
    (hroute : visited.foldlM stage known = some known') : Heads decls known known' task := by
  induction h generalizing known known' with
  | calm hcalm =>
      cases hroute
      exact hcalm known
  | ask declaration =>
      rw [List.foldlM_cons] at hroute
      obtain ⟨_, hstage, hlast⟩ := Option.bind_eq_some_iff.mp hroute
      cases hlast
      exact hsearch declaration known known' hstage
  | stop hacyclic => exact fun _ _ => hacyclic
  | bind _ _ ih ihNext =>
      rw [List.foldlM_append] at hroute
      obtain ⟨middle, hfirst, hsecond⟩ := Option.bind_eq_some_iff.mp hroute
      exact (ih hfirst).bind fun value _ _ _ => ihNext value hsecond
  | world _ ih =>
      intro state hstate
      rw [on_bind, on_world]
      exact ih state.world hstate.decls hroute state hstate

end Visits

end SessionTask

/-! ## References -/

namespace Search

open SessionTask

variable {decls : Declarations} {search : Search}

theorem visits_module (id : DeclId .module) :
    Visits decls search (search.module id) [.module id] := by
  refine (Visits.ask (.module id)).map fun found => ?_
  cases found with
  | module => exact .pure _
  | type | field | method | property | event => exact .world fun _ _ => .throw nofun

theorem visits_type (id : DeclId .type) : Visits decls search (search.type id) [.type id] := by
  refine (Visits.ask (.type id)).map fun found => ?_
  cases found with
  | type => exact .pure _
  | module | field | method | property | event => exact .world fun _ _ => .throw nofun

theorem visits_method (id : DeclId .method) :
    Visits decls search (search.method id) [.method id] := by
  refine (Visits.ask (.method id)).map fun found => ?_
  cases found with
  | method => exact .pure _
  | module | type | field | property | event => exact .world fun _ _ => .throw nofun

theorem calm_checkLiving (declaration : Declaration) : Calm decls (checkLiving declaration) := by
  refine .world fun world _ => ?_
  split
  · exact .pure _
  · exact .throw nofun

theorem calm_checkOwner (kind : VarKind) (index : UInt32) (owner : VarOwner) :
    Calm decls (checkOwner kind index owner) := by
  cases owner with
  | deferred slot =>
      refine .world fun world _ => ?_
      split
      · exact .throw nofun
      · exact .pure _
  | _ => exact .pure _

mutual

theorem visits_resolveTypeRef (ref : TypeRef) :
    Visits decls search (search.resolveTypeRef ref) (declaredIn ref.targets) := by
  cases ref with
  | definition id | external type =>
      rw [resolveTypeRef]
      exact .pure _
  | declared id =>
      rw [resolveTypeRef]
      exact .after (calm_checkLiving _) fun _ => (visits_type id).map fun _ => .pure _
  | constructed signature =>
      rw [resolveTypeRef]
      exact (visits_resolveTypeSig signature).map fun _ => .pure _
termination_by structural ref

theorem visits_resolveTypeSig (signature : TypeSig) :
    Visits decls search (search.resolveTypeSig signature) (declaredIn signature.targets) := by
  cases signature with
  | unknown =>
      rw [resolveTypeSig]
      exact .stop nofun
  | sentinel | primitive type =>
      rw [resolveTypeSig]
      exact .pure _
  | classType type | valueType type =>
      rw [resolveTypeSig]
      exact (visits_resolveTypeRef type).map fun _ => .pure _
  | genericVar kind index owner =>
      rw [resolveTypeSig]
      exact .calm (.bind (calm_checkOwner kind index owner) fun _ => .pure _)
  | function signature =>
      rw [resolveTypeSig]
      exact (visits_resolveMethodSig signature).map fun _ => .pure _
  | applied generic args =>
      rw [resolveTypeSig, TypeSig.targets, declaredIn_append]
      exact (visits_resolveTypeSig generic).bind fun _ =>
        (visits_resolveTypeSigs args).map fun _ => .pure _
  | pointer inner | byRef inner | vector inner | pinned inner | array inner shape
  | inModule index inner =>
      rw [resolveTypeSig]
      exact (visits_resolveTypeSig inner).map fun _ => .pure _
  | required modifier inner | optional modifier inner =>
      rw [resolveTypeSig, TypeSig.targets, declaredIn_append]
      exact (visits_resolveTypeRef modifier).bind fun _ =>
        (visits_resolveTypeSig inner).map fun _ => .pure _
termination_by structural signature

theorem visits_resolveMethodSig (signature : MethodSig) :
    Visits decls search (search.resolveMethodSig signature) (declaredIn signature.targets) := by
  obtain ⟨callConv, genericCount, result, params, varargs⟩ := signature
  rw [resolveMethodSig, MethodSig.targets, declaredIn_append, declaredIn_append, List.append_assoc]
  refine (visits_resolveTypeSig result).bind fun _ => (visits_resolveTypeSigs params).bind fun _ => ?_
  exact (visits_resolveTypeSigs varargs).map fun _ => .pure _
termination_by structural signature

theorem visits_resolveTypeSigs (signatures : List TypeSig) :
    Visits decls search (search.resolveTypeSigs signatures)
      (declaredIn (TypeSig.targetsList signatures)) := by
  cases signatures with
  | nil =>
      rw [resolveTypeSigs]
      exact .pure _
  | cons signature rest =>
      rw [resolveTypeSigs, TypeSig.targetsList, declaredIn_append]
      exact (visits_resolveTypeSig signature).bind fun _ =>
        (visits_resolveTypeSigs rest).map fun _ => .pure _
termination_by structural signatures

end

theorem visits_resolveMethodRef (ref : MethodRef) :
    Visits decls search (search.resolveMethodRef ref) (declaredIn ref.targets) := by
  cases ref with
  | definition id =>
      rw [resolveMethodRef]
      exact .pure _
  | declared id =>
      rw [resolveMethodRef]
      exact .after (calm_checkLiving _) fun _ => (visits_method id).map fun _ => .pure _
  | external owner name signature =>
      rw [resolveMethodRef, MethodRef.targets, declaredIn_append]
      exact (visits_resolveTypeRef owner).bind fun _ =>
        (visits_resolveMethodSig signature).map fun _ => .pure _
  | instantiated method args =>
      rw [resolveMethodRef, MethodRef.targets, declaredIn_append]
      exact (visits_resolveMethodRef method).bind fun _ =>
        (visits_resolveTypeSigs args).map fun _ => .pure _
termination_by structural ref

theorem visits_resolvePropertySig (signature : PropertySig) :
    Visits decls search (search.resolvePropertySig signature) (declaredIn signature.targets) := by
  rw [PropertySig.targets, declaredIn_append]
  exact (visits_resolveTypeSig signature.type).bind fun _ =>
    (visits_resolveTypeSigs signature.params).map fun _ => .pure _

theorem visits_resolveGenericParam (param : GenericParam) :
    Visits decls search (search.resolveGenericParam param) (declaredIn param.targets) := by
  rw [GenericParam.targets, declaredIn_flatMap]
  exact (Visits.mapM fun ref _ => visits_resolveTypeRef ref).map fun _ => .pure _

theorem visits_resolveOverride (override : Override) :
    Visits decls search (search.resolveOverride override) (declaredIn override.targets) := by
  rw [Override.targets, declaredIn_append]
  exact (visits_resolveMethodRef override.body).bind fun _ =>
    (visits_resolveMethodRef override.declaration).map fun _ => .pure _

/-! ## Locating -/

theorem acyclic_detached (world : World) (declaration : Declaration) :
    (detached world declaration).Acyclic :=
  nofun

/-- The scope around a member is asked for first. -/
theorem visits_ownerOf (declaration : Declaration) (owner : DeclId .type)
    {visited : List Declaration} {β : Type} {next : DefId .type → SessionTask β}
    (hnext : ∀ found, Visits decls search (next found) visited) :
    Visits decls search (search.ownerOf declaration owner >>= next)
      (((decls.living? owner).map Declaration.type).toList ++ visited) := by
  unfold ownerOf
  rw [bind_assoc]
  refine .world fun world hworld => ?_
  rw [hworld]
  cases decls.living? owner with
  | some owner => exact (visits_type owner).bind hnext
  | none => exact .stop (acyclic_detached _ _)

/-- Locating a declaration asks for its forerunners. -/
theorem visits_locate (declaration : Declaration) :
    Visits decls search (search.locate declaration) (decls.forerunners declaration) := by
  cases declaration with
  | module id =>
      refine .calm (.bind (.world fun _ _ => .bind (.module? _) fun found => ?_) fun _ => .pure _)
      refine .findOrCreate _ (.bind (.makeDef _) fun made => .bind ?_ fun _ => .pure _)
      exact .changeModules _
  | type id =>
      refine .map (.world fun world hworld => ?_) fun _ => .pure _
      subst hworld
      simp only [Declarations.forerunners, Declarations.parent?, Declarations.statement, Shape.targets]
      cases world.decls.outer? id with
      | some outer =>
          refine (visits_type outer).map fun _ => .world fun _ _ => ?_
          exact .findOrCreate _ (.makeDef _)
      | none =>
          cases world.decls.moduleOf? id with
          | some module =>
              refine (visits_module module).map fun _ => .world fun _ _ => ?_
              exact .findOrCreate _ (.makeDef _)
          | none => exact .stop (acyclic_detached _ _)
  | field id =>
      refine .map (.world fun world hworld => ?_) fun _ => .pure _
      subst hworld
      refine visits_ownerOf _ _ fun _ => (visits_resolveTypeSig _).map fun _ => ?_
      exact .world fun _ _ => .findOrCreate _ (.makeDef _)
  | method id =>
      refine .map (.world fun world hworld => ?_) fun _ => .pure _
      subst hworld
      refine visits_ownerOf _ _ fun _ => (visits_resolveMethodSig _).map fun _ => ?_
      exact .world fun _ _ => .findOrCreate _ (.makeDef _)
  | property id =>
      refine .map (.world fun world hworld => ?_) fun _ => .pure _
      subst hworld
      refine visits_ownerOf _ _ fun _ => (visits_resolvePropertySig _).map fun _ => ?_
      exact .world fun _ _ => .findOrCreate _ (.makeDef _)
  | event id =>
      refine .map (.world fun world hworld => ?_) fun _ => .pure _
      subst hworld
      refine visits_ownerOf _ _ fun _ => (visits_resolveTypeRef _).map fun _ => ?_
      exact .world fun _ _ => .findOrCreate _ (.makeDef _)

/-! ## Reconciling -/

theorem calm_reconcileFlags {scheme : FlagScheme} {declaration : Declaration} {nested : Bool}
    {existing : UInt32} {declared : Option UInt32} {store : UInt32 → SessionTask Unit}
    (hstore : ∀ flags, Calm decls (store flags)) :
    Calm decls (reconcileFlags scheme declaration nested existing declared store) := by
  unfold reconcileFlags
  cases declared with
  | none => exact .pure _
  | some declared =>
      refine .world fun world _ => ?_
      dsimp only
      split
      · exact .pure _
      · exact .bind (.checkWritable _) fun _ => .bind (.log _) fun _ => hstore _

theorem visits_reconcileBase (id : DeclId .type) (type : DefId .type) (made : Bool) :
    Visits decls search (search.reconcileBase id type made)
      (declaredIn ((decls.type id).base.elim [] TypeRef.targets)) := by
  refine .world fun world hworld => ?_
  subst hworld
  cases (world.decls.type id).base with
  | none => exact .pure _
  | some declared =>
      refine (visits_resolveTypeRef declared).map fun _ => .world fun _ _ => ?_
      dsimp only
      split
      · exact .pure _
      · split
        · exact .changeDefs _
        · exact .throw nofun

theorem visits_reconcileInterface (id : DeclId .type) (type : DefId .type) (declared : TypeRef) :
    Visits decls search (search.reconcileInterface id type declared)
      (declaredIn declared.targets) := by
  refine (visits_resolveTypeRef declared).map fun _ => .world fun _ _ => ?_
  dsimp only
  split
  · exact .pure _
  · exact .bind (.checkWritable _) fun _ => .bind (.log _) fun _ => .changeDefs _

theorem visits_reconcileGenerics (id : DeclId .type) (type : DefId .type) (made : Bool) :
    Visits decls search (search.reconcileGenerics id type made)
      (declaredIn ((decls.type id).generics.elim [] (List.flatMap GenericParam.targets))) := by
  refine .world fun world hworld => ?_
  subst hworld
  cases (world.decls.type id).generics with
  | none => exact .pure _
  | some declared =>
      rw [Option.elim_some, declaredIn_flatMap]
      refine (Visits.mapM fun param _ => visits_resolveGenericParam param).map fun _ => ?_
      split
      · exact .changeDefs _
      · refine .world fun _ _ => ?_
        dsimp only
        split
        · exact .throw nofun
        · exact .pure _

theorem visits_reconcileOverride (id : DeclId .method) (method : DefId .method)
    (declared : Override) :
    Visits decls search (search.reconcileOverride id method declared)
      (declaredIn declared.targets) := by
  refine (visits_resolveOverride declared).map fun _ => .world fun _ _ => ?_
  dsimp only
  split
  · exact .pure _
  · exact .bind (.checkWritable _) fun _ => .bind (.log _) fun _ => .changeDefs _

theorem visits_reconcileAccessor {declaration : Declaration} {definition : Definition}
    {present : World → Accessors} {store : (Accessors → Accessors) → SessionTask Unit}
    (hstore : ∀ change, Calm decls (store change)) (role : AccessorRole)
    (declared : DeclId .method) :
    Visits decls search (search.reconcileAccessor declaration definition present store role declared)
      [.method declared] := by
  refine (visits_method declared).map fun _ => .world fun _ _ => ?_
  split
  · exact .pure _
  · exact .bind (.checkWritable _) fun _ => .bind (.log _) fun _ => hstore _

theorem visits_reconcileAccessors {declaration : Declaration} {definition : Definition}
    {present : World → Accessors} {store : (Accessors → Accessors) → SessionTask Unit}
    (hstore : ∀ change, Calm decls (store change)) (accessors : DeclaredAccessors) :
    Visits decls search
      (accessors.forM fun (role, declared) =>
        search.reconcileAccessor declaration definition present store role declared)
      (accessors.map fun entry => .method entry.2) := by
  rw [List.map_eq_flatMap]
  exact .forM fun entry _ => visits_reconcileAccessor hstore entry.1 entry.2

@[simp] theorem followers_module (id : DeclId .module) : decls.followers (.module id) = [] := rfl

theorem followers_type (id : DeclId .type) : decls.followers (.type id) =
    declaredIn ((decls.type id).base.elim [] TypeRef.targets) ++
      ((decls.type id).interfaces.flatMap (fun ref => declaredIn ref.targets) ++
        declaredIn ((decls.type id).generics.elim [] (List.flatMap GenericParam.targets))) := by
  rw [← declaredIn_flatMap]
  simp [Declarations.followers, Declarations.statement, declaredIn]

@[simp] theorem followers_field (id : DeclId .field) : decls.followers (.field id) = [] := rfl

@[simp] theorem followers_method (id : DeclId .method) : decls.followers (.method id) =
    (decls.method id).overrides.flatMap fun override => declaredIn override.targets := by
  rw [← declaredIn_flatMap]
  simp [Declarations.followers, Declarations.statement, declaredIn]

@[simp] theorem followers_property (id : DeclId .property) : decls.followers (.property id) =
    (decls.property id).accessors.map fun entry => .method entry.2 := rfl

@[simp] theorem followers_event (id : DeclId .event) : decls.followers (.event id) =
    (decls.event id).accessors.map fun entry => .method entry.2 := rfl

/-- Reconciling a definition asks for the followers of its declaration. For one that was there
before the signature is resolved once more. -/
theorem visits_reconcile {declaration : Declaration} {definition : Definition} (made : Bool)
    (hkind : definition.kind = declaration.kind) :
    Visits decls search (search.reconcile declaration definition made)
      ((if made then [] else declaredIn (decls.statement declaration).shape.targets) ++
        decls.followers declaration) := by
  -- Wherever something is checked first, what comes after is the same for a definition that was
  -- made.
  cases declaration <;> cases definition <;> cases hkind
  case module id _ =>
    cases made <;> exact .pure ()
  case type id type =>
    have hrest : Visits decls search (do
        search.reconcileBase id type made
        ((← SessionTask.world).decls.type id).interfaces.forM (search.reconcileInterface id type)
        search.reconcileGenerics id type made) (decls.followers (.type id)) := by
      rw [followers_type]
      refine (visits_reconcileBase id type made).bind fun _ => .world fun world hworld => ?_
      subst hworld
      exact (Visits.forM fun ref _ => visits_reconcileInterface id type ref).bind fun _ =>
        visits_reconcileGenerics id type made
    unfold reconcile reconcileType
    cases made with
    | true => exact hrest
    | false =>
        refine .world fun world _ => .after ?_ fun _ => hrest
        exact calm_reconcileFlags fun _ => .changeDefs _
  case field id field =>
    unfold reconcile reconcileField
    cases made with
    | true => exact .pure ()
    | false =>
        rw [followers_field, List.append_nil]
        refine .world fun world hworld => ?_
        subst hworld
        refine (visits_resolveTypeSig _).map fun _ => .world fun _ _ => ?_
        dsimp only
        split
        · exact calm_reconcileFlags fun _ => .changeDefs _
        · exact .throw nofun
  case method id method =>
    have hrest : Visits decls search (do
        ((← SessionTask.world).decls.method id).overrides.forM
          (search.reconcileOverride id method)) (decls.followers (.method id)) := by
      rw [followers_method]
      refine .world fun world hworld => ?_
      subst hworld
      exact .forM fun override _ => visits_reconcileOverride id method override
    unfold reconcile reconcileMethod
    cases made with
    | true => exact hrest
    | false =>
        refine .world fun world hworld => ?_
        subst hworld
        refine (visits_resolveMethodSig _).bind fun _ => .world fun _ _ => ?_
        dsimp only
        split
        · exact .after (calm_reconcileFlags fun _ => .changeDefs _) fun _ => hrest
        · exact .stop nofun
  case property id property =>
    have hrest : Visits decls search (do
        ((← SessionTask.world).decls.property id).accessors.forM fun (role, declared) =>
          search.reconcileAccessor (.property id) (.property property)
            (fun world => (world.defs.property property).accessors)
            (fun change => changeDefs (·.updateProperty property fun record =>
              { record with accessors := change record.accessors }))
            role declared) (decls.followers (.property id)) := by
      rw [followers_property]
      refine .world fun world hworld => ?_
      subst hworld
      exact visits_reconcileAccessors (fun _ => .changeDefs _) _
    unfold reconcile reconcileProperty
    cases made with
    | true => exact hrest
    | false =>
        refine .world fun world hworld => ?_
        subst hworld
        refine (visits_resolvePropertySig _).bind fun _ => .world fun _ _ => ?_
        dsimp only
        split
        · exact .after (calm_reconcileFlags fun _ => .changeDefs _) fun _ => hrest
        · exact .stop nofun
  case event id event =>
    have hrest : Visits decls search (do
        ((← SessionTask.world).decls.event id).accessors.forM fun (role, declared) =>
          search.reconcileAccessor (.event id) (.event event)
            (fun world => (world.defs.event event).accessors)
            (fun change => changeDefs (·.updateEvent event fun record =>
              { record with accessors := change record.accessors }))
            role declared) (decls.followers (.event id)) := by
      rw [followers_event]
      refine .world fun world hworld => ?_
      subst hworld
      exact visits_reconcileAccessors (fun _ => .changeDefs _) _
    unfold reconcile reconcileEvent
    cases made with
    | true => exact hrest
    | false =>
        refine .world fun world hworld => ?_
        subst hworld
        refine (visits_resolveTypeRef _).bind fun _ => .world fun _ _ => ?_
        dsimp only
        split
        · exact .after (calm_reconcileFlags fun _ => .changeDefs _) fun _ => hrest
        · exact .stop nofun

end Search

end Graft
