import Graft.Proofs.Install.Parts

/-!
# Two runs side by side

The same operation started in two states, or two operations started in the same one. A `Pairing`
says which states no operation can tell apart and which failures are to be expected; two operations
are coupled (`Couples`) when they come to the same end from such states. One lemma for every way of
putting operations together, and for every operation that asks no search for anything.
-/

namespace Graft

/-! ## Worlds with the same links -/

namespace World.SameLinks

variable {world world' : World}

theorem typeNames (h : world.SameLinks world') : world'.typeNames = world.typeNames := by
  simp only [World.typeNames, h.defs, h.decls]

theorem slot? (h : world.SameLinks world') (id : SlotId) : world'.slot? id = world.slot? id := by
  simp only [World.slot?, h.slots]

theorem methodName (h : world.SameLinks world') (id : DefId .method) :
    world'.methodName id = world.methodName id := by
  simp only [World.methodName, h.defs, h.typeNames]

theorem defName (h : world.SameLinks world') (definition : Definition) :
    world'.defName definition = world.defName definition := by
  cases definition <;> simp only [World.defName, h.defs, h.methodName]

theorem methodDeclName (h : world.SameLinks world') (id : DeclId .method) :
    world'.methodDeclName id = world.methodDeclName id := by
  simp only [World.methodDeclName, h.decls, h.typeNames]

theorem declSymbol (h : world.SameLinks world') (declaration : Declaration) :
    world'.declSymbol declaration = world.declSymbol declaration := by
  cases declaration <;>
    simp only [World.declSymbol, World.declName, h.decls, h.methodDeclName]

theorem typeRefName (h : world.SameLinks world') (ref : TypeRef) :
    world'.typeRefName ref = world.typeRefName ref := by
  simp only [World.typeRefName, h.typeNames]

theorem methodRefName (h : world.SameLinks world') (ref : MethodRef) :
    world'.methodRefName ref = world.methodRefName ref := by
  cases ref with
  | definition | declared | external =>
      simp only [World.methodRefName, h.defs, h.decls, h.methodName, h.methodDeclName, h.typeNames,
        h.typeRefName]
  | instantiated method args =>
      simp only [World.methodRefName, h.typeNames, h.methodRefName method]
termination_by structural ref

theorem checkWritable (h : world.SameLinks world') (declaration : Declaration) :
    declaration.checkWritable world' = declaration.checkWritable world := by
  simp only [Declaration.checkWritable, h.decls, h.declSymbol]

theorem mustCreate (h : world.SameLinks world') (declaration : Declaration) (found : Bool) :
    declaration.mustCreate world' found = declaration.mustCreate world found := by
  simp only [Declaration.mustCreate, h.decls, h.declSymbol]

theorem kindMismatch (h : world.SameLinks world') (declaration : Declaration)
    (found : Definition) :
    kindMismatch world' declaration found = kindMismatch world declaration found := by
  simp only [Graft.kindMismatch, h.declSymbol]

theorem detached (h : world.SameLinks world') (declaration : Declaration) :
    detached world' declaration = detached world declaration := by
  simp only [Graft.detached, h.declSymbol]

end World.SameLinks

/-! ## Coupled operations -/

/-- Whether an error says of a symbol that what it stands for is missing or does not fit. -/
def Error.Disputes (error : Error) (symbol : Symbol) : Prop :=
  error = .notFound symbol ∨ ∃ mismatch, error = .incompatible symbol mismatch

/-- Whether an error disputes no symbol and does not say that resolutions run in a circle. -/
def Error.Plain : Error → Prop
  | .notFound _ | .incompatible .. | .cyclic _ => False
  | _ => True

theorem Error.Disputes.acyclic {error : Error} {symbol : Symbol} (h : error.Disputes symbol) :
    error.Acyclic := by
  rcases h with rfl | ⟨mismatch, rfl⟩ <;> exact nofun

theorem Error.Plain.acyclic {error : Error} (h : error.Plain) : error.Acyclic := by
  rintro symbol rfl
  exact h

theorem Error.Plain.not_disputes {error : Error} {symbol : Symbol} (h : error.Plain) :
    ¬ error.Disputes symbol := by
  rintro (rfl | ⟨mismatch, rfl⟩) <;> exact h

/-- Which states are alike, and which failures may come about in them. -/
structure Pairing where
  Alike : SessionState → SessionState → Prop
  Expected : SessionState → Error → Prop

namespace Pairing

open SessionTask

variable {α β ι : Type}

/-- Whether two outcomes are the same, an expected failure if they are one, in states that are
alike. -/
structure Agree (P : Pairing) (left right : Except Error α × SessionState) : Prop where
  outcome : left.1 = right.1
  alike : P.Alike left.2 right.2
  expected : ∀ error, left.1 = .error error → P.Expected left.2 error

/-- Whether two operations come to the same end in states that are alike. -/
def Couples (P : Pairing) (task task' : SessionTask α) : Prop :=
  ∀ left right, P.Alike left right → P.Agree (task.on left) (task'.on right)

/-- Whether two operations come to the same end in states that are alike, of which the first has a
certain world. -/
def CouplesIn (P : Pairing) (world : World) (task task' : SessionTask α) : Prop :=
  ∀ left right, P.Alike left right → left.world = world → P.Agree (task.on left) (task'.on right)

/-- Whether it is to be expected of a declaration that its definition is missing or does not fit. -/
def Doubts (P : Pairing) (declaration : Declaration) : Prop :=
  ∀ state error, error.Disputes (state.world.declSymbol declaration) → P.Expected state error

/-- Whether states that are alike have the same definitions, declarations and slots, and plain
failures are to be expected. -/
structure Linked (P : Pairing) (decls : Declarations) : Prop where
  decls_eq : ∀ left right, P.Alike left right → left.world.decls = decls
  links : ∀ left right, P.Alike left right → left.world.SameLinks right.world
  expected : ∀ error : Error, error.Plain → ∀ state, P.Expected state error

/-- What it takes for the basic operations to come to the same end in states that are alike. -/
structure Lawful (P : Pairing) (decls : Declarations) : Prop extends P.Linked decls where
  changeDefs : ∀ change : Definitions → Definitions,
    P.Couples (SessionTask.changeDefs change) (SessionTask.changeDefs change)
  log : ∀ entry, P.Couples (SessionTask.log entry) (SessionTask.log entry)
  module? : ∀ name, P.Couples (SessionTask.module? name) (SessionTask.module? name)
  keepModule : ∀ name module,
    P.Couples
      (changeSession fun session =>
        { session with modules := session.modules.insert name module })
      (changeSession fun session =>
        { session with modules := session.modules.insert name module })

variable {P : Pairing} {decls : Declarations}

/-- What comes next may rely on the answer being one that the first operation gives. -/
theorem Agree.bind {task task' : SessionTask α} {next next' : α → SessionTask β}
    {left right : SessionState} (hfirst : P.Agree (task.on left) (task'.on right))
    (hnext : ∀ value middle middle', task.on left = (.ok value, middle) → P.Alike middle middle' →
      P.Agree ((next value).on middle) ((next' value).on middle')) :
    P.Agree ((task >>= next).on left) ((task' >>= next').on right) := by
  rw [on_bind, on_bind]
  cases hleft : task.on left with
  | mk outcome middle =>
      cases hright : task'.on right with
      | mk outcome' middle' =>
          rw [hleft, hright] at hfirst
          obtain rfl : outcome = outcome' := hfirst.outcome
          cases outcome with
          | error error =>
              refine ⟨rfl, hfirst.alike, fun failure hfailure => ?_⟩
              cases hfailure
              exact hfirst.expected error rfl
          | ok value =>
              exact hnext value middle middle' hleft hfirst.alike

/-- Both read the worlds that they have. -/
theorem Agree.world {next next' : World → SessionTask α} {left right : SessionState}
    (h : P.Agree ((next left.world).on left) ((next' right.world).on right)) :
    P.Agree ((SessionTask.world >>= next).on left) ((SessionTask.world >>= next').on right) := by
  rwa [on_bind, on_world, on_bind, on_world]

namespace Couples

theorem pure (value : α) : P.Couples (Pure.pure value) (Pure.pure value) :=
  fun _ _ halike => ⟨rfl, halike, nofun⟩

/-- What comes next may rely on the answer being one that the first operation gives. -/
theorem bind_of {task task' : SessionTask α} {next next' : α → SessionTask β}
    (htask : P.Couples task task')
    (hnext : ∀ left right value middle, P.Alike left right → task.on left = (.ok value, middle) →
      P.Couples (next value) (next' value)) :
    P.Couples (task >>= next) (task' >>= next') :=
  fun left right halike => (htask left right halike).bind fun value middle middle' hon =>
    hnext left right value middle halike hon middle middle'

theorem bind {task task' : SessionTask α} {next next' : α → SessionTask β}
    (htask : P.Couples task task') (hnext : ∀ value, P.Couples (next value) (next' value)) :
    P.Couples (task >>= next) (task' >>= next') :=
  htask.bind_of fun _ _ value _ _ _ => hnext value

theorem map {task task' : SessionTask α} (f : α → β) (htask : P.Couples task task') :
    P.Couples (f <$> task) (f <$> task') := by
  rw [← bind_pure_comp, ← bind_pure_comp]
  exact htask.bind fun value => pure (f value)

theorem mapM {f f' : ι → SessionTask α} {items : List ι}
    (h : ∀ item ∈ items, P.Couples (f item) (f' item)) :
    P.Couples (items.mapM f) (items.mapM f') := by
  induction items with
  | nil => exact pure []
  | cons item items ih =>
      rw [List.mapM_cons, List.mapM_cons]
      refine (h item List.mem_cons_self).bind fun value => ?_
      exact (ih fun other hmem => h other (List.mem_cons_of_mem _ hmem)).bind fun _ => pure _

theorem forM {f f' : ι → SessionTask Unit} {items : List ι}
    (h : ∀ item ∈ items, P.Couples (f item) (f' item)) :
    P.Couples (items.forM f) (items.forM f') := by
  induction items with
  | nil => exact pure ()
  | cons item items ih =>
      refine (h item List.mem_cons_self).bind fun _ => ?_
      exact ih fun other hmem => h other (List.mem_cons_of_mem _ hmem)

theorem throw {error error' : Error} (heq : error' = error)
    (hexpected : ∀ state, P.Expected state error) :
    P.Couples (MonadExcept.throw error : SessionTask α) (MonadExcept.throw error') := by
  subst heq
  intro left right halike
  refine ⟨rfl, halike, fun failure hfailure => ?_⟩
  cases hfailure
  exact hexpected left

theorem ofExcept {outcome outcome' : Except Error α} (heq : outcome' = outcome)
    (hexpected : ∀ error, outcome = .error error → ∀ state, P.Expected state error) :
    P.Couples (MonadExcept.ofExcept outcome) (MonadExcept.ofExcept outcome') := by
  subst heq
  intro left right halike
  rw [on_ofExcept, on_ofExcept]
  exact ⟨rfl, halike, fun error herror => hexpected error herror left⟩

theorem inside {task task' : SessionTask α} (h : P.Couples task task') (world : World) :
    P.CouplesIn world task task' :=
  fun left right halike _ => h left right halike

end Couples

namespace CouplesIn

variable {world : World} {declaration : Declaration}

theorem bind {task task' : SessionTask α} {next next' : α → SessionTask β}
    (htask : P.CouplesIn world task task') (hnext : ∀ value, P.Couples (next value) (next' value)) :
    P.CouplesIn world (task >>= next) (task' >>= next') :=
  fun left right halike hworld => (htask left right halike hworld).bind
    fun value middle middle' _ => hnext value middle middle'

theorem ofExcept {outcome outcome' : Except Error α} (heq : outcome' = outcome)
    (hexpected : ∀ error, outcome = .error error → ∀ state, state.world = world →
      P.Expected state error) :
    P.CouplesIn world (MonadExcept.ofExcept outcome) (MonadExcept.ofExcept outcome') := by
  subst heq
  intro left right halike hworld
  rw [on_ofExcept, on_ofExcept]
  exact ⟨rfl, halike, fun error herror => hexpected error herror left hworld⟩

/-- What is found does not fit its declaration, and that is to be expected. -/
theorem mismatch (hdoubts : P.Doubts declaration) (mismatch : Mismatch) :
    P.CouplesIn world
      (MonadExcept.throw (.incompatible (world.declSymbol declaration) mismatch) : SessionTask α)
      (MonadExcept.throw (.incompatible (world.declSymbol declaration) mismatch)) := by
  rintro left right halike rfl
  refine ⟨rfl, halike, fun failure hfailure => ?_⟩
  cases hfailure
  exact hdoubts left _ (.inr ⟨mismatch, rfl⟩)

end CouplesIn

namespace Linked

/-- Whatever is done with the world is done with the same definitions, declarations and slots. -/
theorem worldIn (law : P.Linked decls) {next next' : World → SessionTask α}
    (hnext : ∀ world world' : World, world.SameLinks world' → world.decls = decls →
      P.CouplesIn world (next world) (next' world')) :
    P.Couples (SessionTask.world >>= next) (SessionTask.world >>= next') := by
  intro left right halike
  exact Agree.world (hnext left.world right.world (law.links left right halike)
    (law.decls_eq left right halike) left right halike rfl)

theorem world (law : P.Linked decls) {next next' : World → SessionTask α}
    (hnext : ∀ world world' : World, world.SameLinks world' → world.decls = decls →
      P.Couples (next world) (next' world')) :
    P.Couples (SessionTask.world >>= next) (SessionTask.world >>= next') :=
  law.worldIn fun world world' hlinks hdecls => (hnext world world' hlinks hdecls).inside world

variable (law : P.Linked decls)

include law

/-- What comes after the check is done for a declaration that exists. -/
theorem checkLiving {declaration : Declaration} {next next' : Unit → SessionTask α}
    (hnext : decls.has declaration = true → P.Couples (next ()) (next' ())) :
    P.Couples (Search.checkLiving declaration >>= next)
      (Search.checkLiving declaration >>= next') := by
  unfold Search.checkLiving
  rw [bind_assoc, bind_assoc]
  refine law.world fun world world' hlinks hdecls => ?_
  rw [hlinks.decls, hdecls]
  cases hhas : decls.has declaration with
  | true => exact hnext hhas
  | false => exact .throw rfl (law.expected _ trivial)

theorem checkOwner (kind : VarKind) (index : UInt32) (owner : VarOwner) :
    P.Couples (Search.checkOwner kind index owner) (Search.checkOwner kind index owner) := by
  cases owner with
  | deferred slot =>
      refine law.world fun world world' hlinks _ => ?_
      rw [hlinks.slot?]
      split
      · exact .throw rfl (law.expected _ trivial)
      · exact .pure _
  | unbound | type | method => exact .pure _

end Linked

namespace Lawful

variable (law : P.Lawful decls)

include law

/-- What is made is the same, since it is made in the same definitions. -/
theorem makeDef (make : Definitions → α × Definitions) :
    P.Couples (SessionTask.makeDef make) (SessionTask.makeDef make) := by
  intro left right halike
  have hdefs := (law.links left right halike).defs
  have hchange := law.changeDefs (fun defs => (make defs).2) left right halike
  rw [on_changeDefs, on_changeDefs] at hchange
  rw [on_makeDef, on_makeDef]
  exact ⟨by rw [hdefs], hchange.alike, nofun⟩

theorem checkWritable (declaration : Declaration) :
    P.Couples (SessionTask.checkWritable declaration) (SessionTask.checkWritable declaration) := by
  refine law.world fun world world' hlinks _ => ?_
  refine .ofExcept (hlinks.checkWritable declaration) fun error herror => law.expected _ ?_
  unfold Declaration.checkWritable at herror
  split at herror <;> cases herror
  trivial

theorem findOrCreate {found : Option ι} {create create' : SessionTask ι} {declaration : Declaration}
    (hdoubts : P.Doubts declaration) (hcreate : P.Couples create create') :
    P.Couples (SessionTask.findOrCreate declaration found create)
      (SessionTask.findOrCreate declaration found create') := by
  refine law.worldIn fun world world' hlinks _ => ?_
  refine .bind (.ofExcept (hlinks.mustCreate declaration _) fun error herror state hworld => ?_)
    fun _ => ?_
  · unfold Declaration.mustCreate at herror
    split at herror <;> cases herror
    · exact law.expected (.alreadyExists _) trivial state
    · exact hdoubts state _ (hworld ▸ .inl rfl)
  · split
    · exact .pure _
    · refine (law.checkWritable declaration).bind fun _ => hcreate.bind fun made => ?_
      refine law.world fun world world' hlinks _ => ?_
      rw [hlinks.declSymbol]
      exact (law.log _).bind fun _ => .pure _

theorem reconcileFlags {scheme : FlagScheme} {declaration : Declaration} {nested : Bool}
    {existing : UInt32} {declared : Option UInt32} {store store' : UInt32 → SessionTask Unit}
    (hstore : ∀ flags, P.Couples (store flags) (store' flags)) :
    P.Couples (Search.reconcileFlags scheme declaration nested existing declared store)
      (Search.reconcileFlags scheme declaration nested existing declared store') := by
  unfold Search.reconcileFlags
  cases declared with
  | none => exact .pure _
  | some declared =>
      refine law.world fun world world' hlinks _ => ?_
      dsimp only
      rw [hlinks.decls, hlinks.declSymbol]
      split
      · exact .pure _
      · exact (law.checkWritable _).bind fun _ => (law.log _).bind fun _ => hstore _

end Lawful

end Pairing

end Graft
