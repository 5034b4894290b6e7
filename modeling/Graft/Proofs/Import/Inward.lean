import Graft.Proofs.Session.Running

/-!
# What imports have nothing to do with

Importing a reference works on definitions, declarations and importers. It looks at neither the
sources nor the log, and leaves both as they are: in worlds that differ in nothing else it does the
same (`Task.Inward`).
-/

namespace Graft

/-- The world with other books of its sources, and another log. -/
def World.beside (world : World) (sources : Table Source) (log : Array LogEntry) : World :=
  { world with sources, log }

namespace Task

variable {α β : Type}

/-- Whether a task does the same whatever the sources and the log are, and leaves them alone. -/
def Inward (task : Task α) : Prop :=
  ∀ world sources log, task.on (world.beside sources log) =
    ((task.on world).1, (task.on world).2.beside sources log)

namespace Inward

theorem pure (value : α) : Inward (Pure.pure value) :=
  fun _ _ _ => rfl

theorem throw (error : Error) : Inward (MonadExcept.throw error : Task α) :=
  fun _ _ _ => rfl

theorem modify {change : World → World}
    (h : ∀ world sources log, change (world.beside sources log) = (change world).beside sources log) :
    Inward (MonadState.modifyGet fun world => (PUnit.unit, change world)) :=
  fun world sources log => congrArg (Except.ok PUnit.unit, ·) (h world sources log)

theorem bind {task : Task α} {next : α → Task β} (htask : Inward task)
    (hnext : ∀ value, Inward (next value)) : Inward (task >>= next) := by
  intro world sources log
  rw [on_bind, on_bind, htask]
  cases task.on world with
  | mk outcome middle =>
      cases outcome with
      | error error => rfl
      | ok value => exact hnext value middle sources log

theorem get {next : World → Task β}
    (hsame : ∀ world sources log, next (world.beside sources log) = next world)
    (hnext : ∀ world, Inward (next world)) : Inward (MonadState.get >>= next) := by
  intro world sources log
  rw [on_bind, on_get, on_bind, on_get]
  dsimp only
  rw [hsame]
  exact hnext world world sources log

end Inward

end Task

namespace ImporterId

open Graft.Task

variable (importer : ImporterId)

/-! ## Slots and waiting work -/

theorem inward_continueWith (method : DeclId .method) (work : Continuation) :
    Inward (continueWith method work) := by
  cases work with
  | own slot => exact .modify fun _ _ _ => rfl
  | notify label => exact .modify fun _ _ _ => rfl

theorem inward_defer (token : Token) (work : Continuation) :
    Inward (importer.defer token work) := by
  refine .bind (.get (fun _ _ _ => rfl) fun _ => .pure _) fun found => ?_
  cases found with
  | some declaration => exact inward_continueWith declaration work
  | none => exact .modify fun _ _ _ => rfl

theorem inward_slotFor (token : Token) : Inward (importer.slotFor token) := by
  refine .bind (.get (fun _ _ _ => rfl) fun _ => .pure _) fun state => ?_
  cases state.deferred.get? token with
  | some slot => exact .pure _
  | none =>
      have hmake : Inward makeSlot := fun _ _ _ => rfl
      refine .bind hmake fun slot => .bind (inward_defer importer token _) fun _ => ?_
      exact .bind (.modify fun _ _ _ => rfl) fun _ => .pure _

/-! ## References to definitions -/

theorem inward_importTypeDef (id : DefId .type) : Inward (importer.importTypeDef id) := by
  refine .get (fun _ _ _ => rfl) fun world => ?_
  split
  · split
    · exact .pure _
    · exact .throw _
  · exact .pure _

theorem inward_importMethodDef (id : DefId .method) : Inward (importer.importMethodDef id) := by
  refine .get (fun _ _ _ => rfl) fun world => ?_
  split
  · split
    · exact .pure _
    · exact .throw _
  · exact .pure _

theorem inward_importOwnerDef (id : DefId .method) : Inward (importer.importOwnerDef id) := by
  refine .get (fun _ _ _ => rfl) fun world => ?_
  split
  · dsimp only
    split
    · exact .pure _
    · exact .bind (inward_slotFor importer _) fun _ => .pure _
  · exact .pure _

/-! ## References and signatures -/

mutual

theorem inward_importTypeRef (ref : TypeRef) : Inward (importer.importTypeRef ref) := by
  cases ref with
  | definition id =>
      rw [importTypeRef]
      exact inward_importTypeDef importer id
  | external type | declared id =>
      rw [importTypeRef]
      exact .pure _
  | constructed signature =>
      rw [importTypeRef]
      exact .bind (inward_importTypeSig signature) fun _ => .pure _
termination_by structural ref

theorem inward_importMethodRef (ref : MethodRef) : Inward (importer.importMethodRef ref) := by
  cases ref with
  | definition id =>
      rw [importMethodRef]
      exact inward_importMethodDef importer id
  | declared id =>
      rw [importMethodRef]
      exact .pure _
  | external owner name signature =>
      rw [importMethodRef]
      refine .bind (inward_importTypeRef owner) fun owner' => ?_
      exact .bind (inward_importMethodSig signature) fun _ => .pure _
  | instantiated method args =>
      rw [importMethodRef]
      refine .bind (inward_importMethodRef method) fun method' => ?_
      exact .bind (inward_importTypeSigs args) fun _ => .pure _
termination_by structural ref

theorem inward_importOwner (owner : VarOwner) : Inward (importer.importOwner owner) := by
  cases owner with
  | unbound | deferred slot =>
      rw [importOwner]
      exact .pure _
  | type owner =>
      rw [importOwner]
      exact .bind (inward_importTypeRef owner) fun _ => .pure _
  | method owner =>
      cases owner with
      | definition id =>
          rw [importOwner]
          exact inward_importOwnerDef importer id
      | declared id =>
          rw [importOwner]
          exact .pure _
      | external type name signature =>
          rw [importOwner]
          refine .bind (inward_importTypeRef type) fun type' => ?_
          exact .bind (inward_importMethodSig signature) fun _ => .pure _
      | instantiated method args =>
          rw [importOwner]
          refine .bind (inward_importMethodRef method) fun method' => ?_
          exact .bind (inward_importTypeSigs args) fun _ => .pure _
termination_by structural owner

theorem inward_importTypeSig (signature : TypeSig) :
    Inward (importer.importTypeSig signature) := by
  cases signature with
  | unknown =>
      rw [importTypeSig]
      exact .throw _
  | sentinel | primitive type =>
      rw [importTypeSig]
      exact .pure _
  | classType type | valueType type =>
      rw [importTypeSig]
      exact .bind (inward_importTypeRef type) fun _ => .pure _
  | genericVar kind index owner =>
      rw [importTypeSig]
      exact .bind (inward_importOwner owner) fun _ => .pure _
  | function signature =>
      rw [importTypeSig]
      exact .bind (inward_importMethodSig signature) fun _ => .pure _
  | applied generic args =>
      rw [importTypeSig]
      refine .bind (inward_importTypeSig generic) fun generic' => ?_
      exact .bind (inward_importTypeSigs args) fun _ => .pure _
  | pointer inner | byRef inner | vector inner | pinned inner | array inner shape
  | inModule index inner =>
      rw [importTypeSig]
      exact .bind (inward_importTypeSig inner) fun _ => .pure _
  | required modifier inner | optional modifier inner =>
      rw [importTypeSig]
      refine .bind (inward_importTypeRef modifier) fun modifier' => ?_
      exact .bind (inward_importTypeSig inner) fun _ => .pure _
termination_by structural signature

theorem inward_importMethodSig (signature : MethodSig) :
    Inward (importer.importMethodSig signature) := by
  obtain ⟨callConv, genericCount, result, params, varargs⟩ := signature
  rw [importMethodSig]
  refine .bind (inward_importTypeSig result) fun result' => ?_
  refine .bind (inward_importTypeSigs params) fun params' => ?_
  exact .bind (inward_importTypeSigs varargs) fun _ => .pure _
termination_by structural signature

theorem inward_importTypeSigs (signatures : List TypeSig) :
    Inward (importer.importTypeSigs signatures) := by
  cases signatures with
  | nil =>
      rw [importTypeSigs]
      exact .pure _
  | cons signature rest =>
      rw [importTypeSigs]
      refine .bind (inward_importTypeSig signature) fun signature' => ?_
      exact .bind (inward_importTypeSigs rest) fun _ => .pure _
termination_by structural signatures

end

theorem inward_importFieldRef (ref : FieldRef) : Inward (importer.importFieldRef ref) := by
  cases ref with
  | definition id =>
      refine .get (fun _ _ _ => rfl) fun world => ?_
      split
      · split
        · exact .pure _
        · exact .throw _
      · exact .pure _
  | declared id => exact .pure _
  | external owner name signature =>
      refine .bind (inward_importTypeRef importer owner) fun owner' => ?_
      exact .bind (inward_importTypeSig importer signature) fun _ => .pure _

end ImporterId

end Graft
