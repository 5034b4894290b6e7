import Graft.Proofs.Import.Placing

/-!
# Base types that an import declares

There are none. An import declares flags, interfaces and generic parameters of types, and never a base
type (`importPatch_unbased`): the base type of a type of the patch module is not handed on.
-/

namespace Graft

/-- Whether no type is declared with a base type that it was not declared with before. -/
def Declarations.NoMoreBases (decls decls' : Declarations) : Prop :=
  ∀ id base, (decls'.type id).base = some base → (decls.type id).base = some base

theorem Declarations.NoMoreBases.of_types {decls decls' : Declarations}
    (h : decls'.types = decls.types) : decls.NoMoreBases decls' := by
  intro id base hbase
  rwa [type, h] at hbase

namespace Task

variable {α β ι : Type} {task : Task α}

/-- Whether an operation declares no base type, whatever becomes of it. -/
def Unbased (task : Task α) : Prop :=
  ∀ world : World, world.decls.NoMoreBases (task.on world).2.decls

namespace Unbased

theorem pure (value : α) : Unbased (Pure.pure value) :=
  fun _ _ _ h => h

theorem throw (error : Error) : Unbased (MonadExcept.throw error : Task α) :=
  fun _ _ _ h => h

theorem ofExcept (outcome : Except Error α) : Unbased (MonadExcept.ofExcept outcome) := by
  cases outcome with
  | ok value => exact pure value
  | error error => exact throw error

theorem bind {next : α → Task β} (htask : Unbased task) (hnext : ∀ value, Unbased (next value)) :
    Unbased (task >>= next) := by
  intro world
  have hfirst := htask world
  rw [on_bind]
  cases hon : task.on world with
  | mk outcome middle =>
      rw [hon] at hfirst
      cases outcome with
      | error error => exact hfirst
      | ok value => exact fun id base h => hfirst id base (hnext value middle id base h)

theorem get {next : World → Task β} (hnext : ∀ world, Unbased (next world)) :
    Unbased (MonadState.get >>= next) :=
  bind (fun _ _ _ h => h) hnext

theorem onDecls {γ : Type} {ask : Declarations → γ} {next : γ → Task β}
    (hnext : ∀ value, Unbased (next value)) : Unbased (Task.onDecls ask >>= next) :=
  bind (fun _ _ _ h => h) hnext

theorem ofModify {change : World → World} (h : ∀ world, (change world).decls = world.decls) :
    Unbased (modify change) :=
  fun world => .of_types (congrArg Declarations.types (h world))

theorem changeDecls {change : Declarations → Declarations}
    (h : ∀ decls : Declarations, decls.NoMoreBases (change decls)) :
    Unbased (Task.changeDecls change) :=
  fun world => h world.decls

theorem updateType {id : DeclId .type} {change : TypeDecl → TypeDecl}
    (h : ∀ record, (change record).base = record.base) :
    Unbased (Task.changeDecls (·.updateType id change)) := by
  refine changeDecls fun decls other base hbase => ?_
  rw [Declarations.type_updateType] at hbase
  split at hbase
  · rwa [h] at hbase
  · exact hbase

theorem makeDecl {make : Declarations → α × Declarations}
    (h : ∀ decls : Declarations, decls.NoMoreBases (make decls).2) : Unbased (Task.makeDecl make) :=
  fun world => h world.decls

theorem makeType {record : TypeDecl} (h : record.base = none) :
    Unbased (Task.makeDecl (·.makeType record)) := by
  refine makeDecl fun decls id base hbase => ?_
  rw [Declarations.type_makeType] at hbase
  split at hbase
  · rw [h] at hbase
    cases hbase
  · exact hbase

theorem quiet {post : World → α → Prop} (h : ∀ world, Task.Quiet world task (post world)) :
    Unbased task :=
  fun world => .of_types (congrArg Declarations.types (h world world (.refl world)).1.decls)

theorem mapM {items : List ι} {f : ι → Task α} (h : ∀ item, Unbased (f item)) :
    Unbased (items.mapM f) := by
  induction items with
  | nil => exact pure []
  | cons item items ih =>
      rw [List.mapM_cons]
      exact .bind (h item) fun _ => .bind ih fun _ => pure _

theorem forM {items : List ι} {f : ι → Task Unit} (h : ∀ item, Unbased (f item)) :
    Unbased (items.forM f) := by
  induction items with
  | nil => exact pure ()
  | cons item items ih => exact .bind (h item) fun _ => ih

theorem foldlM {items : List ι} {f : α → ι → Task α} (h : ∀ value item, Unbased (f value item))
    (value : α) : Unbased (items.foldlM f value) := by
  induction items generalizing value with
  | nil => exact pure value
  | cons item items ih =>
      rw [List.foldlM_cons]
      exact .bind (h value item) fun value => ih value

end Unbased

/-! ## Declaring -/

theorem unbased_declareOnce {policy : Policy} {existing : Option ι} {toDeclaration : ι → Declaration}
    {make : Task ι} (h : Unbased make) : Unbased (declareOnce policy existing toDeclaration make) := by
  unfold declareOnce
  cases existing with
  | none => exact h
  | some id =>
      refine .get fun world => ?_
      dsimp only
      split
      · exact .bind (.throw _) fun _ => .pure _
      · exact .pure _

/-- Members are made and listed in their type. -/
theorem unbased_member {ι : Type} {owner : DeclId .type} {policy : Policy}
    {make : Terms → Declarations → ι × Declarations} {change : ι → TypeDecl → TypeDecl}
    (hmake : ∀ terms (decls : Declarations), decls.NoMoreBases (make terms decls).2)
    (hchange : ∀ id record, (change id record).base = record.base) :
    Unbased (do
      let id ← makeDecl (make (← memberTerms owner policy))
      changeDecls (·.updateType owner (change id))
      return id) :=
  .bind (.onDecls fun _ => .pure _) fun terms => .bind (.makeDecl (hmake terms)) fun id =>
    .bind (.updateType (hchange id)) fun _ => .pure id

theorem unbased_declareType (module : DeclId .module) (namespaceName name : String) (policy : Policy)
    (readOnly : Bool) : Unbased (declareType module namespaceName name policy readOnly) := by
  refine .onDecls fun decls => .bind (unbased_declareOnce ?_) fun id => .get fun world => ?_
  · exact .bind (.makeType rfl) fun id => .bind (.changeDecls fun _ => .of_types rfl) fun _ => .pure id
  · dsimp only
    split
    · exact .bind (.throw _) fun _ => .pure id
    · exact .pure id

theorem unbased_declareNested (owner : DeclId .type) (name : String) (policy : Policy) :
    Unbased (declareNested owner name policy) :=
  .onDecls fun _ => unbased_declareOnce (.bind (.onDecls fun _ => .pure _) fun _ =>
    .bind (.makeType rfl) fun id => .bind (.updateType fun _ => rfl) fun _ => .pure id)

theorem unbased_declareField (owner : DeclId .type) (name : String) (signature : TypeSig)
    (policy : Policy) : Unbased (declareField owner name signature policy) :=
  .onDecls fun _ => unbased_declareOnce (unbased_member (fun _ _ => .of_types rfl) fun _ _ => rfl)

theorem unbased_declareMethod (owner : DeclId .type) (name : String) (signature : MethodSig)
    (policy : Policy) : Unbased (declareMethod owner name signature policy) :=
  .get fun _ => unbased_declareOnce (unbased_member (fun _ _ => .of_types rfl) fun _ _ => rfl)

theorem unbased_declareProperty (owner : DeclId .type) (name : String) (signature : PropertySig)
    (policy : Policy) : Unbased (declareProperty owner name signature policy) :=
  .onDecls fun _ => unbased_declareOnce (unbased_member (fun _ _ => .of_types rfl) fun _ _ => rfl)

theorem unbased_declareEvent (owner : DeclId .type) (name : String) (type : TypeRef)
    (policy : Policy) : Unbased (declareEvent owner name type policy) :=
  .onDecls fun _ => unbased_declareOnce (unbased_member (fun _ _ => .of_types rfl) fun _ _ => rfl)

theorem unbased_requireModule (patch : Patch) (name : String) (policy : Policy) (readOnly : Bool) :
    Unbased (requireModule patch name policy readOnly) := by
  unfold requireModule
  refine .onDecls fun decls => ?_
  dsimp only [id_eq]
  split
  · split
    · exact .throw _
    · split
      · exact .throw _
      · exact .pure _
  · exact .bind (.makeDecl fun _ => .of_types rfl) fun _ => .pure _

theorem unbased_requireModules (patch : Patch) (required : List (String × Bool)) :
    Unbased (requireModules patch required) :=
  .foldlM (fun _ _ => .bind (unbased_requireModule _ _ _ _) fun _ => .pure _) _

end Task

namespace ImportJob

open Graft.Task

variable {job : ImportJob}

theorem unbased_changeImporter (importer : ImporterId) (change : Importer → Importer) :
    Unbased (changeImporter importer change) :=
  .ofModify fun _ => rfl

theorem unbased_declareTypes : Unbased job.declareTypes := by
  refine .get fun world => .bind (.mapM fun (id, outer) => .get fun world => ?_) fun _ => .pure _
  dsimp only
  split
  · exact .pure _
  · refine .bind ?_ fun declaration => .bind (unbased_changeImporter _ _) fun _ => .pure _
    refine .get fun world => ?_
    dsimp only
    split
    · split
      · exact .throw _
      · exact unbased_declareNested _ _ _
    · exact .bind (.ofExcept _) fun _ => unbased_declareType _ _ _ _ _

theorem unbased_declareMembers {kind : SymbolKind} {members : List (DefId kind)}
    {toDefinition : DefId kind → Definition} {outer : Intent}
    {declare : DefId kind → Token → Intent → Task (DeclId kind)}
    (h : ∀ id token intent, Unbased (declare id token intent)) :
    Unbased (job.declareMembers members toDefinition outer declare) := by
  refine .bind (.mapM fun id => .get fun world => ?_) fun _ => .pure _
  dsimp only
  split
  · exact .pure _
  · exact .bind (h _ _ _) fun _ => .pure _

theorem unbased_bindMethod (importer : ImporterId) (token : Token) (declaration : DeclId .method) :
    Unbased (importer.bindMethod token declaration) := by
  have hwork (queued : List Continuation) : Unbased (queued.forM (continueWith declaration)) :=
    .forM fun work => by cases work <;> exact .ofModify fun _ => rfl
  refine .bind (.get fun _ => .pure _) fun state => .bind (unbased_changeImporter _ _) fun _ => ?_
  split
  · exact hwork _
  · exact .get fun _ => .bind (.ofModify fun _ => rfl) fun _ => hwork _

theorem unbased_declareMembersOf (before : Members) (type : Imported .type) :
    Unbased (job.declareMembersOf before type) := by
  refine .get fun world => ?_
  refine .bind (unbased_declareMembers fun id token intent => .get fun world => ?field) fun _ =>
    .bind (unbased_declareMembers fun id token intent => .get fun world => ?method) fun _ =>
    .bind (unbased_declareMembers fun id token intent => .get fun world => ?property) fun _ =>
    .bind (unbased_declareMembers fun id token intent => .get fun world => ?event) fun _ => .pure _
  case field =>
    exact .bind (.quiet fun _ => ImporterId.quiet_importTypeSig _) fun _ =>
      .bind (unbased_declareField _ _ _ _) fun _ => .bind (unbased_changeImporter _ _) fun _ => .pure _
  case method =>
    exact .bind (.quiet fun _ => ImporterId.quiet_importMethodSig _) fun _ =>
      .bind (unbased_declareMethod _ _ _ _) fun _ => .bind (unbased_bindMethod _ _ _) fun _ => .pure _
  case property =>
    exact .bind (.quiet fun _ => ImporterId.quiet_importPropertySig) fun _ =>
      unbased_declareProperty _ _ _ _
  case event =>
    exact .bind (.quiet fun _ => ImporterId.quiet_importTypeRef _) fun _ =>
      unbased_declareEvent _ _ _ _

theorem unbased_detailType (type : Imported .type) : Unbased (job.detailType type) := by
  refine .get fun world => .bind (.updateType fun _ => rfl) fun _ => .bind (.forM fun interface => ?_)
    fun _ => ?_
  · refine .bind (.quiet fun _ => ImporterId.quiet_importTypeRef _) fun _ => .get fun world => ?_
    dsimp only
    split
    · exact .pure _
    · exact .updateType fun _ => rfl
  · split
    · exact .pure _
    · exact .bind (.mapM fun _ => .quiet fun _ => ImporterId.quiet_importGenericParam) fun _ =>
        .updateType fun _ => rfl

theorem unbased_detailMethod (method : Imported .method) : Unbased (job.detailMethod method) := by
  refine .get fun world => .bind (.changeDecls fun _ => .of_types rfl) fun _ =>
    .bind (.forM fun override => ?_) fun _ => ?_
  · exact .bind (.quiet fun _ => ImporterId.quiet_importOverride) fun _ =>
      .changeDecls fun _ => .of_types rfl
  · split
    · exact .changeDecls fun _ => .of_types rfl
    · exact .pure _

end ImportJob

open Graft.Task in
/-- Importing a patch module declares no base type for any type. -/
theorem importPatch_unbased (module : DefId .module) (manifest : Manifest) :
    Unbased (importPatch module manifest) := by
  refine .bind (fun _ => .of_types rfl) fun importer => .get fun world =>
    .bind (unbased_requireModules _ _) fun (patch, targets) => ?_
  refine .bind ImportJob.unbased_declareTypes fun types =>
    .bind (.foldlM ImportJob.unbased_declareMembersOf _) fun members =>
    .bind (.forM ImportJob.unbased_detailType) fun _ =>
    .bind (.forM fun field => .get fun world => .changeDecls fun _ => .of_types rfl) fun _ =>
    .bind (.forM ImportJob.unbased_detailMethod) fun _ =>
    .bind (.forM fun property => .get fun world => .changeDecls fun _ => .of_types rfl) fun _ =>
    .bind (.forM fun event => .get fun world => .changeDecls fun _ => .of_types rfl) fun _ => ?_
  exact .bind (.ofModify fun _ => rfl) fun _ => .pure patch

end Graft
