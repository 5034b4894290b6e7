import Graft.Proofs.Import.Inward
import Graft.Proofs.Pairing.Resolving
import Graft.Proofs.Session.Entangled
import Graft.Proofs.Transplant.Carrying

/-!
# Transplanting side by side

A body that is put in place twice, from states that are alike, is carried over in the same way
(`couples_transplant`), provided that what it refers to is resolved in the same way and that importers
cannot tell the states apart (`Pairing.Carrying`). There is one lemma for every part of a transplant.
-/

namespace Graft

open SessionTask

/-- Which references stand for the base body does not depend on sources or the log. -/
theorem Transformer.isBase_beside (transformer : Transformer) (world : World)
    (sources : Table Source) (log : Array LogEntry) :
    transformer.isBase (world.beside sources log) = transformer.isBase world := by
  cases transformer <;> rfl

theorem Transformer.tokenScope?_beside (transformer : Transformer) (world : World)
    (sources : Table Source) (log : Array LogEntry) :
    transformer.tokenScope? (world.beside sources log) = transformer.tokenScope? world := by
  cases transformer <;> rfl

namespace Pairing

variable {P : Pairing} {decls : Declarations} {asked : Declaration → Prop} {α β ι : Type}

/-! ## Coupled parts of a transplant -/

/-- Whether two parts of transplants come to the same end in states that are alike. -/
def CouplesParts (P : Pairing) (task task' : TransplantTask α) : Prop :=
  ∀ context, P.Couples (task.run context) (task'.run context)

namespace CouplesParts

theorem pure (value : α) : P.CouplesParts (Pure.pure value) (Pure.pure value) :=
  fun _ => .pure _

theorem throw (hexpected : ∀ error state, P.Expected state error) (error : Error) :
    P.CouplesParts (MonadExcept.throw error : TransplantTask α) (MonadExcept.throw error) :=
  fun _ => Couples.throw rfl (hexpected error)

theorem ofExcept (hexpected : ∀ error state, P.Expected state error) (outcome : Except Error α) :
    P.CouplesParts (MonadExcept.ofExcept outcome) (MonadExcept.ofExcept outcome) := by
  cases outcome with
  | error error => exact throw hexpected error
  | ok value => exact pure value

theorem bind {task task' : TransplantTask α} {next next' : α → TransplantTask β}
    (htask : P.CouplesParts task task') (hnext : ∀ value, P.CouplesParts (next value) (next' value)) :
    P.CouplesParts (task >>= next) (task' >>= next') :=
  fun context => (htask context).bind fun outcome => hnext outcome.1 outcome.2

theorem lift {task task' : SessionTask α} (h : P.Couples task task') :
    P.CouplesParts (task : TransplantTask α) (task' : TransplantTask α) :=
  fun _ => h.bind fun _ => .pure _

theorem get {next next' : TransplantContext → TransplantTask β}
    (hnext : ∀ context, P.CouplesParts (next context) (next' context)) :
    P.CouplesParts (MonadState.get >>= next) (MonadState.get >>= next') :=
  fun context => hnext context context

theorem set (context : TransplantContext) :
    P.CouplesParts (MonadState.set context : TransplantTask PUnit) (MonadState.set context) :=
  fun _ => .pure _

theorem mapM {f f' : ι → TransplantTask α} {items : List ι}
    (h : ∀ item ∈ items, P.CouplesParts (f item) (f' item)) :
    P.CouplesParts (items.mapM f) (items.mapM f') := by
  induction items with
  | nil => exact pure []
  | cons item items ih =>
      rw [List.mapM_cons, List.mapM_cons]
      refine (h item List.mem_cons_self).bind fun value => ?_
      exact (ih fun other hmem => h other (List.mem_cons_of_mem _ hmem)).bind fun _ => pure _

end CouplesParts

/-- What it takes for bodies to be carried over in the same way from states that are alike: these
differ at most in what they remember, in sources and in the log, and whatever bodies lead to is resolved
in the same way. -/
structure Carrying (P : Pairing) (decls : Declarations) (asked : Declaration → Prop) : Prop
    extends P.Lawful decls where
  beside : ∀ left right, P.Alike left right →
    ∃ sources log, right.world = left.world.beside sources log
  reaches : ∀ left right, P.Alike left right → left.world.Reaches [] asked
  any : ∀ error state, P.Expected state error
  resolve : ∀ declaration, asked declaration →
    P.Couples (SessionTask.resolve declaration) (SessionTask.resolve declaration)
  imports : ∀ {α : Type} {task : Task α} (_ : task.Inward)
    (_ : ∀ world, Task.Quiet world task fun _ => True), P.Couples (ofTask task) (ofTask task)

namespace Carrying

variable (law : P.Carrying decls asked)

include law

/-- What is done with a world is done in the same way if it does not depend on sources or the log. -/
theorem world {next : World → TransplantTask β}
    (hsame : ∀ (world : World) sources log, next (world.beside sources log) = next world)
    (hnext : ∀ world : World, world.decls = decls → world.Reaches [] asked →
      P.CouplesParts (next world) (next world)) :
    P.CouplesParts ((SessionTask.world : TransplantTask World) >>= next)
      ((SessionTask.world : TransplantTask World) >>= next) := by
  intro context left right halike
  obtain ⟨sources, log, hright⟩ := law.beside left right halike
  have h := hnext left.world (law.decls_eq left right halike) (law.reaches left right halike) context
    left right halike
  show P.Agree (((next left.world).run context).on left) (((next right.world).run context).on right)
  rwa [hright, hsame]

theorem couplesAll {targets : List Target} (h : Moment.Asks asked decls targets) :
    P.CouplesAll decls SessionTask.resolve SessionTask.resolve (declaredIn targets) :=
  fun declaration hmem hhas =>
    law.resolve declaration (h declaration (Declarations.mem_declaredIn.mp hmem) hhas)

/-- Importing something and resolving it. -/
theorem couples_carry {transformer : Transformer} {targets : α → List Target}
    {relink : Relink → α → α} {importWith : ImporterId → α → Task α}
    {resolveWith : α → SessionTask α} {value : α} (hrelinks : Relinks targets relink)
    (hinward : ∀ importer, (importWith importer value).Inward)
    (himport : ∀ importer world, Task.Quiet world (importWith importer value) fun imported =>
      (∀ target ∈ targets value, world.Imports importer target) ∧
        relink .bare imported = relink .bare (relink (world.bind importer) value))
    (hresolve : ∀ imported,
      P.CouplesAll decls SessionTask.resolve SessionTask.resolve (declaredIn (targets imported)) →
      P.Couples (resolveWith imported) (resolveWith imported))
    (htransformer : ∀ left right, P.Alike left right → transformer.Asks asked left.world)
    (hasks : Moment.Asks asked decls (targets value)) :
    P.CouplesParts (do (resolveWith (← transformer.enter importWith value) : SessionTask α))
      (do (resolveWith (← transformer.enter importWith value) : SessionTask α)) := by
  cases transformer with
  | plain | redirecting =>
      exact fun context => (hresolve value (law.couplesAll hasks)).bind fun _ => .pure _
  | importing importer bases =>
      have hquiet (world : World) : Task.Quiet world (importWith importer value) fun _ => True :=
        fun other hother => ⟨(himport importer world other hother).1, fun _ _ => trivial⟩
      intro context
      simp only [Transformer.enter, StateT.run_bind, StateT.run_monadLift, monadLift_self, bind_assoc,
        pure_bind]
      refine (law.imports (hinward importer) hquiet).bind_of ?_
      intro left right imported middle halike hon
      -- What is imported leads to what the importer binds.
      have himported : ((importWith importer value).on left.world).1 = .ok imported := by
        rw [on_ofTask] at hon
        exact congrArg Prod.fst hon
      obtain ⟨-, hbound⟩ := (himport importer left.world left.world (.refl _)).2 imported himported
      have htargets : targets imported =
          (targets value).flatMap
            (Transformer.bind (.importing importer bases) left.world).image := by
        rw [hrelinks.targets_of_bare hbound, hrelinks.targets_relink]
        rfl
      have hdecls := law.decls_eq left right halike
      have hasks' : Moment.Asks asked decls (targets imported) := by
        rw [htargets, ← hdecls]
        exact Moment.asks_bind (htransformer left right halike) (hdecls ▸ hasks)
      exact (hresolve imported (law.couplesAll hasks')).bind fun _ => .pure _

/-! ## References -/

theorem couples_baseMethod :
    P.CouplesParts TransplantTask.baseMethod TransplantTask.baseMethod := by
  refine CouplesParts.get fun context => ?_
  cases context.hidden with
  | some hidden => exact .pure hidden
  | none =>
      refine law.world (fun _ _ _ => rfl) fun world _ _ => ?_
      dsimp only
      cases world.defs.living? (world.defs.method context.method).owner with
      | none => exact .throw law.any _
      | some owner =>
          refine (CouplesParts.ofExcept law.any _).bind fun name => ?_
          refine (CouplesParts.lift (law.makeDef _)).bind fun hidden => ?_
          refine law.world (fun _ _ _ => rfl) fun world _ _ => ?_
          refine (CouplesParts.lift (law.log _)).bind fun _ => ?_
          exact (CouplesParts.set _).bind fun _ => .pure hidden

section References

variable {transformer : Transformer}
  (htransformer : ∀ left right, P.Alike left right → transformer.Asks asked left.world)

include htransformer

theorem couples_typeRef {ref : TypeRef} (hasks : Moment.Asks asked decls ref.targets) :
    P.CouplesParts (transformer.typeRef ref) (transformer.typeRef ref) :=
  law.couples_carry TypeRef.relinks (fun importer => importer.inward_importTypeRef ref)
    (fun _ _ => ImporterId.quiet_importTypeRef ref)
    (fun imported h => Search.couples_resolveTypeRef law.toLinked imported h) htransformer hasks

theorem couples_typeSig {signature : TypeSig} (hasks : Moment.Asks asked decls signature.targets) :
    P.CouplesParts (transformer.typeSig signature) (transformer.typeSig signature) :=
  law.couples_carry TypeSig.relinks (fun importer => importer.inward_importTypeSig signature)
    (fun _ _ => ImporterId.quiet_importTypeSig signature)
    (fun imported h => Search.couples_resolveTypeSig law.toLinked imported h) htransformer hasks

theorem couples_callSite {signature : MethodSig}
    (hasks : Moment.Asks asked decls signature.targets) :
    P.CouplesParts (transformer.callSite signature) (transformer.callSite signature) :=
  law.couples_carry MethodSig.relinks (fun importer => importer.inward_importMethodSig signature)
    (fun _ _ => ImporterId.quiet_importMethodSig signature)
    (fun imported h => Search.couples_resolveMethodSig law.toLinked imported h) htransformer hasks

theorem couples_fieldRef {ref : FieldRef} (hasks : Moment.Asks asked decls ref.targets) :
    P.CouplesParts (transformer.fieldRef ref) (transformer.fieldRef ref) :=
  law.couples_carry FieldRef.relinks (fun importer => importer.inward_importFieldRef ref)
    (fun _ _ => ImporterId.quiet_importFieldRef ref)
    (fun imported h => Search.couples_resolveFieldRef law.toLinked imported h) htransformer hasks

theorem couples_typeSigs {signatures : List TypeSig}
    (hasks : Moment.Asks asked decls (TypeSig.targetsList signatures)) :
    P.CouplesParts (signatures.mapM transformer.typeSig) (signatures.mapM transformer.typeSig) := by
  rw [TypeSig.targetsList_eq_flatMap, Moment.asks_flatMap] at hasks
  exact .mapM fun signature hmem => law.couples_typeSig htransformer (hasks signature hmem)

theorem couples_methodRef {ref : MethodRef} (hasks : Moment.Asks asked decls ref.targets) :
    P.CouplesParts (transformer.methodRef ref) (transformer.methodRef ref) := by
  have hother : P.CouplesParts (do
        (Search.resolveMethodRef SessionTask.resolve
          (← transformer.enter ImporterId.importMethodRef ref) : SessionTask MethodRef))
      (do
        (Search.resolveMethodRef SessionTask.resolve
          (← transformer.enter ImporterId.importMethodRef ref) : SessionTask MethodRef)) :=
    law.couples_carry MethodRef.relinks (fun importer => importer.inward_importMethodRef ref)
      (fun _ _ => ImporterId.quiet_importMethodRef ref)
      (fun imported h => Search.couples_resolveMethodRef law.toLinked imported h) htransformer hasks
  have hbase := law.couples_baseMethod.bind fun hidden =>
    CouplesParts.pure (P := P) (MethodRef.definition hidden)
  unfold Transformer.methodRef
  refine law.world (fun world sources log => ?_) fun world _ _ => ?_
  · rw [transformer.isBase_beside]
  cases ref with
  | instantiated method args =>
      rw [MethodRef.targets, Moment.asks_append] at hasks
      dsimp only
      split
      · refine law.couples_baseMethod.bind fun hidden => ?_
        exact (law.couples_typeSigs htransformer hasks.2).bind fun _ => .pure _
      · exact hother
  | definition | declared | external =>
      dsimp only
      split
      · exact hbase
      · exact hother

theorem couples_token (token : Token) :
    P.CouplesParts (transformer.token token) (transformer.token token) := by
  unfold Transformer.token
  refine law.world (fun world sources log => ?_) fun world _ _ => ?_
  · rw [transformer.tokenScope?_beside]
    rfl
  cases (transformer.tokenScope? world).bind fun scope => world.defs.lookup scope token with
  | none => exact .throw law.any _
  | some definition =>
      cases definition with
      | module | property | event => exact .throw law.any _
      | type id =>
          refine (law.couples_typeRef htransformer ?_).bind fun _ => .pure _
          simp [TypeRef.targets, Moment.Asks]
      | field id =>
          refine (law.couples_fieldRef htransformer ?_).bind fun _ => .pure _
          simp [FieldRef.targets, Moment.Asks]
      | method id =>
          refine (law.couples_methodRef htransformer ?_).bind fun _ => .pure _
          simp [MethodRef.targets, Moment.Asks]

theorem couples_operand {operand : Operand} (hasks : Moment.Asks asked decls operand.targets) :
    P.CouplesParts (transformer.operand operand) (transformer.operand operand) := by
  cases operand with
  | type ref => exact (law.couples_typeRef htransformer hasks).bind fun _ => .pure _
  | field ref => exact (law.couples_fieldRef htransformer hasks).bind fun _ => .pure _
  | method ref => exact (law.couples_methodRef htransformer hasks).bind fun _ => .pure _
  | signature value => exact (law.couples_callSite htransformer hasks).bind fun _ => .pure _
  | token token => exact law.couples_token htransformer token
  | none | immediate | text | target | switch | localVar | argument => exact .pure _

/-! ## Bodies -/

theorem couples_handler {handler : Handler}
    (hasks : Moment.Asks asked decls (handler.catchType.elim [] TypeRef.targets)) :
    P.CouplesParts (transformer.handler handler) (transformer.handler handler) := by
  refine CouplesParts.bind ?_ fun _ => .pure _
  cases hcatch : handler.catchType with
  | none => exact .pure _
  | some ref =>
      rw [hcatch] at hasks
      rw [Option.mapM_some, ← bind_pure_comp]
      exact (law.couples_typeRef htransformer hasks).bind fun _ => .pure _

theorem couples_body {body : Body} (hasks : Moment.Asks asked decls body.targets) :
    P.CouplesParts (transformer.body body) (transformer.body body) := by
  simp only [Body.targets, Moment.asks_append, Moment.asks_flatMap] at hasks
  obtain ⟨⟨hcode, hlocals⟩, hhandlers⟩ := hasks
  refine CouplesParts.bind (.mapM fun instruction hmem => ?_) fun code => ?_
  · exact (law.couples_operand htransformer (hcode instruction hmem)).bind fun _ => .pure _
  refine (law.couples_typeSigs htransformer hlocals).bind fun locals => ?_
  refine CouplesParts.bind (.mapM fun handler hmem => ?_) fun handlers => .pure _
  exact law.couples_handler htransformer (hhandlers handler hmem)

end References

/-- A body is put in place in the same way in states that are alike. -/
theorem couples_transplant {id : DeclId .method} (hasked : asked (.method id)) (suffix : String) :
    P.Couples (transplant id suffix) (transplant id suffix) := by
  refine law.toLinked.world fun world world' hlinks hdecls => ?_
  rw [hlinks.decls, hdecls]
  cases hgraft : (decls.method id).body with
  | none => exact .pure none
  | some graft =>
      dsimp only
      refine (law.checkWritable _).bind_of ?_
      intro left right _ middle halike hon
      have hwritable : left.world.decls.Writable (.method id) := by
        rw [on_checkWritable, Declaration.checkWritable] at hon
        split at hon
        · cases hon
        · exact eq_false_of_ne_true ‹_›
      rw [law.decls_eq left right halike] at hwritable
      have hbodies (left right : SessionState) (halike : P.Alike left right) :
          Moment.Asks asked decls graft.body.targets ∧ graft.transformer.Asks asked left.world := by
        have hdecls := law.decls_eq left right halike
        have h := (law.reaches left right halike).bodies id graft hasked
        rw [hdecls] at h
        exact h hwritable hgraft
      refine (Search.couples_method law.toLinked (law.resolve _ hasked)).bind fun method => ?_
      refine law.toLinked.world fun world world' hlinks _ => ?_
      have hstart : TransplantContext.start world' method suffix =
          TransplantContext.start world method suffix := by
        simp only [TransplantContext.start, hlinks.defs]
      rw [hstart]
      have hbody := law.couples_body (fun left right halike => (hbodies left right halike).2)
        (hbodies left right halike).1
      refine (hbody _).bind fun outcome => (law.changeDefs _).bind fun _ => ?_
      refine law.toLinked.world fun world world' hlinks _ => ?_
      rw [hlinks.methodName]
      exact (law.log _).bind fun _ => .pure _

end Carrying

end Pairing

end Graft
