import Graft.Proofs.Import.Importing
import Graft.Proofs.Session.Leads

/-!
# What carried-over bodies look like

The relation between a declared body and the one that a transplant puts in its place. A reference
is imported by the bindings of the transformer (`Transformer.bind`) and then filled in; a reference
to the base body leads to the hidden method; a raw token is what it names. Owners of generic
variables are disregarded, since an import may replace them by slots. A transplant looks at the
world again for every reference, so each of them is carried over in a world of its own, between
the one in which the transplant began and the present one.
-/

namespace Graft

namespace Transformer

/-- How a transformer imports references. -/
def bind (transformer : Transformer) (world : World) : Relink :=
  match transformer with
  | .plain | .redirecting .. => {}
  | .importing importer _ => world.bind importer

/-- Whether a transformer can import a target. -/
def Imports (transformer : Transformer) (world : World) : Target → Prop :=
  match transformer with
  | .plain | .redirecting .. => fun _ => True
  | .importing importer _ => world.Imports importer

end Transformer

/-- A world between two others: definitions only grow from one to the next, and everything else
that references depend on is as in the later one. -/
structure World.Between (start now world : World) : Prop where
  after : start.defs.Grows world.defs
  before : world.defs.Grows now.defs
  scope : ∀ id, (now.importer id).scope = (world.importer id).scope
  types : ∀ id, (now.importer id).types = (world.importer id).types
  fields : ∀ id, (now.importer id).fields = (world.importer id).fields
  methods : ∀ id, (now.importer id).methods = (world.importer id).methods

namespace Moment

variable (start : World) (now : Moment) (transformer : Transformer)

/-- How something that has targets and can be relinked is carried over: all of it is imported and
then filled in. -/
def Carries {α : Type} (targets : α → List Target) (relink : Relink → α → α)
    (value carried : α) : Prop :=
  ∃ world, World.Between start now.world world ∧
    (∀ target ∈ targets value, transformer.Imports world target) ∧
    now.answer.SettlesAll (targets (relink (transformer.bind world) value)) ∧
    relink .bare carried = relink .bare (relink now.fill (relink (transformer.bind world) value))

/-- How a type signature is carried over. -/
abbrev CarriesSig : TypeSig → TypeSig → Prop :=
  now.Carries start transformer TypeSig.targets TypeSig.relink

/-- How a caught type is carried over. -/
abbrev CarriesType : TypeRef → TypeRef → Prop :=
  now.Carries start transformer TypeRef.targets TypeRef.relink

/-- How an operand that is no raw token and does not refer to the base body is carried over. -/
abbrev CarriesOperand : Operand → Operand → Prop :=
  now.Carries start transformer Operand.targets Operand.relink

/-- Whether a reference was found to stand for the base body or not, at some point in between. -/
def Judges (ref : MethodRef) (isBase : Bool) : Prop :=
  ∃ world, World.Between start now.world world ∧ transformer.isBase world ref = isBase

/-- The method that decides whether a reference stands for the base body: instances of generic
methods go by the method. -/
def generic : MethodRef → MethodRef
  | .instantiated method _ => method
  | ref => ref

/-- Whether an operand is neither a raw token nor refers to the base body. -/
def Keeps : Operand → Prop
  | .method ref => now.Judges start transformer (generic ref) false
  | .token _ => False
  | _ => True

/-- The operand that a definition named by a raw token stands for. -/
def named? : Definition → Option Operand
  | .type id => some (.type (.definition id))
  | .field id => some (.field (.definition id))
  | .method id => some (.method (.definition id))
  | _ => none

/-- How an operand is carried over when calls to the base body go to `hidden`, and whether it is
such a call itself. -/
inductive Carried (hidden : Option (DefId .method)) : Bool → Operand → Operand → Prop where
  | base {ref : MethodRef} {method : DefId .method} (hplain : generic ref = ref)
      (hbase : now.Judges start transformer ref true) (hhidden : hidden = some method) :
      Carried hidden true (.method ref) (.method (.definition method))
  | baseInstance {ref : MethodRef} {args args' : List TypeSig} {method : DefId .method}
      (hbase : now.Judges start transformer ref true) (hhidden : hidden = some method)
      (hargs : List.Forall₂ (now.CarriesSig start transformer) args args') :
      Carried hidden true (.method (.instantiated ref args))
        (.method (.instantiated (.definition method) args'))
  | other {operand operand' : Operand} (hkeeps : now.Keeps start transformer operand)
      (hcarries : now.CarriesOperand start transformer operand operand') :
      Carried hidden false operand operand'
  | token {token : Token} {definition : Definition} {scope : DefId .module} {world : World}
      {call : Bool} {operand operand' : Operand} (hbetween : World.Between start now.world world)
      (hscope : transformer.tokenScope? world = some scope)
      (hlookup : world.defs.lookup scope token = some definition)
      (hnamed : named? definition = some operand)
      (hcarried : Carried hidden call operand operand') :
      Carried hidden call (.token token) operand'

/-- A call to the base body needs the hidden method. -/
theorem Carried.exists_hidden {start : World} {now : Moment} {transformer : Transformer}
    {hidden : Option (DefId .method)} {call : Bool} {operand operand' : Operand}
    (h : now.Carried start transformer hidden call operand operand') (hcall : call = true) :
    ∃ method, hidden = some method := by
  induction h with
  | base _ _ hhidden | baseInstance _ hhidden => exact ⟨_, hhidden⟩
  | other => cases hcall
  | token _ _ _ _ _ ih => exact ih hcall

/-- How a body is carried over when calls to the base body go to `hidden`, which was made for one
of them. -/
structure CarriedBody (hidden : Option (DefId .method)) (body carried : Body) : Prop where
  maxStack : carried.maxStack = body.maxStack
  initLocals : carried.initLocals = body.initLocals
  locals : List.Forall₂ (now.CarriesSig start transformer) body.locals carried.locals
  offsets : carried.code = Instruction.layOut 0 carried.code
  code : List.Forall₂ (fun instruction instruction' =>
    instruction'.opcode = instruction.opcode ∧ ∃ call,
      now.Carried start transformer hidden call instruction.operand instruction'.operand)
    body.code carried.code
  called : ∀ method, hidden = some method → ∃ instruction ∈ body.code, ∃ operand,
    now.Carried start transformer hidden true instruction.operand operand
  handlers : List.Forall₂ (fun handler handler' =>
    handler' = { handler with catchType := handler'.catchType } ∧
      Option.Rel (now.CarriesType start transformer) handler.catchType handler'.catchType)
    body.handlers carried.handlers

/-! ## What is carried over stays so -/

section Later

variable {start now transformer} {next : Moment} {hidden hidden' : Option (DefId .method)}

theorem Later.between (h : now.Later next) {world : World}
    (hbetween : World.Between start now.world world) : World.Between start next.world world where
  after := hbetween.after
  before := hbetween.before.trans h.grows
  scope id := (h.scope id).trans (hbetween.scope id)
  types id := (h.types id).trans (hbetween.types id)
  fields id := (h.fields id).trans (hbetween.fields id)
  methods id := (h.methods id).trans (hbetween.methods id)

theorem Later.judges (h : now.Later next) {ref : MethodRef} {isBase : Bool}
    (hjudges : now.Judges start transformer ref isBase) :
    next.Judges start transformer ref isBase := by
  obtain ⟨world, hbetween, hbase⟩ := hjudges
  exact ⟨world, h.between hbetween, hbase⟩

theorem Later.keeps (h : now.Later next) {operand : Operand}
    (hkeeps : now.Keeps start transformer operand) : next.Keeps start transformer operand := by
  cases operand with
  | method ref => exact h.judges hkeeps
  | _ => exact hkeeps

variable (h : now.Later next) (hanswers : now.answer.Extends next.answer)

include h hanswers

theorem Later.carries {α : Type} {targets : α → List Target} {relink : Relink → α → α}
    (hrelinks : Relinks targets relink) {value carried : α}
    (hcarries : now.Carries start transformer targets relink value carried) :
    next.Carries start transformer targets relink value carried := by
  obtain ⟨world, hbetween, himports, hsettles, hcarried⟩ := hcarries
  refine ⟨world, h.between hbetween, himports, hsettles.mono hanswers, ?_⟩
  rwa [hrelinks.fill_mono hanswers hsettles]

theorem Later.carriesCatch {ref carried : Option TypeRef}
    (hcarries : Option.Rel (now.CarriesType start transformer) ref carried) :
    Option.Rel (next.CarriesType start transformer) ref carried := by
  cases hcarries with
  | none => exact .none
  | some hcarries => exact .some (h.carries hanswers TypeRef.relinks hcarries)

/-- What is carried over stays so, also when a hidden method is made for the base body. -/
theorem Carried.mono (hhidden : ∀ method, hidden = some method → hidden' = some method)
    {call : Bool} {operand carried : Operand}
    (hcarried : now.Carried start transformer hidden call operand carried) :
    next.Carried start transformer hidden' call operand carried := by
  induction hcarried with
  | base hplain hbase hmethod => exact .base hplain (h.judges hbase) (hhidden _ hmethod)
  | baseInstance hbase hmethod hargs =>
      exact .baseInstance (h.judges hbase) (hhidden _ hmethod)
        (hargs.imp fun _ _ hcarries => h.carries hanswers TypeSig.relinks hcarries)
  | other hkeeps hcarries =>
      exact .other (h.keeps hkeeps) (h.carries hanswers Operand.relinks hcarries)
  | token hbetween hscope hlookup hnamed _ ih =>
      exact .token (h.between hbetween) hscope hlookup hnamed ih

theorem CarriedBody.mono {body carried : Body}
    (hcarried : now.CarriedBody start transformer hidden body carried) :
    next.CarriedBody start transformer hidden body carried :=
  have hoperand {call : Bool} {operand operand' : Operand} :
      now.Carried start transformer hidden call operand operand' →
      next.Carried start transformer hidden call operand operand' :=
    Carried.mono h hanswers fun _ hmethod => hmethod
  { hcarried with
    locals := hcarried.locals.imp fun _ _ hsig => h.carries hanswers TypeSig.relinks hsig
    code := hcarried.code.imp fun _ _ ⟨hopcode, call, hcall⟩ => ⟨hopcode, call, hoperand hcall⟩
    called := fun method hmethod =>
      have ⟨instruction, hmem, operand, hcall⟩ := hcarried.called method hmethod
      ⟨instruction, hmem, operand, hoperand hcall⟩
    handlers := hcarried.handlers.imp fun _ _ hhandler =>
      ⟨hhandler.1, h.carriesCatch hanswers hhandler.2⟩ }

end Later

/-! ## Seen from earlier on -/

section Earlier

variable {start now transformer} {earlier : World} {hidden : Option (DefId .method)}
  (h : earlier.defs.Grows start.defs)

include h

theorem between_of_earlier {world : World} (hbetween : World.Between start now.world world) :
    World.Between earlier now.world world :=
  { hbetween with after := h.trans hbetween.after }

theorem judges_of_earlier {ref : MethodRef} {isBase : Bool}
    (hjudges : now.Judges start transformer ref isBase) :
    now.Judges earlier transformer ref isBase := by
  obtain ⟨world, hbetween, hbase⟩ := hjudges
  exact ⟨world, between_of_earlier h hbetween, hbase⟩

theorem carries_of_earlier {α : Type} {targets : α → List Target} {relink : Relink → α → α}
    {value carried : α} (hcarries : now.Carries start transformer targets relink value carried) :
    now.Carries earlier transformer targets relink value carried := by
  obtain ⟨world, hbetween, hrest⟩ := hcarries
  exact ⟨world, between_of_earlier h hbetween, hrest⟩

theorem carriesCatch_of_earlier {ref carried : Option TypeRef}
    (hcarries : Option.Rel (now.CarriesType start transformer) ref carried) :
    Option.Rel (now.CarriesType earlier transformer) ref carried := by
  cases hcarries with
  | none => exact .none
  | some hcarries => exact .some (carries_of_earlier h hcarries)

/-- What was carried over since some moment was so since any earlier one. -/
theorem Carried.of_earlier {call : Bool} {operand carried : Operand}
    (hcarried : now.Carried start transformer hidden call operand carried) :
    now.Carried earlier transformer hidden call operand carried := by
  induction hcarried with
  | base hplain hbase hmethod => exact .base hplain (judges_of_earlier h hbase) hmethod
  | baseInstance hbase hmethod hargs =>
      exact .baseInstance (judges_of_earlier h hbase) hmethod
        (hargs.imp fun _ _ hcarries => carries_of_earlier h hcarries)
  | @other operand _ hkeeps hcarries =>
      refine .other ?_ (carries_of_earlier h hcarries)
      cases operand with
      | method ref => exact judges_of_earlier h hkeeps
      | _ => exact hkeeps
  | token hbetween hscope hlookup hnamed _ ih =>
      exact .token (between_of_earlier h hbetween) hscope hlookup hnamed ih

theorem CarriedBody.of_earlier {body carried : Body}
    (hcarried : now.CarriedBody start transformer hidden body carried) :
    now.CarriedBody earlier transformer hidden body carried :=
  { hcarried with
    locals := hcarried.locals.imp fun _ _ hsig => carries_of_earlier h hsig
    code := hcarried.code.imp fun _ _ ⟨hopcode, call, hcall⟩ => ⟨hopcode, call, hcall.of_earlier h⟩
    called := fun method hmethod =>
      have ⟨instruction, hmem, operand, hcall⟩ := hcarried.called method hmethod
      ⟨instruction, hmem, operand, hcall.of_earlier h⟩
    handlers := hcarried.handlers.imp fun _ _ hhandler =>
      ⟨hhandler.1, carriesCatch_of_earlier h hhandler.2⟩ }

end Earlier

/-! ## Offsets -/

/-- Computing offsets a second time changes nothing. -/
theorem layOut_layOut (start : UInt32) (code : List Instruction) :
    Instruction.layOut start (Instruction.layOut start code) = Instruction.layOut start code := by
  induction code generalizing start with
  | nil => rfl
  | cons instruction rest ih =>
      simp only [Instruction.layOut]
      exact congrArg _ (ih _)

/-- Offsets are all that is computed. -/
theorem forall₂_layOut {P : Opcode → Operand → Opcode → Operand → Prop} {offset : UInt32}
    {code code' : List Instruction}
    (h : List.Forall₂ (fun left right => P left.opcode left.operand right.opcode right.operand)
      code code') :
    List.Forall₂ (fun left right => P left.opcode left.operand right.opcode right.operand) code
      (Instruction.layOut offset code') := by
  induction h generalizing offset with
  | nil => exact .nil
  | cons hhead _ ih => exact .cons hhead ih

end Moment

end Graft
