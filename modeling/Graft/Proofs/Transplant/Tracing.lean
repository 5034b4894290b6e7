import Graft.Proofs.Code.Offsets
import Graft.Proofs.Transplant.Stacking

/-!
# Carrying a body over step by step

What carrying a body over does, instruction by instruction and from one point to the next
(`Yields`): only operands that refer to symbols change, a raw token becomes what the definition it
names would become as a direct reference, and since none of this changes the size of an instruction
all offsets are those of the declared body. When a transplant fails, whichever part it fails in, no
method has lost its body.
-/

namespace Graft

/-! ## Operands and sizes -/

/-- Whether an operand refers to symbols. All others stay as they are. -/
def Operand.isSymbolic : Operand → Bool
  | .type _ | .field _ | .method _ | .token _ | .signature _ => true
  | .none | .immediate _ | .text _ | .target _ | .switch _ | .localVar _ | .argument _ => false

/-- Only jump tables have operands of different sizes. -/
theorem Instruction.size_congr {instruction instruction' : Instruction}
    (hopcode : instruction'.opcode = instruction.opcode)
    (hswitch : ∀ targets, instruction'.operand = .switch targets ↔
      instruction.operand = .switch targets) : instruction'.size = instruction.size := by
  unfold size operandSize
  rw [hopcode]
  by_cases htable : ∃ targets, instruction.operand = .switch targets
  · obtain ⟨targets, htable⟩ := htable
    rw [(hswitch targets).mpr htable, htable]
  · have hother (targets : List Nat) : instruction.operand ≠ .switch targets :=
      fun h => htable ⟨targets, h⟩
    have hother' (targets : List Nat) : instruction'.operand ≠ .switch targets :=
      fun h => hother targets ((hswitch targets).mp h)
    congr 1
    cases hkind : instruction.opcode.operand <;> cases hoperand : instruction.operand <;>
      cases hoperand' : instruction'.operand <;> first | rfl | simp_all

namespace Body

/-- Whether two bodies differ at most in operands that refer to symbols, in the types of local
variables and in caught types, once offsets are computed. -/
structure SameForm (body body' : Body) : Prop where
  maxStack : body'.maxStack = body.maxStack
  initLocals : body'.initLocals = body.initLocals
  locals : body'.locals.length = body.locals.length
  code : List.Forall₂ (fun instruction instruction' =>
    instruction'.opcode = instruction.opcode ∧
      instruction'.operand.isSymbolic = instruction.operand.isSymbolic ∧
      (instruction.operand.isSymbolic = false → instruction'.operand = instruction.operand))
    body.code body'.code
  handlers : List.Forall₂ (fun handler handler' =>
    handler' = { handler with catchType := handler'.catchType } ∧
      handler'.catchType.isSome = handler.catchType.isSome) body.handlers body'.handlers
  offsets : body'.code.map Instruction.offset = body.withOffsets.code.map Instruction.offset
  codeSize : body'.codeSize = body.withOffsets.codeSize
  offsetOf? : ∀ index, body'.offsetOf? index = body.withOffsets.offsetOf? index

end Body

/-! ## Points of a transplant -/

/-- A point of a transplant: how far the replacement has come, and the state of the session. -/
structure TransplantPoint where
  context : TransplantContext
  state : SessionState

namespace TransplantTask

variable {α β ι : Type} {value : α} {before after : TransplantPoint}

/-- Whether a part of a transplant leads from one point to another one with a value. -/
def Yields (task : TransplantTask α) (value : α) (before after : TransplantPoint) : Prop :=
  (task.run before.context).on before.state = (.ok (value, after.context), after.state)

theorem yields_pure {value' : α} :
    (pure value : TransplantTask α).Yields value' before after ↔ value' = value ∧ after = before := by
  obtain ⟨context, state⟩ := before
  obtain ⟨context', state'⟩ := after
  simp only [Yields, StateT.run_pure, SessionTask.on_pure, Prod.mk.injEq, Except.ok.injEq,
    TransplantPoint.mk.injEq, and_assoc, eq_comm]

theorem yields_bind {task : TransplantTask α} {next : α → TransplantTask β} {result : β} :
    (task >>= next).Yields result before after ↔
      ∃ value middle, task.Yields value before middle ∧ (next value).Yields result middle after := by
  have hrun : (task >>= next).run before.context =
      task.run before.context >>= fun outcome => (next outcome.1).run outcome.2 := rfl
  rw [Yields, hrun, SessionTask.on_bind_ok]
  constructor
  · rintro ⟨⟨value, context⟩, state, htask, hnext⟩
    exact ⟨value, ⟨context, state⟩, htask, hnext⟩
  · rintro ⟨value, ⟨context, state⟩, htask, hnext⟩
    exact ⟨(value, context), state, htask, hnext⟩

theorem yields_map {task : TransplantTask α} {f : α → β} {result : β} :
    (f <$> task).Yields result before after ↔
      ∃ value, task.Yields value before after ∧ result = f value := by
  rw [← bind_pure_comp, yields_bind]
  simp only [yields_pure]
  constructor
  · rintro ⟨value, _, htask, rfl, rfl⟩
    exact ⟨value, htask, rfl⟩
  · rintro ⟨value, htask, rfl⟩
    exact ⟨value, after, htask, rfl, rfl⟩

theorem yields_throw {error : Error} :
    ¬ (throw error : TransplantTask α).Yields value before after :=
  nofun

theorem yields_world {f : World → TransplantTask β} {result : β} :
    Yields ((SessionTask.world : TransplantTask World) >>= f) result before after ↔
      (f before.state.world).Yields result before after :=
  Iff.rfl

/-- Values that parts of a transplant come to for the items of a list, one after the other. -/
inductive Sequence (step : ι → α → TransplantPoint → TransplantPoint → Prop) :
    List ι → List α → TransplantPoint → TransplantPoint → Prop where
  | nil {point : TransplantPoint} : Sequence step [] [] point point
  | cons {item : ι} {value : α} {items : List ι} {values : List α}
      {before middle after : TransplantPoint} (hhead : step item value before middle)
      (hrest : Sequence step items values middle after) :
      Sequence step (item :: items) (value :: values) before after

theorem Sequence.forall₂ {step : ι → α → TransplantPoint → TransplantPoint → Prop}
    {R : ι → α → Prop} {items : List ι} {values : List α} (h : Sequence step items values before after)
    (himp : ∀ item value before after, step item value before after → R item value) :
    List.Forall₂ R items values := by
  induction h with
  | nil => exact .nil
  | cons hhead _ ih => exact .cons (himp _ _ _ _ hhead) ih

theorem Sequence.imp {step step' : ι → α → TransplantPoint → TransplantPoint → Prop}
    {items : List ι} {values : List α} (h : Sequence step items values before after)
    (himp : ∀ item value before after, step item value before after →
      step' item value before after) : Sequence step' items values before after := by
  induction h with
  | nil => exact .nil
  | cons hhead _ ih => exact .cons (himp _ _ _ _ hhead) ih

/-- A task done for every item is done for one after the other. -/
theorem yields_mapM {f : ι → TransplantTask α} {items : List ι} {values : List α} :
    (items.mapM f).Yields values before after ↔
      Sequence (fun item => (f item).Yields) items values before after := by
  induction items generalizing values before after with
  | nil =>
      rw [List.mapM_nil, yields_pure]
      constructor
      · rintro ⟨rfl, rfl⟩
        exact .nil
      · rintro ⟨⟩
        exact ⟨rfl, rfl⟩
  | cons item items ih =>
      simp only [List.mapM_cons, yields_bind, yields_pure, ih]
      constructor
      · rintro ⟨value, middle, hvalue, values, _, hvalues, rfl, rfl⟩
        exact .cons hvalue hvalues
      · rintro ⟨⟩
        exact ⟨_, _, ‹_›, _, _, ‹_›, rfl, rfl⟩

end TransplantTask

namespace Transformer

open TransplantTask

variable {transformer : Transformer} {before after : TransplantPoint}

/-! ## Operands -/

/-- What becomes of an operand between two points of a transplant. A raw token becomes exactly
what a direct reference to the definition that it names becomes. -/
inductive Turns (transformer : Transformer) :
    Operand → Operand → TransplantPoint → TransplantPoint → Prop where
  | type {ref ref' : TypeRef} {before after : TransplantPoint}
      (h : (transformer.typeRef ref).Yields ref' before after) :
      Turns transformer (.type ref) (.type ref') before after
  | field {ref ref' : FieldRef} {before after : TransplantPoint}
      (h : (transformer.fieldRef ref).Yields ref' before after) :
      Turns transformer (.field ref) (.field ref') before after
  | method {ref ref' : MethodRef} {before after : TransplantPoint}
      (h : (transformer.methodRef ref).Yields ref' before after) :
      Turns transformer (.method ref) (.method ref') before after
  | signature {value value' : MethodSig} {before after : TransplantPoint}
      (h : (transformer.callSite value).Yields value' before after) :
      Turns transformer (.signature value) (.signature value') before after
  | token {token : Token} {scope : DefId .module} {definition : Definition}
      {direct operand : Operand} {before after : TransplantPoint}
      (hscope : transformer.tokenScope? before.state.world = some scope)
      (hlookup : before.state.world.defs.lookup scope token = some definition)
      (hnamed : Moment.named? definition = some direct)
      (hdirect : (transformer.operand direct).Yields operand before after) :
      Turns transformer (.token token) operand before after
  | plain {operand : Operand} {point : TransplantPoint} (h : operand.isSymbolic = false) :
      Turns transformer operand operand point point

/-- A raw token that is carried over names a type, a field or a method, and becomes what a direct
reference to that becomes. -/
theorem turns_of_token {token : Token} {operand : Operand}
    (h : (transformer.token token).Yields operand before after) :
    transformer.Turns (.token token) operand before after := by
  rw [Transformer.token, yields_world] at h
  cases hnames : (transformer.tokenScope? before.state.world).bind
      fun scope => before.state.world.defs.lookup scope token with
  | none =>
      rw [hnames] at h
      exact absurd h yields_throw
  | some definition =>
      obtain ⟨scope, hscope, hlookup⟩ := Option.bind_eq_some_iff.mp hnames
      rw [hnames] at h
      cases definition with
      | type id | field id | method id => exact .token hscope hlookup rfl h
      | module | property | event => exact absurd h yields_throw

/-- What becomes of operands. -/
theorem turns_of_operand {operand operand' : Operand}
    (h : (transformer.operand operand).Yields operand' before after) :
    transformer.Turns operand operand' before after := by
  cases operand with
  | type ref =>
      obtain ⟨ref', href, rfl⟩ := yields_map.mp h
      exact .type href
  | field ref =>
      obtain ⟨ref', href, rfl⟩ := yields_map.mp h
      exact .field href
  | method ref =>
      obtain ⟨ref', href, rfl⟩ := yields_map.mp h
      exact .method href
  | signature value =>
      obtain ⟨value', hvalue, rfl⟩ := yields_map.mp h
      exact .signature hvalue
  | token value => exact turns_of_token h
  | none | immediate | text | target | switch | localVar | argument =>
      obtain ⟨rfl, rfl⟩ := yields_pure.mp h
      exact .plain rfl

/-- Operands that refer to symbols, and no others, become such operands. -/
theorem Turns.isSymbolic {operand operand' : Operand}
    (h : transformer.Turns operand operand' before after) :
    operand'.isSymbolic = operand.isSymbolic := by
  cases h with
  | type | field | method | signature => rfl
  | plain hplain => rfl
  | @token _ _ definition direct _ _ _ _ _ hnamed hdirect =>
      cases definition with
      | type | field | method =>
          cases hnamed
          obtain ⟨_, -, rfl⟩ := yields_map.mp hdirect
          rfl
      | module | property | event => cases hnamed

/-- Operands that do not refer to symbols stay as they are. -/
theorem Turns.eq_of_plain {operand operand' : Operand}
    (h : transformer.Turns operand operand' before after) (hplain : operand.isSymbolic = false) :
    operand' = operand := by
  cases h with
  | type | field | method | signature | token => cases hplain
  | plain => rfl

/-- Carrying an instruction over does not change its size. -/
theorem Turns.size {instruction instruction' : Instruction}
    (h : transformer.Turns instruction.operand instruction'.operand before after)
    (hopcode : instruction'.opcode = instruction.opcode) :
    instruction'.size = instruction.size := by
  refine Instruction.size_congr hopcode fun targets => ⟨fun htable => ?_, fun htable => ?_⟩
  · rw [← htable, h.eq_of_plain (by rw [← h.isSymbolic, htable]; rfl)]
  · rw [← htable, h.eq_of_plain (by rw [htable]; rfl)]

/-! ## Bodies -/

/-- What becomes of an instruction: another operand, and an offset of its own. -/
def TurnsInstruction (transformer : Transformer) (instruction instruction' : Instruction)
    (before after : TransplantPoint) : Prop :=
  instruction'.opcode = instruction.opcode ∧
    transformer.Turns instruction.operand instruction'.operand before after

/-- What becomes of an exception handler: another caught type, if one is caught. -/
def TurnsHandler (transformer : Transformer) (handler handler' : Handler)
    (before after : TransplantPoint) : Prop :=
  handler' = { handler with catchType := handler'.catchType } ∧
    ((handler.catchType = none ∧ handler'.catchType = none ∧ after = before) ∨
      ∃ ref ref', handler.catchType = some ref ∧ handler'.catchType = some ref' ∧
        (transformer.typeRef ref).Yields ref' before after)

/-- How a body is carried over between two points: its instructions first, then its local
variables, then the caught types. -/
def TurnsBody (transformer : Transformer) (body body' : Body) (before after : TransplantPoint) :
    Prop :=
  ∃ first second,
    Sequence transformer.TurnsInstruction body.code body'.code before first ∧
    Sequence (fun signature => (transformer.typeSig signature).Yields) body.locals body'.locals
      first second ∧
    Sequence transformer.TurnsHandler body.handlers body'.handlers second after

theorem turnsInstruction_of_instruction {instruction instruction' : Instruction}
    (h : (transformer.instruction instruction).Yields instruction' before after) :
    transformer.TurnsInstruction instruction instruction' before after := by
  obtain ⟨operand, hoperand, rfl⟩ := yields_map.mp h
  exact ⟨rfl, turns_of_operand hoperand⟩

theorem turnsHandler_of_handler {handler handler' : Handler}
    (h : (transformer.handler handler).Yields handler' before after) :
    transformer.TurnsHandler handler handler' before after := by
  obtain ⟨caught, hcaught, rfl⟩ := yields_map.mp h
  refine ⟨rfl, ?_⟩
  cases hbefore : handler.catchType with
  | none =>
      rw [hbefore] at hcaught
      obtain ⟨rfl, rfl⟩ := yields_pure.mp hcaught
      exact .inl ⟨rfl, rfl, rfl⟩
  | some ref =>
      rw [hbefore, Option.mapM_some] at hcaught
      obtain ⟨ref', href, rfl⟩ := yields_map.mp hcaught
      exact .inr ⟨ref, ref', rfl, rfl, href⟩

/-- Laying instructions out does not matter to what they came from. -/
theorem sequence_layOut {code code' : List Instruction} (start : UInt32)
    (h : Sequence transformer.TurnsInstruction code code' before after) :
    Sequence transformer.TurnsInstruction code (Instruction.layOut start code') before after := by
  induction h generalizing start with
  | nil => exact .nil
  | cons hhead _ ih => exact .cons hhead (ih _)

/-- How bodies are carried over. -/
theorem turnsBody_of_body {body carried : Body}
    (h : (transformer.body body).Yields carried before after) :
    carried.maxStack = body.maxStack ∧ carried.initLocals = body.initLocals ∧
      carried = carried.withOffsets ∧ transformer.TurnsBody body carried before after := by
  simp only [Transformer.body, yields_bind, yields_mapM, yields_pure] at h
  obtain ⟨code, first, hcode, locals, second, hlocals, handlers, third, hhandlers, rfl, rfl⟩ := h
  refine ⟨rfl, rfl, by simp only [Body.withOffsets, Moment.layOut_layOut], first, second,
    sequence_layOut 0 (hcode.imp fun _ _ _ _ => turnsInstruction_of_instruction), hlocals,
    hhandlers.imp fun _ _ _ _ => turnsHandler_of_handler⟩

/-- Carrying instructions over changes no size. -/
theorem sizes_of_sequence {code code' : List Instruction}
    (h : Sequence transformer.TurnsInstruction code code' before after) :
    code'.map Instruction.size = code.map Instruction.size := by
  induction h with
  | nil => rfl
  | cons hhead _ ih =>
      obtain ⟨hopcode, hoperand⟩ := hhead
      rw [List.map_cons, List.map_cons, hoperand.size hopcode, ih]

/-- What is carried over has the form of the declared body. -/
theorem TurnsBody.sameForm {body carried : Body} (h : transformer.TurnsBody body carried before after)
    (hmaxStack : carried.maxStack = body.maxStack) (hinitLocals : carried.initLocals = body.initLocals)
    (hoffsets : carried = carried.withOffsets) : body.SameForm carried := by
  obtain ⟨first, second, hcode, hlocals, hhandlers⟩ := h
  have hsize : carried.code.map Instruction.size = body.withOffsets.code.map Instruction.size := by
    rw [Body.withOffsets, Instruction.layOut_sizes, sizes_of_sequence hcode]
  have hoffset : carried.code.map Instruction.offset =
      body.withOffsets.code.map Instruction.offset := by
    rw [hoffsets]
    exact Instruction.layOut_offsets 0 (sizes_of_sequence hcode)
  refine ⟨hmaxStack, hinitLocals, ?_, ?_, ?_, hoffset, Body.codeSize_congr hsize,
    Body.offsetOf?_congr hoffset hsize⟩
  · exact (hlocals.forall₂ (R := fun _ _ => True) fun _ _ _ _ _ => trivial).length_eq.symm
  · refine hcode.forall₂ fun instruction instruction' before after hturns => ?_
    obtain ⟨hopcode, hoperand⟩ := hturns
    exact ⟨hopcode, hoperand.isSymbolic, hoperand.eq_of_plain⟩
  · refine hhandlers.forall₂ fun handler handler' before after hturns => ?_
    obtain ⟨hsame, ⟨hnone, hnone', -⟩ | ⟨ref, ref', href, href', -⟩⟩ := hturns
    · exact ⟨hsame, by rw [hnone, hnone']⟩
    · exact ⟨hsame, by rw [href, href']; rfl⟩

end Transformer

/-! ## Failures -/

namespace Moment

open SessionTask

variable {state begun after : SessionState} {id : DeclId .method} {method : DefId .method}
  {suffix : String} {error : Error}

/-- A transplant fails before the body is replaced, or not at all. -/
theorem carryOver_of_transplant {graft : Transplant}
    (hdeclared : (state.world.decls.method id).body = some graft)
    (hfails : (transplant id suffix).on state = (.error error, after)) :
    (carryOver id graft suffix).on state = (.error error, after) := by
  rw [transplant_eq, on_bind, on_world] at hfails
  dsimp only at hfails
  rw [hdeclared] at hfails
  rcases on_bind_error.mp hfails with hfails | ⟨carried, carriedAt, -, hfails⟩
  · exact hfails
  · cases hfails

/-- When the method has been found, its replacement begins. -/
theorem working_of_receiver {graft : Transplant} (suffix : String) (hsound : Sound { state })
    (hdeclared : (state.world.decls.method id).body = some graft)
    (hbegun : (receiver id).on state = (.ok method, begun)) :
    ∃ now : Moment, now.state = begun ∧
      Working (fun _ => True) now id graft.transformer now (.start now.world method suffix) ∧
      Asks (fun _ => True) now.decls graft.body.targets := by
  have hreaches := World.reaches_all state.world []
  have hleads := @leads_receiver _ { state } id graft suffix hsound rfl trivial
    fun hwritable => hreaches.bodies id graft trivial hwritable hdeclared
  replace hleads := hleads hreaches.closed
  rw [hbegun] at hleads
  obtain ⟨now, hstate, -, -, hworking, hasks⟩ := hleads
  exact ⟨now, hstate, hworking.anew rfl, hasks⟩

/-- A transplant that fails after the method was found has changed no body since. -/
theorem keepsBodies_since_receiver (hsound : Sound { state })
    (hbegun : (receiver id).on state = (.ok method, begun))
    (hfails : (transplant id suffix).on state = (.error error, after)) :
    begun.world.defs.has (.method method) = true ∧
      begun.world.defs.KeepsBodies after.world.defs := by
  cases hgraft : (state.world.decls.method id).body with
  | none => simp [transplant_eq, on_bind, hgraft] at hfails
  | some graft =>
      -- What failed is the carrying over: the body is put in place last, and that cannot fail.
      replace hfails := carryOver_of_transplant hgraft hfails
      obtain ⟨begun, rfl, hworking, hasks⟩ := working_of_receiver suffix hsound hgraft hbegun
      refine ⟨hworking.sound.remembered _ _ hworking.memo, ?_⟩
      obtain ⟨last, hlast, -, hrun'⟩ :=
        Leads.run (advances_body hworking rfl hasks) (World.reaches_all begun.world []).closed
      have hkeeps := hrun'.keepsBodies rfl hworking.sound
      rw [carryOver_eq] at hfails
      rcases on_bind_error.mp hfails with hfails | ⟨_, _, hfound, hfails⟩
      · cases hbegun.symm.trans hfails
      · cases hbegun.symm.trans hfound
        rw [on_bind, on_world] at hfails
        rcases on_bind_error.mp hfails with hfails | ⟨carried, _, -, hfails⟩
        · have hafter : last.state = after := hlast.trans (congrArg Prod.snd hfails)
          exact hafter ▸ hkeeps
        · cases hfails

end Moment

open SessionTask TransplantTask in
/-- Carrying a body over changes operands that refer to symbols and nothing else: each of them
becomes what the transformer makes of it, a raw token what it makes of a direct reference to the
definition named, and all offsets are those of the declared body. When a transplant fails, every
method still has the body it had: if it existed before the transplant, the one that it had then,
and if it was found for the declaration, the one that it had when it was found. -/
theorem transplant_form (transformer : Transformer) (body : Body) :
    (∀ carried before after, (transformer.body body).Yields carried before after →
      body.SameForm carried ∧ transformer.TurnsBody body carried before after) ∧
    ∀ id suffix error state after, Moment.Sound { state } →
      (transplant id suffix).on state = (.error error, after) →
        (∀ method, state.world.defs.has (.method method) = true →
          (after.world.defs.method method).body = (state.world.defs.method method).body) ∧
        ∀ method begun, (receiver id).on state = (.ok method, begun) →
          (after.world.defs.method method).body = (begun.world.defs.method method).body := by
  constructor
  · intro carried before after h
    obtain ⟨hmaxStack, hinitLocals, hoffsets, hturns⟩ := Transformer.turnsBody_of_body h
    exact ⟨hturns.sameForm hmaxStack hinitLocals hoffsets, hturns⟩
  · intro id suffix error state after hsound hfails
    constructor
    · intro method hhas
      have hcases := Layer.transplant_cases hsound id suffix
      rw [hfails] at hcases
      rcases hcases with ⟨-, -, hkeeps, -⟩ | ⟨_, _, _, houtcome, -⟩
      · exact hkeeps.body_eq hhas
      · cases houtcome
    · intro method begun hbegun
      obtain ⟨hhas, hkeeps⟩ := Moment.keepsBodies_since_receiver hsound hbegun hfails
      exact hkeeps.body_eq hhas

/-- A body that loads what raw tokens name and returns. -/
def Body.loading (tokens : List Token) : Body where
  code := tokens.map (fun token => ⟨0, ⟨0, 0xD0, "ldtoken", .token, .sequential⟩, .token token⟩)
    ++ [{ opcode := ⟨0, 0x2A, "ret", .none, .returning⟩ }]

/-- The method that an operand names directly. -/
def Operand.definition? : Operand → Option (DefId .method)
  | .method (.definition id) => some id
  | _ => Option.none

/-- A part of a transplant that comes to a value with some property. -/
theorem TransplantTask.exists_yields {α : Type} {task : TransplantTask α}
    {before : TransplantPoint} {check : α → Bool}
    (h : ((task.run before.context).on before.state).1.toOption.any (check ·.1) = true) :
    ∃ value after, task.Yields value before after ∧ check value = true := by
  cases hon : (task.run before.context).on before.state with
  | mk outcome state =>
      rw [hon] at h
      cases outcome with
      | error => cases h
      | ok outcome => exact ⟨outcome.1, ⟨outcome.2, state⟩, hon, h⟩

open SessionTask TransplantTask in
/-- The raw token of the method that is replaced becomes the hidden method; a raw token that names
nothing makes a transplant fail. -/
theorem transplant_form_clock :
    let transformer := .redirecting [.definition ⟨0⟩] (some ⟨0⟩)
    let declared := { MethodDecl.tick [] with
      body := some { body := .loading [⟨0x06000001⟩, ⟨0x06000009⟩], transformer } }
    let state := World.clockSession [declared]
    (∃ carried after, (transformer.body (.loading [⟨0x06000001⟩])).Yields carried
        ⟨.start state.world ⟨0⟩ "<Base>$", state⟩ after ∧
      (Body.loading [⟨0x06000001⟩]).SameForm carried ∧
      carried.code.filterMap (·.operand.definition?) = [⟨1⟩]) ∧
    Moment.Sound { state } ∧
    ∃ error after, (transplant ⟨0⟩ "<Base>$").on state = (.error error, after) ∧
      (after.world.defs.method ⟨0⟩).body = (state.world.defs.method ⟨0⟩).body := by
  intro transformer declared state
  obtain ⟨carried, after, hcarried, hcheck⟩ := @exists_yields _
    (transformer.body (.loading [⟨0x06000001⟩])) ⟨.start state.world ⟨0⟩ "<Base>$", state⟩
    (fun carried => carried.code.filterMap (·.operand.definition?) = [⟨1⟩]) (by decide +kernel)
  have hsound : Moment.Sound { state } :=
    Moment.sound_begin (World.held_clock _) (Source.sound_memory (by decide +kernel))
  refine ⟨⟨carried, after, hcarried, ((transplant_form _ _).1 _ _ _ hcarried).1,
    of_decide_eq_true hcheck⟩, hsound, ?_⟩
  cases hfails : (transplant ⟨0⟩ "<Base>$").on state with
  | mk outcome after =>
      have hfailed : ((transplant ⟨0⟩ "<Base>$").on state).1.toOption.isNone = true := by
        decide +kernel
      rw [hfails] at hfailed
      cases outcome with
      | ok => cases hfailed
      | error error =>
          exact ⟨error, after, rfl,
            ((transplant_form transformer default).2 _ _ _ _ _ hsound hfails).1 ⟨0⟩ (by decide)⟩

end Graft
