import Graft.Proofs.Signature.Renaming
import Graft.Proofs.Transplant.Separating
import Graft.Proofs.Transplant.Tracing

/-!
# What transplanted bodies lead to

All that a transplanted body refers to are definitions. They exist, unless the declared body refers
to them itself (`transplant_leads`): a reference to a definition is handed on unseen, also if it
leads nowhere (`dangling_survives`). The hidden method has the body that the method had when it was
found (`hidden_body`), also if that was none (`hidden_without_body`).
-/

namespace Graft

/-- Whether a raw token names a definition, at some point between two worlds. -/
def Transformer.Names (transformer : Transformer) (start now : World) (token : Token)
    (definition : Definition) : Prop :=
  ∃ world scope, World.Between start now world ∧ transformer.tokenScope? world = some scope ∧
    world.defs.lookup scope token = some definition

/-- Whether an operand refers to a definition, by a reference or by a raw token. -/
def Operand.RefersTo (operand : Operand) (transformer : Transformer) (start now : World)
    (definition : Definition) : Prop :=
  .definition definition ∈ operand.targets ∨
    ∃ token, operand = .token token ∧ transformer.Names start now token definition

/-- Whether a body refers to a definition, by references or by raw tokens. -/
def Body.RefersTo (body : Body) (transformer : Transformer) (start now : World)
    (definition : Definition) : Prop :=
  .definition definition ∈ body.targets ∨ ∃ instruction ∈ body.code, ∃ token,
    instruction.operand = .token token ∧ transformer.Names start now token definition

/-- An import leaves a target alone or replaces it by a declaration. -/
theorem Transformer.mem_image_bind {transformer : Transformer} {world : World}
    {target target' : Target} (hmem : target' ∈ (transformer.bind world).image target) :
    target' = target ∨ ∃ declaration, target' = .declaration declaration := by
  cases transformer with
  | plain | redirecting => exact .inl (by simpa [Transformer.bind] using hmem)
  | importing importer bases =>
      rcases World.mem_image_bind hmem with rfl | ⟨_, declaration, -, -, -, rfl⟩
      · exact .inl rfl
      · exact .inr ⟨declaration, rfl⟩

namespace Moment

variable {start : World} {now : Moment} {transformer : Transformer}
  {hidden : Option (DefId .method)}

/-- What is carried over leads to what declarations stand for, and to definitions that it led to
before. -/
theorem Carries.leads {α : Type} {targets : α → List Target} {relink : Relink → α → α}
    {value carried : α} (hrelinks : Relinks targets relink)
    (hlinkable : ∀ value, ∀ target ∈ targets value, target.Linkable)
    (hcarries : now.Carries start transformer targets relink value carried) :
    ∀ target ∈ targets carried, ∃ definition, target = .definition definition ∧
      ((∃ declaration, now.answer declaration = some definition) ∨ target ∈ targets value) := by
  obtain ⟨world, -, -, hsettled, hcarried⟩ := hcarries
  rw [hrelinks.targets_of_bare hcarried, hrelinks.targets_relink]
  intro target hmem
  obtain ⟨source, hsource, hmem⟩ := List.mem_flatMap.mp hmem
  rcases mem_image_fill (hsettled source hsource) hmem with
    rfl | ⟨declaration, definition, -, hknown, rfl⟩
  · cases target with
    | unknown => exact absurd (hsettled _ hsource) id
    | declaration declaration =>
        exact absurd hmem (declaration_notMem_image_fill (hsettled _ hsource)
          (hlinkable _ _ hsource) declaration)
    | definition definition =>
        refine ⟨definition, rfl, .inr ?_⟩
        rw [hrelinks.targets_relink] at hsource
        obtain ⟨given, hgiven, himage⟩ := List.mem_flatMap.mp hsource
        rcases Transformer.mem_image_bind himage with rfl | ⟨_, heq⟩
        · exact hgiven
        · cases heq
  · exact ⟨definition, rfl, .inl ⟨declaration, hknown⟩⟩

section Leads

variable (hstack : now.stack = []) (hremembered : ∀ declaration definition,
  now.session.resolved.get? declaration = some definition → now.defs.has definition = true)

include hstack hremembered

/-- What has been carried over leads to definitions that exist or that it led to before. -/
theorem Carries.exist {α : Type} {targets : α → List Target} {relink : Relink → α → α}
    {value carried : α} (hrelinks : Relinks targets relink)
    (hlinkable : ∀ value, ∀ target ∈ targets value, target.Linkable)
    (hcarries : now.Carries start transformer targets relink value carried) :
    ∀ target ∈ targets carried, ∃ definition, target = .definition definition ∧
      (now.defs.has definition = true ∨ target ∈ targets value) := by
  intro target hmem
  obtain ⟨definition, rfl, ⟨declaration, hknown⟩ | hgiven⟩ :=
    hcarries.leads hrelinks hlinkable target hmem
  · rw [answer_idle hstack] at hknown
    exact ⟨definition, rfl, .inl (hremembered _ _ hknown)⟩
  · exact ⟨definition, rfl, .inr hgiven⟩

variable (hhidden : ∀ method, hidden = some method → now.defs.has (.method method) = true)

include hhidden

theorem Carried.exist {call : Bool} {operand carried : Operand}
    (hcarried : now.Carried start transformer hidden call operand carried) :
    ∀ target ∈ carried.targets, ∃ definition, target = .definition definition ∧
      (now.defs.has definition = true ∨
        operand.RefersTo transformer start now.world definition) := by
  induction hcarried with
  | base hplain hbase hmethod =>
      intro target hmem
      obtain rfl := List.mem_singleton.mp hmem
      exact ⟨_, rfl, .inl (hhidden _ hmethod)⟩
  | @baseInstance ref args args' method hbase hmethod hargs =>
      intro target hmem
      simp only [Operand.targets, MethodRef.targets, List.mem_append, List.mem_singleton,
        TypeSig.targetsList_eq_flatMap, List.mem_flatMap] at hmem
      obtain rfl | ⟨signature, hsignature, hmem⟩ := hmem
      · exact ⟨_, rfl, .inl (hhidden _ hmethod)⟩
      · obtain ⟨given, hgiven, hcarries⟩ := exists_left_of_forall₂ hargs signature hsignature
        obtain ⟨definition, rfl, h⟩ := hcarries.exist hstack hremembered TypeSig.relinks
          TypeSig.targets_linkable target hmem
        refine ⟨definition, rfl, h.imp_right fun htarget => .inl ?_⟩
        simp only [Operand.targets, MethodRef.targets, List.mem_append,
          TypeSig.targetsList_eq_flatMap, List.mem_flatMap]
        exact .inr ⟨given, hgiven, htarget⟩
  | other hkeeps hcarries =>
      intro target hmem
      obtain ⟨definition, rfl, h⟩ :=
        hcarries.exist hstack hremembered Operand.relinks Operand.targets_linkable target hmem
      exact ⟨definition, rfl, h.imp_right .inl⟩
  | @token token named scope world call operand operand' hbetween hscope hlookup hnamed _ ih =>
      intro target hmem
      obtain ⟨definition, rfl, h⟩ := ih target hmem
      refine ⟨definition, rfl, h.imp_right fun hrefers => .inr ⟨token, rfl, world, scope, hbetween,
        hscope, ?_⟩⟩
      have heq : definition = named := by
        cases named <;> cases hnamed <;>
          simpa [Operand.RefersTo, Operand.targets, TypeRef.targets, FieldRef.targets,
            MethodRef.targets] using hrefers
      rw [heq, hlookup]

/-- A body that has been carried over leads to definitions that exist or that the declared body
refers to. -/
theorem CarriedBody.exist {body carried : Body}
    (hcarried : now.CarriedBody start transformer hidden body carried) :
    ∀ target ∈ carried.targets, ∃ definition, target = .definition definition ∧
      (now.defs.has definition = true ∨ body.RefersTo transformer start now.world definition) := by
  intro target hmem
  simp only [Body.targets, TypeSig.targetsList_eq_flatMap, List.mem_append, List.mem_flatMap]
    at hmem
  obtain (⟨instruction', hinstruction, hmem⟩ | ⟨signature', hsignature, hmem⟩) |
    ⟨handler', hhandler, hmem⟩ := hmem
  · obtain ⟨instruction, hgiven, -, call, hcall⟩ :=
      exists_left_of_forall₂ hcarried.code instruction' hinstruction
    obtain ⟨definition, rfl, h⟩ := hcall.exist hstack hremembered hhidden target hmem
    refine ⟨definition, rfl, h.imp_right ?_⟩
    rintro (htarget | hnamed)
    · exact .inl (List.mem_append_left _ (List.mem_append_left _
        (List.mem_flatMap.mpr ⟨instruction, hgiven, htarget⟩)))
    · exact .inr ⟨instruction, hgiven, hnamed⟩
  · obtain ⟨signature, hgiven, hcarries⟩ :=
      exists_left_of_forall₂ hcarried.locals signature' hsignature
    obtain ⟨definition, rfl, h⟩ := hcarries.exist hstack hremembered TypeSig.relinks
      TypeSig.targets_linkable target hmem
    refine ⟨definition, rfl, h.imp_right fun htarget => .inl ?_⟩
    rw [Body.targets, TypeSig.targetsList_eq_flatMap]
    exact List.mem_append_left _ (List.mem_append_right _
      (List.mem_flatMap.mpr ⟨signature, hgiven, htarget⟩))
  · obtain ⟨handler, hgiven, -, hcatch⟩ :=
      exists_left_of_forall₂ hcarried.handlers handler' hhandler
    cases hcaught : handler'.catchType with
    | none => simp [hcaught] at hmem
    | some type' =>
        rw [hcaught] at hcatch hmem
        obtain ⟨type, hcaught', hcarries⟩ := exists_left_of_rel hcatch
        obtain ⟨definition, rfl, h⟩ := hcarries.exist hstack hremembered TypeRef.relinks
          TypeRef.targets_linkable target hmem
        refine ⟨definition, rfl, h.imp_right fun htarget => .inl ?_⟩
        exact List.mem_append_right _
          (List.mem_flatMap.mpr ⟨handler, hgiven, by rwa [hcaught']⟩)

end Leads

end Moment

open SessionTask in
/-- All that a transplanted body refers to are definitions. They exist, but for those that the
declared body refers to itself. -/
theorem transplant_leads {state after : SessionState} {id : DeclId .method} {suffix : String}
    {hidden : Option (DefId .method)} {graft : Transplant} (hsound : Moment.Sound { state })
    (hdeclared : (state.world.decls.method id).body = some graft)
    (hon : (transplant id suffix).on state = (.ok hidden, after)) :
    ∃ method body, after.session.resolved.get? (.method id) = some (.method method) ∧
      (after.world.defs.method method).body = some body ∧
      ∀ target ∈ body.targets, ∃ definition, target = .definition definition ∧
        (after.world.defs.has definition = true ∨
          graft.body.RefersTo graft.transformer state.world after.world definition) := by
  have hcases := Layer.transplant_cases hsound id suffix
  rw [hon] at hcases
  rcases hcases with ⟨-, -, -, hnone⟩ | ⟨graft', hidden', method, houtcome, honto, hgrafts⟩
  · cases (hnone hidden rfl).symm.trans hdeclared
  · cases houtcome
    cases hdeclared.symm.trans honto.declared
    obtain ⟨body, done, hbody, rfl, hstack, hcarried, -⟩ := hgrafts.correct
    refine ⟨method, body, honto.onto, hbody, ?_⟩
    refine hcarried.exist hstack hgrafts.sound.remembered fun other hother => ?_
    obtain ⟨-, owner, made, -, -, hmade, -⟩ := hgrafts.apart other hother
    exact Definitions.has_iff.mpr ⟨made, hmade⟩

/-- The declaration of a method, with a body that has one local variable of some type. -/
def MethodDecl.keeping (type : TypeRef) : MethodDecl :=
  { MethodDecl.tick [] with
    body := some
      { body :=
          { code := [{ opcode := ⟨0, 0x2A, "ret", .none, .returning⟩ }]
            locals := [.classType type] }
        transformer := .redirecting [] none } }

open SessionTask in
/-- A reference to a definition that does not exist survives a transplant. -/
theorem dangling_survives :
    ¬ ∀ state id suffix hidden after method body, Moment.Sound { state } →
      (transplant id suffix).on state = (.ok hidden, after) →
      after.session.resolved.get? (.method id) = some (.method method) →
      (after.world.defs.method method).body = some body →
      ∀ definition, .definition definition ∈ body.targets →
        after.world.defs.has definition = true := by
  intro h
  let state := World.clockSession [.keeping (.definition ⟨9⟩)]
  have hsucceeds : ((transplant ⟨0⟩ "<Base>$").on state).1 = .ok none := by decide +kernel
  have hfound : ((transplant ⟨0⟩ "<Base>$").on state).2.session.resolved.get? (.method ⟨0⟩) =
      some (.method ⟨0⟩) := by
    decide +kernel
  have hkept : ((((transplant ⟨0⟩ "<Base>$").on state).2.world.defs.method ⟨0⟩).body.elim []
      Body.targets).contains (.definition (.type ⟨9⟩)) = true := by
    decide +kernel
  have hmissing : ((transplant ⟨0⟩ "<Base>$").on state).2.world.defs.has (.type ⟨9⟩) = false := by
    decide +kernel
  cases hon : (transplant ⟨0⟩ "<Base>$").on state with
  | mk outcome after =>
      rw [hon] at hsucceeds hfound hkept hmissing
      cases hsucceeds
      cases hbody : (after.world.defs.method ⟨0⟩).body with
      | none => simp [hbody] at hkept
      | some body =>
          rw [hbody] at hkept
          have hhas := h _ _ _ _ _ _ _ (World.sound_clock _) hon hfound hbody _
            (List.contains_iff_mem.mp hkept)
          exact Bool.false_ne_true (hmissing.symm.trans hhas)

/-! ## Hidden methods -/

open SessionTask Moment in
/-- A hidden method is made after the method was found, and has the body that the method had
then. -/
theorem hidden_body {state after : SessionState} {id : DeclId .method} {suffix : String}
    {hidden : DefId .method} (hsound : Moment.Sound { state })
    (hon : (transplant id suffix).on state = (.ok (some hidden), after)) :
    ∃ method begun, (receiver id).on state = (.ok method, begun) ∧
      begun.world.defs.has (.method hidden) = false ∧
      after.world.defs.has (.method hidden) = true ∧
      (after.world.defs.method hidden).body = (begun.world.defs.method method).body := by
  cases hgraft : (state.world.decls.method id).body with
  | none => simp [transplant_eq, on_bind, hgraft] at hon
  | some graft =>
      rw [transplant_eq, on_bind, on_world] at hon
      dsimp only at hon
      rw [hgraft] at hon
      obtain ⟨⟨method, body, context⟩, middle, hcarries, hreplaces⟩ := on_bind_ok.mp hon
      rw [carryOver_eq] at hcarries
      obtain ⟨found, begun, hbegun, hcarries⟩ := on_bind_ok.mp hcarries
      obtain ⟨begun, rfl, hworking, hasks⟩ := working_of_receiver suffix hsound hgraft hbegun
      have hadvances := advances_body hworking rfl hasks (World.reaches_all begun.world []).closed
      rw [on_bind, on_world] at hcarries
      obtain ⟨⟨body, context⟩, middle, hcarried, heq⟩ := on_bind_ok.mp hcarries
      cases heq
      rw [hcarried] at hadvances
      obtain ⟨done, rfl, -, -, hworking', honward, -⟩ := hadvances
      obtain ⟨houtcome, hafter⟩ := Prod.ext_iff.mp hreplaces
      obtain ⟨hnew, hhides⟩ := hworking'.hidden hidden (Except.ok.inj houtcome)
      obtain ⟨_, made, _, _, _, -, -, hmade, -, -, hbody, -⟩ := hhides
      have hne : hidden ≠ method := by
        rintro rfl
        have hhas := hworking.sound.remembered _ _ hworking.memo
        exact Bool.false_ne_true (hnew.symm.trans hhas)
      have hchanges : done.defs.Changes after.world.defs (.method method) (Record.graft body) := by
        rw [← show _ = after from hafter]
        exact Definitions.updateMethod_changes fun _ => rfl
      have hkept : after.world.defs.record? (.method hidden) = some made := by
        rw [hchanges.record?, if_neg (by simpa using hne), hmade]
      refine ⟨method, begun.state, hbegun, hnew, Definitions.has_iff.mpr ⟨made, hkept⟩, ?_⟩
      rw [Definitions.body_eq, hkept, Option.bind_some, hbody, honward.base]
      rfl

/-- The declaration of a method that does not exist, with a body that calls the base body. -/
def MethodDecl.chime : MethodDecl :=
  { MethodDecl.tick [] with
    terms := ⟨.failIfPresent, false⟩
    name := "Chime"
    body := some
      { body :=
          { code := [⟨0, ⟨0, 0x28, "call", .token, .call⟩, .method (.declared ⟨0⟩)⟩,
              { opcode := ⟨0, 0x2A, "ret", .none, .returning⟩ }] }
        transformer := .redirecting [.declared ⟨0⟩] none } }

open SessionTask in
/-- A method that has no body still gets a hidden method, which has none either. -/
theorem hidden_without_body :
    ¬ ∀ state id suffix hidden after, Moment.Sound { state } →
      (transplant id suffix).on state = (.ok (some hidden), after) →
      (after.world.defs.method hidden).body.isSome = true := by
  intro h
  let state := World.clockSession [.chime]
  have hsucceeds : ((transplant ⟨0⟩ "<Base>$").on state).1 = .ok (some ⟨2⟩) := by decide +kernel
  have hbare : (((transplant ⟨0⟩ "<Base>$").on state).2.world.defs.method ⟨2⟩).body.isSome =
      false := by
    decide +kernel
  cases hon : (transplant ⟨0⟩ "<Base>$").on state with
  | mk outcome after =>
      rw [hon] at hsucceeds hbare
      cases hsucceeds
      exact Bool.false_ne_true (hbare.symm.trans (h _ _ _ _ _ (World.sound_clock _) hon))

end Graft
