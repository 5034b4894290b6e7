import Graft.Proofs.Session.Calls
import Graft.Proofs.Session.Namesakes
import Graft.Proofs.Signature.Display
import Graft.Proofs.Signature.Renaming

/-!
# Resolving is a projection

Whatever a session has been asked before and whatever was declared in the meantime
(`SessionState.Arises`): a reference that is resolved keeps its shape, leads to definitions only,
and is resolved as it is from then on, by nothing being searched for (`Resolves`). A signature also
reads as it did before, and is the same as before where declarations are compared, provided that the
types around those that it refers to are still declared, and that listed types name the scopes that
list them (`Projects`).
-/

namespace Graft

/-- Whether an operation gives a value and does nothing else. -/
def SessionTask.Yields {α : Type} (task : SessionTask α) (state : SessionState) (value : α) :
    Prop :=
  task.on state = (.ok value, state)

namespace SessionTask

variable {α β : Type} {state : SessionState}

theorem Yields.pure (value : α) : Yields (Pure.pure value) state value :=
  rfl

theorem Yields.bind {task : SessionTask α} {next : α → SessionTask β} {first : α} {value : β}
    (htask : task.Yields state first) (hnext : (next first).Yields state value) :
    (task >>= next).Yields state value :=
  on_bind_ok.mpr ⟨first, state, htask, hnext⟩

end SessionTask

namespace Moment

open SessionTask

variable {now : Moment}

/-- An owner that is in its slot is accepted. -/
theorem yields_checkOwner {kind : VarKind} {index : UInt32} {owner : VarOwner}
    (hcovers : now.Covers [] owner.slots) :
    (Search.checkOwner kind index owner).Yields now.state () := by
  cases owner with
  | deferred slot =>
      have hslot := hcovers.owned slot List.mem_cons_self
      have hsome : (now.state.world.slot? slot).isNone = false := by
        rw [Option.isNone_eq_false_iff]
        exact hslot
      rw [Yields, Search.checkOwner, on_bind, on_world]
      dsimp only
      rw [hsome]
      rfl
  | _ => rfl

section Refilling

variable (search : Search)

mutual

/-- A reference that has been filled in is resolved as it is, and nothing is searched for. -/
theorem yields_resolveTypeRef (ref : TypeRef) (hcovers : now.Covers ref.targets ref.slots) :
    (search.resolveTypeRef (ref.relink now.fill)).Yields now.state (ref.relink now.fill) := by
  cases ref with
  | definition id => simp only [TypeRef.relink, Relink.fill, Search.resolveTypeRef]; rfl
  | external type => simp only [TypeRef.relink, Search.resolveTypeRef]; rfl
  | declared id =>
      obtain ⟨found, hanswer, hkind⟩ := hcovers.settled _ List.mem_cons_self
      cases found with
      | type found => simp only [TypeRef.relink, Relink.fill, hanswer, Search.resolveTypeRef]; rfl
      | module | field | method | property | event => cases hkind
  | constructed signature =>
      simp only [TypeRef.targets, TypeRef.slots] at hcovers
      simp only [TypeRef.relink, Search.resolveTypeRef]
      exact (yields_resolveTypeSig signature hcovers).bind (.pure _)
termination_by structural ref

theorem yields_resolveTypeSig (signature : TypeSig)
    (hcovers : now.Covers signature.targets signature.slots) :
    (search.resolveTypeSig (signature.relink now.fill)).Yields now.state
      (signature.relink now.fill) := by
  cases signature with
  | unknown => exact absurd (hcovers.settled _ List.mem_cons_self) id
  | sentinel | primitive => simp only [TypeSig.relink, Search.resolveTypeSig]; rfl
  | classType type | valueType type =>
      simp only [TypeSig.targets, TypeSig.slots] at hcovers
      simp only [TypeSig.relink, Search.resolveTypeSig]
      exact (yields_resolveTypeRef type hcovers).bind (.pure _)
  | genericVar kind index owner =>
      simp only [TypeSig.targets, TypeSig.slots] at hcovers
      simp only [TypeSig.relink, Relink.fill, id_eq, Search.resolveTypeSig]
      exact (yields_checkOwner hcovers).bind (.pure _)
  | function signature =>
      simp only [TypeSig.targets, TypeSig.slots] at hcovers
      simp only [TypeSig.relink, Search.resolveTypeSig]
      exact (yields_resolveMethodSig signature hcovers).bind (.pure _)
  | applied generic args =>
      simp only [TypeSig.targets, TypeSig.slots, covers_append] at hcovers
      simp only [TypeSig.relink, Search.resolveTypeSig]
      exact (yields_resolveTypeSig generic hcovers.1).bind
        ((yields_resolveTypeSigs args hcovers.2).bind (.pure _))
  | pointer inner | byRef inner | vector inner | pinned inner | array inner shape
  | inModule index inner =>
      simp only [TypeSig.targets, TypeSig.slots] at hcovers
      simp only [TypeSig.relink, Search.resolveTypeSig]
      exact (yields_resolveTypeSig inner hcovers).bind (.pure _)
  | required modifier inner | optional modifier inner =>
      simp only [TypeSig.targets, TypeSig.slots, covers_append] at hcovers
      simp only [TypeSig.relink, Search.resolveTypeSig]
      exact (yields_resolveTypeRef modifier hcovers.1).bind
        ((yields_resolveTypeSig inner hcovers.2).bind (.pure _))
termination_by structural signature

theorem yields_resolveMethodSig (signature : MethodSig)
    (hcovers : now.Covers signature.targets signature.slots) :
    (search.resolveMethodSig (signature.relink now.fill)).Yields now.state
      (signature.relink now.fill) := by
  obtain ⟨callConv, genericCount, result, params, varargs⟩ := signature
  simp only [MethodSig.targets, MethodSig.slots, covers_append] at hcovers
  obtain ⟨⟨hresult, hparams⟩, hvarargs⟩ := hcovers
  simp only [MethodSig.relink, Search.resolveMethodSig]
  exact (yields_resolveTypeSig result hresult).bind ((yields_resolveTypeSigs params hparams).bind
    ((yields_resolveTypeSigs varargs hvarargs).bind (.pure _)))
termination_by structural signature

theorem yields_resolveTypeSigs (signatures : List TypeSig)
    (hcovers : now.Covers (TypeSig.targetsList signatures) (TypeSig.slotsList signatures)) :
    (search.resolveTypeSigs (TypeSig.relinkList now.fill signatures)).Yields now.state
      (TypeSig.relinkList now.fill signatures) := by
  cases signatures with
  | nil => simp only [TypeSig.relinkList, Search.resolveTypeSigs]; rfl
  | cons signature rest =>
      simp only [TypeSig.targetsList, TypeSig.slotsList, covers_append] at hcovers
      simp only [TypeSig.relinkList, Search.resolveTypeSigs]
      exact (yields_resolveTypeSig signature hcovers.1).bind
        ((yields_resolveTypeSigs rest hcovers.2).bind (.pure _))
termination_by structural signatures

end

theorem yields_resolveFieldRef (ref : FieldRef) (hcovers : now.Covers ref.targets ref.slots) :
    (search.resolveFieldRef (ref.relink now.fill)).Yields now.state (ref.relink now.fill) := by
  cases ref with
  | definition id => rfl
  | declared id =>
      obtain ⟨found, hanswer, hkind⟩ := hcovers.settled _ List.mem_cons_self
      cases found with
      | field found =>
          simp only [FieldRef.relink, Relink.fill, hanswer, Search.resolveFieldRef]; rfl
      | module | type | method | property | event => cases hkind
  | external owner name signature =>
      simp only [FieldRef.targets, FieldRef.slots, covers_append] at hcovers
      simp only [FieldRef.relink, Search.resolveFieldRef]
      exact (yields_resolveTypeRef search owner hcovers.1).bind
        ((yields_resolveTypeSig search signature hcovers.2).bind (.pure _))

theorem yields_resolveMethodRef (ref : MethodRef) (hcovers : now.Covers ref.targets ref.slots) :
    (search.resolveMethodRef (ref.relink now.fill)).Yields now.state (ref.relink now.fill) := by
  cases ref with
  | definition id => simp only [MethodRef.relink, Relink.fill, Search.resolveMethodRef]; rfl
  | declared id =>
      obtain ⟨found, hanswer, hkind⟩ := hcovers.settled _ List.mem_cons_self
      cases found with
      | method found =>
          simp only [MethodRef.relink, Relink.fill, hanswer, Search.resolveMethodRef]; rfl
      | module | type | field | property | event => cases hkind
  | external owner name signature =>
      simp only [MethodRef.targets, MethodRef.slots, covers_append] at hcovers
      simp only [MethodRef.relink, Search.resolveMethodRef]
      exact (yields_resolveTypeRef search owner hcovers.1).bind
        ((yields_resolveMethodSig search signature hcovers.2).bind (.pure _))
  | instantiated method args =>
      simp only [MethodRef.targets, MethodRef.slots, covers_append] at hcovers
      simp only [MethodRef.relink, Search.resolveMethodRef]
      exact (yields_resolveMethodRef method hcovers.1).bind
        ((yields_resolveTypeSigs search args hcovers.2).bind (.pure _))
termination_by structural ref

theorem yields_resolvePropertySig (signature : PropertySig)
    (hcovers : now.Covers signature.targets signature.slots) :
    (search.resolvePropertySig (signature.relink now.fill)).Yields now.state
      (signature.relink now.fill) := by
  simp only [PropertySig.targets, PropertySig.slots, covers_append] at hcovers
  exact (yields_resolveTypeSig search signature.type hcovers.1).bind
    ((yields_resolveTypeSigs search signature.params hcovers.2).bind (.pure _))

theorem yields_resolveOverride (override : Override)
    (hcovers : now.Covers override.targets override.slots) :
    (search.resolveOverride (override.relink now.fill)).Yields now.state
      (override.relink now.fill) := by
  simp only [Override.targets, Override.slots, covers_append] at hcovers
  exact (yields_resolveMethodRef search override.body hcovers.1).bind
    ((yields_resolveMethodRef search override.declaration hcovers.2).bind (.pure _))

end Refilling

end Moment

/-! ## The states of a session -/

namespace SessionState

variable {state : SessionState} {world : World}

/-- Whether a world can follow on the one that a session works in while nothing is asked of the
session. What the session holds stays. What is declared may come and go, but keeps its place and its
name as long as it is there, and a type that has been resolved does not come back. -/
structure Precedes (state : SessionState) (world : World) : Prop where
  held : world.defs.Held
  keeps : state.session.Keeps state.world.defs world.defs
  source : (world.source state.session.source).Sound world.defs
  declared : ∀ id, state.world.decls.has (.type id) = true → world.decls.has (.type id) = true →
    (world.decls.type id).place = (state.world.decls.type id).place ∧
      (world.decls.type id).name = (state.world.decls.type id).name
  gone : ∀ id found, state.session.resolved.get? (.type id) = some found →
    world.decls.Enclosed id → state.world.decls.Enclosed id

/-- Whether a session can come into a state: it begins, it is asked something, whatever becomes of
that, and in between the world goes on. -/
inductive Arises : SessionState → Prop where
  | begin {world : World} {source : SourceId} (hheld : world.defs.Held)
      (hsource : (world.source source).Sound world.defs) : Arises ⟨{ source }, world⟩
  | request {state : SessionState} (h : Arises state) (call : SessionCall) :
      Arises (call.perform.on state).2
  | meanwhile {state : SessionState} {world : World} (h : Arises state)
      (hworld : state.Precedes world) : Arises ⟨state.session, world⟩

theorem Precedes.sound (h : state.Precedes world) (hsound : Moment.Sound { state }) :
    Moment.Sound { state := ⟨state.session, world⟩ } where
  held := h.held
  modules name module hmodule := h.keeps.has (.module hmodule) (hsound.modules name module hmodule)
  source := h.source
  remembered declaration definition hknown :=
    h.keeps.has (.resolved hknown) (hsound.remembered declaration definition hknown)
  located := by simp
  unfinished := by simp
  distinct := by simp
  kinds := hsound.kinds
  made := by simp

theorem Precedes.eponymous (h : state.Precedes world) (heponymous : Moment.Eponymous { state }) :
    Moment.Eponymous { state := ⟨state.session, world⟩ } where
  modules := heponymous.modules
  types id found hanswer henclosed := by
    have hmemo := (Moment.answer_idle rfl).symm.trans hanswer
    obtain ⟨depth, hnamesake⟩ := heponymous.types id found hanswer (h.gone id _ hmemo henclosed)
    exact ⟨depth, (hnamesake.keeps h.keeps fun _ _ hmodule => hmodule).redeclared henclosed
      h.declared⟩

/-- In every state that a session can come into all that it remembers exists, and what declared
types stand for has their names. -/
theorem Arises.sound_and_eponymous (h : state.Arises) :
    Moment.Sound { state } ∧ Moment.Eponymous { state } := by
  induction h with
  | begin hheld hsource =>
      refine ⟨Moment.sound_begin hheld hsource, fun id module hanswer => ?_,
        fun id found hanswer => ?_⟩
      · cases hanswer
      · cases hanswer
  | request _ call ih =>
      obtain ⟨hsound, heponymous⟩ := ih
      obtain ⟨next, hstate, hstack, hrun⟩ :=
        Moment.perform_run hsound rfl (World.reaches_all _ [call]) List.mem_cons_self
      have hnext := hrun.eponymous hsound heponymous
      -- Nothing is in flight after a request, so all that is known is what is remembered.
      have hanswers : next.answer = Moment.answer { state := next.state } := by
        funext declaration
        rw [Moment.answer_idle hstack, Moment.answer_idle rfl]
      rw [← hstate]
      refine ⟨(hrun.sound hsound).plain, fun id module hanswer => ?_, fun id found hanswer => ?_⟩
      · exact hnext.modules id module (hanswers ▸ hanswer)
      · exact hnext.types id found (hanswers ▸ hanswer)
  | meanwhile _ hworld ih => exact ⟨hworld.sound ih.1, hworld.eponymous ih.2⟩

end SessionState

/-! ## What resolving makes of a reference -/

section Projection

variable {α : Type}

/-- What resolving makes of a reference, in the state that it leaves behind: what declarations stand
for is put in and nothing else changes, no declaration is left over, and resolving the result gives
it back and changes nothing, whatever would be searched for. -/
structure Resolves (targets : α → List Target) (relink : Relink → α → α)
    (resolve : Search → α → SessionTask α) (value resolved : α) (final : SessionState) : Prop where
  filled : resolved = relink (.fill final.session.resolved.get?) value
  shape : relink .blank resolved = relink .blank value
  definite : ∀ declaration, .declaration declaration ∉ targets resolved
  again : ∀ search, (resolve search resolved).on final = (.ok resolved, final)

/-- What resolving makes of a signature: the result is strictly the same as itself. It reads like
the signature and is the same where declarations are compared, if listed types name the scopes that
list them and the types around those that the signature refers to are declared. -/
structure Projects (targets : α → List Target) (relink : Relink → α → α)
    (text : TypeNames → α → String) (same : TypeNames → Comparison → α → α → Bool)
    (resolve : Search → α → SessionTask α) (signature resolved : α) (final : SessionState) : Prop
    extends Resolves targets relink resolve signature resolved final where
  strict : same final.world.typeNames .strict resolved resolved = true
  alike : final.world.defs.Housed →
    (∀ id, .declaration (.type id) ∈ targets signature → final.world.decls.Enclosed id) →
      text final.world.typeNames resolved = text final.world.typeNames signature ∧
        same final.world.typeNames .declared signature resolved = true

/-- What is known at the moment at which a reference has been resolved. -/
structure Refilled (targets : α → List Target) (slots : α → List SlotId) (relink : Relink → α → α)
    (value resolved : α) (next : Moment) : Prop where
  stack : next.stack = []
  sound : next.Sound
  eponymous : next.Eponymous
  covers : next.Covers (targets value) (slots value)
  filled : resolved = relink next.fill value

variable {targets : α → List Target} {slots : α → List SlotId} {relink : Relink → α → α}
  {text : TypeNames → α → String} {same : TypeNames → Comparison → α → α → Bool}
  {normal : TypeNames → Comparison → α → α} {resolve : Search → α → SessionTask α}
  {value resolved : α} {state final : SessionState} {next : Moment}

namespace Refilled

variable (h : Refilled targets slots relink value resolved next)

include h

theorem resolves (hrelinks : Relinks targets relink)
    (hlinkable : ∀ target ∈ targets value, target.Linkable)
    (hyields : ∀ (now : Moment) search, now.Covers (targets value) (slots value) →
      (resolve search (relink now.fill value)).Yields now.state (relink now.fill value)) :
    Resolves targets relink resolve value resolved next.state where
  filled := by
    have hanswer : next.answer = next.state.session.resolved.get? :=
      funext fun declaration => Moment.answer_idle h.stack
    rw [h.filled, Moment.fill, hanswer]
  shape := by rw [h.filled, hrelinks.fill_blank]
  definite declaration hmem := by
    rw [h.filled, hrelinks.targets_relink] at hmem
    obtain ⟨target, htarget, hmem⟩ := List.mem_flatMap.mp hmem
    exact declaration_notMem_image_fill (h.covers.settled target htarget)
      (hlinkable target htarget) declaration hmem
  again search := h.filled ▸ hyields next search h.covers

/-- What is put in has the names of what it is put in for. -/
theorem fills (hhoused : next.defs.Housed)
    (henclosed : ∀ id, .declaration (.type id) ∈ targets value → next.decls.Enclosed id) :
    next.world.typeNames.Fills next.world.typeNames next.answer (targets value) := by
  intro target hmem
  match target with
  | .definition (.type id) => rfl
  | .declaration (.type id) =>
      obtain ⟨found, hanswer, hkind⟩ := h.covers.settled _ hmem
      cases found with
      | type found =>
          have hdeclared := henclosed id hmem
          have hhas : next.world.defs.types.has found.index = true := h.sound.has_answer hanswer
          have hliving : next.world.decls.types.has id.index = true := hdeclared.has
          obtain ⟨depth, hnamesake⟩ := h.eponymous.types id found hanswer hdeclared
          refine ⟨found, hanswer, ?_⟩
          simp only [World.typeNames, hhas, hliving, if_true]
          exact congrArg some (hnamesake.typeName_eq hhoused)
      | module | field | method | property | event => cases hkind
  | .definition (.module _) | .definition (.field _) | .definition (.method _)
  | .definition (.property _) | .definition (.event _) | .declaration (.module _)
  | .declaration (.field _) | .declaration (.method _) | .declaration (.property _)
  | .declaration (.event _) | .unknown => trivial

theorem projects (hresolves : Resolves targets relink resolve value resolved next.state)
    (hrelinks : Relinks targets relink) (hreadable : Readable targets relink text same normal) :
    Projects targets relink text same resolve value resolved next.state where
  toResolves := hresolves
  strict := by
    refine hreadable.same_self ?_
    rw [h.filled, hrelinks.targets_relink]
    exact unknown_notMem_image_fill h.covers.settled
  alike hhoused henclosed := by
    have hshows := (h.fills hhoused henclosed).shows Comparison.ignoreScope_declared
    rw [h.filled]
    exact ⟨hreadable.text_relink hshows,
      hreadable.same_relink (fun hmem => h.covers.settled _ hmem) hshows⟩

end Refilled

namespace SessionState.Arises

variable (h : state.Arises)
  (hleads : ∀ now : Moment, now.Sound → now.stack = [] →
    Moment.Reads (fun _ => True) none now (targets value) (slots value) →
      Moment.Leads (fun _ => True) none now (resolve SessionTask.resolve value)
        fun resolved next => next.Covers (targets value) (slots value) ∧
          resolved = relink next.fill value)

include h hleads

/-- A reference that is resolved has been filled in. -/
theorem refilled (hon : (resolve SessionTask.resolve value).on state = (.ok resolved, final)) :
    ∃ next : Moment, next.state = final ∧ Refilled targets slots relink value resolved next := by
  obtain ⟨hsound, heponymous⟩ := h.sound_and_eponymous
  have hasks : Moment.Asks (fun _ => True) state.world.decls (targets value) :=
    fun _ _ _ => trivial
  obtain ⟨next, hstate, hstack, hrun, hcovers, hfilled⟩ :=
    (hleads { state } hsound rfl hasks.reads).of_ok (state.world.reaches_all []).closed hon
  exact ⟨next, hstate, hstack, hrun.sound hsound, hrun.eponymous hsound heponymous, hcovers,
    hfilled⟩

variable (hrelinks : Relinks targets relink)
  (hlinkable : ∀ target ∈ targets value, target.Linkable)
  (hyields : ∀ (now : Moment) search, now.Covers (targets value) (slots value) →
    (resolve search (relink now.fill value)).Yields now.state (relink now.fill value))

include hrelinks hlinkable hyields

theorem resolves (hon : (resolve SessionTask.resolve value).on state = (.ok resolved, final)) :
    Resolves targets relink resolve value resolved final := by
  obtain ⟨next, rfl, hrefilled⟩ := h.refilled hleads hon
  exact hrefilled.resolves hrelinks hlinkable hyields

theorem projects (hreadable : Readable targets relink text same normal)
    (hon : (resolve SessionTask.resolve value).on state = (.ok resolved, final)) :
    Projects targets relink text same resolve value resolved final := by
  obtain ⟨next, rfl, hrefilled⟩ := h.refilled hleads hon
  exact hrefilled.projects (hrefilled.resolves hrelinks hlinkable hyields) hrelinks hreadable

end SessionState.Arises

end Projection

open Moment

/-- In every state that a session can come into, resolving is a projection on signatures of types,
of methods and of properties; references to fields and methods and overrides are resolved once and
for all as well. The signature of a field is the signature of its type. -/
theorem SessionState.Arises.resolving_projects {state : SessionState} (h : state.Arises) :
    (∀ signature resolved final,
      (Search.resolveTypeSig SessionTask.resolve signature).on state = (.ok resolved, final) →
        Projects TypeSig.targets TypeSig.relink TypeSig.text TypeSig.same Search.resolveTypeSig
          signature resolved final) ∧
    (∀ signature resolved final,
      (Search.resolveMethodSig SessionTask.resolve signature).on state = (.ok resolved, final) →
        Projects MethodSig.targets MethodSig.relink MethodSig.text MethodSig.same
          Search.resolveMethodSig signature resolved final) ∧
    (∀ signature resolved final,
      (Search.resolvePropertySig SessionTask.resolve signature).on state = (.ok resolved, final) →
        Projects PropertySig.targets PropertySig.relink PropertySig.text PropertySig.same
          Search.resolvePropertySig signature resolved final) ∧
    (∀ ref resolved final,
      (Search.resolveFieldRef SessionTask.resolve ref).on state = (.ok resolved, final) →
        Resolves FieldRef.targets FieldRef.relink Search.resolveFieldRef ref resolved final) ∧
    (∀ ref resolved final,
      (Search.resolveMethodRef SessionTask.resolve ref).on state = (.ok resolved, final) →
        Resolves MethodRef.targets MethodRef.relink Search.resolveMethodRef ref resolved final) ∧
    ∀ override resolved final,
      (Search.resolveOverride SessionTask.resolve override).on state = (.ok resolved, final) →
        Resolves Override.targets Override.relink Search.resolveOverride override resolved
          final := by
  have hfinds : Finds (fun _ => True) none [] SessionTask.resolve := finds_resolve _ none
  refine ⟨fun signature resolved final hon => ?type, fun signature resolved final hon => ?method,
    fun signature resolved final hon => ?property, fun ref resolved final hon => ?fieldRef,
    fun ref resolved final hon => ?methodRef, fun override resolved final hon => ?override⟩
  case type =>
    exact h.projects (fun now hsound hstack => leads_resolveTypeSig hfinds hsound hstack signature)
      TypeSig.relinks (fun target hmem => (signature.targets_ofType target hmem).linkable)
      (fun now search => yields_resolveTypeSig search signature) TypeSig.readable hon
  case method =>
    exact h.projects
      (fun now hsound hstack => leads_resolveMethodSig hfinds hsound hstack signature)
      MethodSig.relinks (fun target hmem => (signature.targets_ofType target hmem).linkable)
      (fun now search => yields_resolveMethodSig search signature) MethodSig.readable hon
  case property =>
    exact h.projects
      (fun now hsound hstack => leads_resolvePropertySig hfinds hsound hstack signature)
      PropertySig.relinks (fun target hmem => (signature.targets_ofType target hmem).linkable)
      (fun now search => yields_resolvePropertySig search signature) PropertySig.readable hon
  case fieldRef =>
    exact h.resolves
      (fun now hsound hstack => leads_resolveFieldRef hfinds hsound hstack nofun ref)
      FieldRef.relinks ref.targets_linkable (fun now search => yields_resolveFieldRef search ref)
      hon
  case methodRef =>
    exact h.resolves
      (fun now hsound hstack => leads_resolveMethodRef hfinds hsound hstack nofun ref)
      MethodRef.relinks ref.targets_linkable (fun now search => yields_resolveMethodRef search ref)
      hon
  case override =>
    exact h.resolves
      (fun now hsound hstack => leads_resolveOverride hfinds hsound hstack nofun override)
      Override.relinks override.targets_linkable
      (fun now search => yields_resolveOverride search override) hon

/-- In a well-formed world, a signature with a type at top level is resolved to the signature with
the definition, and reads the same. -/
theorem SessionState.Arises.resolving_guarded :
    let state : SessionState := ⟨{ source := ⟨0⟩ }, World.guarded⟩
    let signature := TypeSig.classType (.declared ⟨0⟩)
    let resolved := TypeSig.classType (.definition ⟨0⟩)
    ∃ final,
      (Search.resolveTypeSig SessionTask.resolve signature).on state = (.ok resolved, final) ∧
      resolved.text final.world.typeNames = signature.text final.world.typeNames ∧
      signature.same final.world.typeNames .declared resolved = true ∧
      (Search.resolveTypeSig SessionTask.resolve resolved).on final = (.ok resolved, final) := by
  intro state signature resolved
  have harises : state.Arises := .begin World.held_guarded (Source.sound_memory (by decide))
  have hmodule : (({} : Definitions).makeModule { name := "Game" }).2.has (.module ⟨0⟩) = true := by
    decide
  have hhoused : World.guarded.defs.Housed :=
    ((Definitions.wellFormed_empty.makeModule "Game").addType hmodule "Core" "Clock" 1).housed
  obtain ⟨final, hon, hdefs, hdecls⟩ : ∃ final,
      (Search.resolveTypeSig SessionTask.resolve signature).on state = (.ok resolved, final) ∧
        final.world.defs = World.guarded.defs ∧ final.world.decls = World.guarded.decls :=
    ⟨_, rfl, rfl, rfl⟩
  have hprojects := (SessionState.Arises.resolving_projects harises).1 signature resolved final hon
  obtain ⟨htext, hsame⟩ := hprojects.alike (hdefs ▸ hhoused) fun id hmem => by
    cases List.mem_singleton.mp hmem
    rw [hdecls]
    exact .top rfl rfl
  exact ⟨final, hon, htext, hsame, hprojects.again _⟩

/-- Whether a signature is resolved to one that reads otherwise and is not the same where
declarations are compared. -/
def SessionState.Misreads (state : SessionState) (signature : TypeSig) : Prop :=
  ∃ resolved final,
    (Search.resolveTypeSig SessionTask.resolve signature).on state = (.ok resolved, final) ∧
      resolved.text final.world.typeNames ≠ signature.text final.world.typeNames ∧
      signature.same final.world.typeNames .declared resolved = false

/-- A module with a type and a type nested in it. -/
def Definitions.clockwork : Definitions :=
  let (module, defs) := ({} : Definitions).makeModule { name := "Game" }
  let (clock, defs) := defs.addType module { namespaceName := "Core", name := "Clock", flags := 1 }
  (defs.addNested clock { name := "Hand", flags := 2 }).2

/-- The nested type is listed by the module as well, and declared at top level. -/
def World.misfiled : World where
  defs := Definitions.clockwork.updateModule ⟨0⟩ fun record =>
    { record with types := record.types ++ [⟨1⟩] }
  decls :=
    { modules := ⟨#[some { terms := ⟨.failIfMissing, false⟩, name := "Game" }]⟩
      types := ⟨#[
        some { terms := ⟨.failIfMissing, false⟩, place := .topLevel ⟨0⟩ "", name := "Hand" }]⟩ }
  sources := ⟨#[some (.memory ⟨[("Game", ⟨0⟩)]⟩ {})]⟩

/-- Both types are declared, one inside the other. -/
def World.clockwork : World where
  defs := Definitions.clockwork
  decls :=
    { modules := ⟨#[some { terms := ⟨.failIfMissing, false⟩, name := "Game" }]⟩
      types := ⟨#[
        some { terms := ⟨.failIfMissing, false⟩, place := .topLevel ⟨0⟩ "Core", name := "Clock" },
        some { terms := ⟨.failIfMissing, false⟩, place := .nested ⟨0⟩, name := "Hand" }]⟩ }
  sources := ⟨#[some (.memory ⟨[("Game", ⟨0⟩)]⟩ {})]⟩

/-- A session has resolved the nested type, and then the declarations around it are given up. -/
def SessionState.orphaned : SessionState where
  session :=
    (SessionState.after ⟨{ source := ⟨0⟩ }, World.clockwork⟩ [.resolve (.type ⟨1⟩)]).session
  world := { World.clockwork with
    decls := { types := ⟨#[none,
      some { terms := ⟨.failIfMissing, false⟩, place := .nested ⟨0⟩, name := "Hand" }]⟩ } }

/-- Only the nested type is still declared then. -/
theorem SessionState.eq_of_has_orphaned {id : DeclId .type}
    (hhas : orphaned.world.decls.has (.type id) = true) : id = ⟨1⟩ := by
  match id with
  | ⟨0⟩ => cases hhas
  | ⟨1⟩ => rfl
  | ⟨_ + 2⟩ => cases hhas

theorem SessionState.not_enclosed_orphaned (id : DeclId .type) :
    ¬ orphaned.world.decls.Enclosed id := by
  intro henclosed
  obtain rfl := eq_of_has_orphaned henclosed.has
  cases henclosed with
  | top hhas hplace => cases hplace
  | inside hhas hplace houter =>
      cases hplace
      cases eq_of_has_orphaned houter.has

theorem SessionState.arises_orphaned : orphaned.Arises := by
  have hbegin : SessionState.Arises ⟨{ source := ⟨0⟩ }, World.clockwork⟩ :=
    .begin (by decide +kernel) (Source.sound_memory (by decide))
  refine .meanwhile (hbegin.request (.resolve (.type ⟨1⟩))) ?_
  refine ⟨by decide +kernel, ?keeps, Source.sound_memory (by decide), ?declared, ?gone⟩
  case keeps => exact .of_grows (.refl _)
  case declared =>
    intro id _ hhas
    obtain rfl := eq_of_has_orphaned hhas
    exact ⟨rfl, rfl⟩
  case gone => exact fun id _ _ henclosed => absurd henclosed (not_enclosed_orphaned id)

/-- Without either condition a signature may read otherwise when it is resolved: where the module
lists a nested type as its own, and where the type around a declared type has been given up. -/
theorem SessionState.Arises.reads_otherwise :
    (SessionState.Arises ⟨{ source := ⟨0⟩ }, World.misfiled⟩ ∧
      SessionState.Misreads ⟨{ source := ⟨0⟩ }, World.misfiled⟩ (.classType (.declared ⟨0⟩))) ∧
    (SessionState.orphaned.Arises ∧
      SessionState.orphaned.Misreads (.classType (.declared ⟨1⟩))) := by
  refine ⟨⟨.begin (by decide +kernel) (Source.sound_memory (by decide)), ?_⟩,
    arises_orphaned, ?_⟩
  · exact ⟨.classType (.definition ⟨1⟩), _, rfl, by decide +kernel, by decide +kernel⟩
  · exact ⟨.classType (.definition ⟨1⟩), _, rfl, by decide +kernel, by decide +kernel⟩

end Graft
