import Graft.Proofs.Session.Calls
import Graft.Proofs.Signature.Naming
import Mathlib

/-!
# One transplant after another

A method may get a new body any number of times, in one session or in several, with anything else
going on in between. Each body reaches the one before it through a hidden method of its own, which
nothing that comes later touches: what was in force before each transplant stays reachable
(`stacked`).
-/

namespace Graft

/-- Whether a method belongs to a type of a module, all of which exist. -/
def Definitions.Attached (defs : Definitions) (id : DefId .method) : Prop :=
  ∃ record owner type module, defs.record? (.method id) = some record ∧
    record.nature.owner = some owner ∧ defs.record? (.type owner) = some type ∧
    type.nature.module = some module ∧ defs.has (.module module) = true

/-- What an attached method belongs to does not change. -/
theorem Definitions.Grows.owner_eq {defs defs' : Definitions} (h : defs.Grows defs')
    {id : DefId .method} (hattached : defs.Attached id) :
    defs'.methods.has id.index = defs.methods.has id.index ∧
      defs'.token (.method id) = defs.token (.method id) ∧
      (defs'.living? (defs'.method id).owner).bind defs'.moduleOf? =
        (defs.living? (defs.method id).owner).bind defs.moduleOf? := by
  obtain ⟨record, owner, type, module, hrecord, howner, htype, hmodule, hhas⟩ := hattached
  obtain ⟨record', hrecord', hnature, -⟩ := h.kept _ _ hrecord
  obtain ⟨type', htype', hnature', -⟩ := h.kept _ _ htype
  have hread {defs : Definitions} {record type : Record}
      (hrecord : defs.record? (.method id) = some record) (howner : record.nature.owner = some owner)
      (htype : defs.record? (.type owner) = some type) (hmodule : type.nature.module = some module)
      (hhas : defs.has (.module module) = true) :
      defs.methods.has id.index = true ∧
        defs.token (.method id) = record.nature.token.getD .null ∧
        (defs.living? (defs.method id).owner).bind defs.moduleOf? = some module := by
    have hmethod := Definitions.has_iff.mpr ⟨record, hrecord⟩
    obtain rfl : (defs.method id).record = record :=
      Option.some.inj ((Definitions.record?_method hmethod).symm.trans hrecord)
    have hliving : defs.living? (defs.method id).owner = some owner :=
      Option.filter_eq_some_iff.mpr ⟨howner, Definitions.has_iff.mpr ⟨type, htype⟩⟩
    refine ⟨hmethod, rfl, ?_⟩
    simp [hliving, Definitions.moduleOf?_eq, htype, hmodule, hhas]
  obtain ⟨hmethod, htoken, hof⟩ := hread hrecord howner htype hmodule hhas
  obtain ⟨hmethod', htoken', hof'⟩ := hread hrecord' (hnature ▸ howner) htype'
    (hnature' ▸ hmodule) (h.has hhas)
  exact ⟨hmethod'.trans hmethod.symm, by rw [htoken', htoken, hnature], hof'.trans hof.symm⟩

/-- Whether a reference to an attached method stands for the base body does not change while a body
is carried over. -/
theorem Transformer.isBase_between {start now world : World} {transformer : Transformer}
    {ref : MethodRef} (h : World.Between start now world)
    (hscope : ∀ id, (now.importer id).scope = (start.importer id).scope)
    (hattached : ∀ id, ref = .definition id → start.defs.Attached id) :
    transformer.isBase world ref = transformer.isBase start ref := by
  cases transformer with
  | plain => rfl
  | redirecting bases scope =>
      simp only [isBase, MethodRef.same_strict world.typeNames start.typeNames]
  | importing importer bases =>
      cases ref with
      | definition id =>
          obtain ⟨hhas, htoken, hmodule⟩ := h.after.owner_eq (hattached id rfl)
          have hscope' : (world.importer importer).scope = (start.importer importer).scope :=
            (h.scope importer).symm.trans (hscope importer)
          have howns {world : World} : importer.ownsMember world (world.defs.method id).owner =
              ((world.defs.living? (world.defs.method id).owner).bind world.defs.moduleOf? ==
                some (world.importer importer).scope) := by
            cases hliving : world.defs.living? (world.defs.method id).owner <;>
              simp [ImporterId.ownsMember, ImporterId.ownsType, hliving]
          simp only [isBase, ImporterId.ownsMethod, howns, hhas, htoken, hmodule, hscope']
      | declared | external | instantiated => rfl

/-- An operand that is a reference to an attached method is carried over as a call to the base body
exactly if the reference stood for it from the beginning. -/
theorem Moment.Carried.call_eq {start : World} {now : Moment} {transformer : Transformer}
    {hidden : Option (DefId .method)} {call : Bool} {ref : MethodRef} {operand : Operand}
    (h : now.Carried start transformer hidden call (.method ref) operand)
    (hscope : ∀ id, (now.world.importer id).scope = (start.importer id).scope)
    (hattached : ∀ id, generic ref = .definition id → start.defs.Attached id) :
    call = transformer.isBase start (generic ref) := by
  have hjudges {isBase : Bool} (hjudges : now.Judges start transformer (generic ref) isBase) :
      isBase = transformer.isBase start (generic ref) := by
    obtain ⟨world, hbetween, hbase⟩ := hjudges
    rw [← hbase, Transformer.isBase_between hbetween hscope hattached]
  cases h with
  | base hplain hbase => exact hjudges (by rwa [hplain])
  | baseInstance hbase => exact hjudges hbase
  | other hkeeps => exact hjudges hkeeps

/-- Hidden methods of one method have different names. -/
theorem Definitions.Hides.name_ne {defs : Definitions} {base base' : Option Body}
    {method hidden hidden' : DefId .method} (h : defs.Hides base method hidden)
    (h' : defs.Hides base' method hidden') (hne : hidden ≠ hidden') :
    (defs.method hidden).name ≠ (defs.method hidden').name := by
  obtain ⟨record, made, owner, front, rest, hrecord, howner, hmade, -, hof, -, hnames⟩ := h
  obtain ⟨_, made', _, front', rest', hrecord', howner', hmade', -, hof', -, hnames'⟩ := h'
  cases hrecord.symm.trans hrecord'
  cases howner.symm.trans howner'
  have hapart : defs.NamedApart owner hidden := ⟨made, front, rest, hmade, hof, hnames⟩
  exact hapart.name_ne ⟨made', front', rest', hmade', hof', hnames'⟩ hne

/-- A transplant: what was asked for, the hidden method that came of it, and the state before and
after. -/
structure Layer where
  id : DeclId .method
  suffix : String
  graft : Transplant
  hidden : Option (DefId .method)
  before : SessionState
  after : SessionState

namespace Layer

variable (layer : Layer) (method : DefId .method)

/-- The body of a method that was in force before. -/
def previous : Option Body :=
  (layer.before.world.defs.method method).body

/-- The body of a method that was in force after. -/
def body : Option Body :=
  (layer.after.world.defs.method method).body

/-- Whether the transplant succeeded and was one onto the method. -/
structure Onto : Prop where
  declared : (layer.before.world.decls.method layer.id).body = some layer.graft
  succeeded : (SessionTask.transplant layer.id layer.suffix).on layer.before =
    (.ok layer.hidden, layer.after)
  onto : layer.after.session.resolved.get? (.method layer.id) = some (.method method)

/-- Whether the method got the declared body, with everything that refers to the base body leading
to the hidden method, which was made if there is such a reference. What refers to the base body is
seen when it is read; for a reference to an attached method it is settled from the beginning. -/
def Correct : Prop :=
  ∃ (body : Body) (done : Moment), layer.body method = some body ∧
    done.state = layer.after ∧ done.stack = [] ∧
    let calls := done.Carried layer.before.world layer.graft.transformer layer.hidden
    done.CarriedBody layer.before.world layer.graft.transformer layer.hidden layer.graft.body body ∧
      (layer.hidden.isSome ↔
        ∃ instruction ∈ layer.graft.body.code, ∃ operand, calls true instruction.operand operand) ∧
      ∀ ref call operand, calls call (.method ref) operand →
        (∀ id, Moment.generic ref = .definition id → layer.before.world.defs.Attached id) →
        call = layer.graft.transformer.isBase layer.before.world (Moment.generic ref)

end Layer

namespace Layer

open Moment

variable {layer : Layer} {method : DefId .method}

/-- What a transplant onto a method does to bodies. -/
structure Grafts (layer : Layer) (method : DefId .method) : Prop where
  sound : Sound { state := layer.after }
  grows : layer.before.world.defs.Grows layer.after.world.defs
  correct : layer.Correct method
  /-- Every other method keeps its body. -/
  kept : ∀ other, layer.before.world.defs.has (.method other) = true → other ≠ method →
    (layer.after.world.defs.method other).body = (layer.before.world.defs.method other).body
  /-- The hidden method is new and has a name that no method before it in its type has. -/
  apart : ∀ hidden, layer.hidden = some hidden →
    layer.before.world.defs.has (.method hidden) = false ∧
      ∃ owner, layer.after.world.defs.NamedApart owner hidden
  /-- The hidden method holds the body that was in force. -/
  hides : layer.before.world.defs.has (.method method) = true →
    ∀ hidden, layer.hidden = some hidden →
      layer.before.world.defs.has (.method hidden) = false ∧
        layer.after.world.defs.Hides (layer.previous method) method hidden

theorem grafts_of_grafted {context : TransplantContext} {body : Body} {done : Moment}
    (hsound : Sound { state := layer.before }) (hhidden : context.hidden = layer.hidden)
    (h : Grafted (fun _ => True) layer.id layer.graft context body { state := layer.before } done
      layer.after) : layer.Grafts context.method := by
  have hworking := h.working
  have hlater := h.replaces.later hworking.sound
  have hcarried := h.carried.mono hlater (hlater.answers (h.grafts.sound hsound) rfl)
  refine ⟨(h.grafts.sound hsound).plain, (h.grafts.later hsound).grows,
    ⟨body, { done with state := layer.after }, h.body_eq, rfl, hworking.stack, ?_, ?_, ?_⟩,
    fun other => h.body_of_ne, ?_, ?_⟩
  · exact hhidden ▸ hcarried
  · rw [← hhidden, Option.isSome_iff_exists]
    refine ⟨fun ⟨hidden, hsome⟩ => hcarried.called hidden hsome, ?_⟩
    rintro ⟨instruction, -, operand, hcall⟩
    exact hcall.exists_hidden rfl
  · intro ref call operand hcall hattached
    exact hcall.call_eq (h.grafts.later hsound).scope hattached
  · intro hidden hsome
    obtain ⟨hnew, hhides⟩ := hworking.hidden hidden (hhidden.trans hsome)
    obtain ⟨owner, hapart⟩ := hhides.namedApart
    exact ⟨hnew, owner, hapart.mono hworking.sound.held hlater.grows⟩
  · intro hhas hidden hsome
    obtain ⟨hnew, hhides⟩ := hworking.hidden hidden (hhidden.trans hsome)
    refine ⟨hnew, ?_⟩
    have hbase : context.base = layer.previous context.method := by
      obtain ⟨record, hrecord⟩ := Definitions.has_iff.mp (h.during.later.grows.has hhas)
      rw [← hworking.base record hrecord, Layer.previous, ← h.during.bodies.body_eq hhas]
      simp [Definitions.body_eq, hrecord]
    rw [← hbase]
    refine hhides.mono hworking.sound.held hlater.grows fun made made' hmade hmade' => ?_
    have hne : hidden ≠ context.method := by
      rintro rfl
      simp [hhas] at hnew
    rw [h.changes.record?, if_neg (by simpa using hne)] at hmade'
    rw [hmade] at hmade'
    cases hmade'
    rfl

/-- What becomes of a transplant in a sound session: it is one onto some method, or every method
keeps its body. -/
theorem transplant_cases {state : SessionState} (hsound : Sound { state })
    (id : DeclId .method) (suffix : String) :
    match (SessionTask.transplant id suffix).on state with
    | (outcome, after) =>
      (Sound { state := after } ∧ state.world.defs.Grows after.world.defs ∧
        state.world.defs.KeepsBodies after.world.defs ∧
        ∀ hidden, outcome = .ok hidden → (state.world.decls.method id).body = none) ∨
      ∃ graft hidden method, outcome = .ok hidden ∧
        (Layer.mk id suffix graft hidden state after).Onto method ∧
        (Layer.mk id suffix graft hidden state after).Grafts method := by
  have hreaches := World.reaches_all state.world []
  have hon := @transplant_on _ { state } id suffix hsound rfl hreaches.closed trivial
    fun graft hgraft hwritable => hreaches.bodies id graft trivial hwritable hgraft
  cases hresult : (SessionTask.transplant id suffix).on state with
  | mk outcome after =>
      rw [hresult] at hon
      cases outcome with
      | error error =>
          obtain ⟨next, rfl, -, hrun⟩ := hon
          exact .inl ⟨(hrun.sound hsound).plain, (hrun.later hsound).grows,
            hrun.keepsBodies rfl hsound, by simp⟩
      | ok hidden =>
          rcases hon with ⟨hnone, -, rfl⟩ | ⟨graft, context, body, done, hhidden, -, hgrafted⟩
          · exact .inl ⟨hsound, .refl _, .refl _, fun _ _ => hnone⟩
          · have honto : (Layer.mk id suffix graft hidden state after).Onto context.method :=
              ⟨hgrafted.declared, hresult, hgrafted.session ▸ hgrafted.working.memo⟩
            exact .inr ⟨graft, hidden, context.method, rfl, honto,
              grafts_of_grafted hsound hhidden hgrafted⟩

theorem Onto.grafts (h : layer.Onto method) (hsound : Sound { state := layer.before }) :
    layer.Grafts method := by
  obtain ⟨id, suffix, graft, hidden, before, after⟩ := layer
  have hcases := transplant_cases hsound id suffix
  rw [h.succeeded] at hcases
  rcases hcases with ⟨-, -, -, hnone⟩ | ⟨graft', hidden', method', houtcome, honto, hgrafts⟩
  · cases (hnone hidden rfl).symm.trans h.declared
  · cases houtcome
    cases h.declared.symm.trans honto.declared
    cases h.onto.symm.trans honto.onto
    exact hgrafts

end Layer

/-- The transplants onto a method so far, and the state that they have led to. In between,
declarations are resolved, bodies are transplanted elsewhere, and new sessions begin in which
there may be more definitions and everything else may be different. No transplant is one onto a
hidden method. -/
inductive Stacking (defs : Definitions) (method : DefId .method) :
    List Layer → SessionState → Prop where
  | start {world : World} {source : SourceId} (hdefs : world.defs = defs)
      (hsource : (world.source source).Sound world.defs) :
      Stacking defs method [] ⟨{ source }, world⟩
  | renew {layers : List Layer} {state : SessionState} {world : World} {source : SourceId}
      (hstacking : Stacking defs method layers state)
      (hextends : state.world.defs.Extends world.defs) (hheld : world.defs.Held)
      (hsource : (world.source source).Sound world.defs) :
      Stacking defs method layers ⟨{ source }, world⟩
  | resolve {layers : List Layer} {state : SessionState} (declaration : Declaration)
      (hstacking : Stacking defs method layers state) :
      Stacking defs method layers ((SessionTask.resolve declaration).on state).2
  | elsewhere {layers : List Layer} {state : SessionState} (id : DeclId .method) (suffix : String)
      (hstacking : Stacking defs method layers state)
      (helsewhere : ∀ (layer : Layer) (other : DefId .method), layer.id = id →
        layer.suffix = suffix → layer.before = state → layer.Onto other →
        other ≠ method ∧ ∀ earlier ∈ layers, earlier.hidden ≠ some other) :
      Stacking defs method layers ((SessionTask.transplant id suffix).on state).2
  | layer {layers : List Layer} {layer : Layer}
      (hstacking : Stacking defs method layers layer.before) (honto : layer.Onto method) :
      Stacking defs method (layers ++ [layer]) layer.after

/-- What holds after any number of transplants onto a method. -/
structure Stacked (defs : Definitions) (method : DefId .method) (layers : List Layer)
    (state : SessionState) : Prop where
  sound : Moment.Sound { state }
  grows : defs.Grows state.world.defs
  /-- Bodies follow each other: each transplant finds the body that the one before has left. -/
  chain : layers.map (·.previous method) ++ [(state.world.defs.method method).body] =
    (defs.method method).body :: layers.map (·.body method)
  correct : ∀ layer ∈ layers, layer.Correct method
  hides : ∀ layer ∈ layers, ∀ hidden, layer.hidden = some hidden →
    defs.has (.method hidden) = false ∧
      state.world.defs.Hides (layer.previous method) method hidden
  distinct : (layers.filterMap (·.hidden)).Nodup

namespace Stacked

variable {defs : Definitions} {method : DefId .method} {layers : List Layer}
  {state state' : SessionState}

/-- What is stacked stays so while the method and its hidden methods keep their bodies. -/
theorem keep (h : Stacked defs method layers state) (hhas : defs.has (.method method) = true)
    (hsound : Moment.Sound { state := state' }) (hgrows : state.world.defs.Grows state'.world.defs)
    (hbody : ∀ other, state.world.defs.has (.method other) = true →
      (other = method ∨ ∃ layer ∈ layers, layer.hidden = some other) →
      (state'.world.defs.method other).body = (state.world.defs.method other).body) :
    Stacked defs method layers state' where
  sound := hsound
  grows := h.grows.trans hgrows
  chain := by rw [hbody method (h.grows.has hhas) (.inl rfl), h.chain]
  correct := h.correct
  hides layer hmem hidden hhidden := by
    obtain ⟨hnew, hhides⟩ := h.hides layer hmem hidden hhidden
    refine ⟨hnew, hhides.mono h.sound.held hgrows fun made made' hmade hmade' => ?_⟩
    have hkept := hbody hidden (Definitions.has_iff.mpr ⟨made, hmade⟩) (.inr ⟨layer, hmem, hhidden⟩)
    simpa [Definitions.body_eq, hmade, hmade'] using hkept
  distinct := h.distinct

/-- A further transplant finds the body that the last one has left. -/
theorem push {layer : Layer} (h : Stacked defs method layers layer.before)
    (hhas : defs.has (.method method) = true) (hgrafts : layer.Grafts method) :
    Stacked defs method (layers ++ [layer]) layer.after := by
  have hhas' := h.grows.has hhas
  have hother : ∀ earlier ∈ layers, ∀ hidden, earlier.hidden = some hidden →
      layer.before.world.defs.has (.method hidden) = true ∧ hidden ≠ method := by
    intro earlier hmem hidden hhidden
    obtain ⟨hnew, _, made, _, _, _, -, -, hmade, -⟩ := h.hides earlier hmem hidden hhidden
    refine ⟨Definitions.has_iff.mpr ⟨made, hmade⟩, ?_⟩
    rintro rfl
    simp [hhas] at hnew
  refine ⟨hgrafts.sound, h.grows.trans hgrafts.grows, ?_, ?_, ?_, ?_⟩
  · have hprevious : layer.previous method = (layer.before.world.defs.method method).body := rfl
    have hbody : layer.body method = (layer.after.world.defs.method method).body := rfl
    rw [List.map_append, List.map_append, ← List.cons_append, ← h.chain]
    simp [hprevious, hbody]
  · intro other hmem
    rcases List.mem_append.mp hmem with hmem | hmem
    · exact h.correct other hmem
    · exact List.mem_singleton.mp hmem ▸ hgrafts.correct
  · intro other hmem hidden hhidden
    rcases List.mem_append.mp hmem with hmem | hmem
    · obtain ⟨hnew, hhides⟩ := h.hides other hmem hidden hhidden
      obtain ⟨hold, hne⟩ := hother other hmem hidden hhidden
      refine ⟨hnew, hhides.mono h.sound.held hgrafts.grows fun made made' hmade hmade' => ?_⟩
      simpa [Definitions.body_eq, hmade, hmade'] using hgrafts.kept hidden hold hne
    · cases List.mem_singleton.mp hmem
      obtain ⟨hnew, hhides⟩ := hgrafts.hides hhas' hidden hhidden
      refine ⟨Bool.eq_false_iff.mpr fun hold => ?_, hhides⟩
      simp [h.grows.has hold] at hnew
  · rw [List.filterMap_append, List.nodup_append]
    refine ⟨h.distinct, ?_, ?_⟩
    · cases hhidden : layer.hidden <;> simp [hhidden]
    · intro hidden hmem other hmem' heq
      obtain ⟨earlier, hearlier, hhidden⟩ := List.mem_filterMap.mp hmem
      obtain ⟨_, hlayer, hhidden'⟩ := List.mem_filterMap.mp hmem'
      cases List.mem_singleton.mp hlayer
      subst heq
      obtain ⟨hnew, -⟩ := hgrafts.hides hhas' hidden hhidden'
      simp [(hother earlier hearlier hidden hhidden).1] at hnew

end Stacked

/-- Whatever happens to a method, its transplants are stacked. -/
theorem Stacking.stacked {defs : Definitions} {method : DefId .method} {layers : List Layer}
    {state : SessionState} (hstacking : Stacking defs method layers state) (hheld : defs.Held)
    (hhas : defs.has (.method method) = true) : Stacked defs method layers state := by
  induction hstacking with
  | @start world source hdefs hsource =>
      subst hdefs
      exact ⟨Moment.sound_begin hheld hsource, .refl _, rfl, by simp, by simp, by simp⟩
  | renew hstacking hextends hheld' hsource ih =>
      refine ih.keep hhas (Moment.sound_begin hheld' hsource) hextends.grows fun other hother _ => ?_
      exact hextends.keepsBodies.body_eq hother
  | @resolve layers state declaration hstacking ih =>
      have hclosed := (World.reaches_all state.world []).closed
      obtain ⟨next, hstate, -, hrun⟩ := Moment.resolve_run declaration ih.sound rfl hclosed trivial
      rw [← hstate]
      exact ih.keep hhas (hrun.sound ih.sound).plain (hrun.later ih.sound).grows
        fun other hother _ => (hrun.keepsBodies rfl ih.sound).body_eq hother
  | @elsewhere layers state id suffix hstacking helsewhere ih =>
      have hcases := Layer.transplant_cases ih.sound id suffix
      cases hresult : (SessionTask.transplant id suffix).on state with
      | mk outcome after =>
          rw [hresult] at hcases
          rcases hcases with ⟨hsound, hgrows, hkeeps, -⟩ |
            ⟨graft, hidden, other, -, honto, hgrafts⟩
          · exact ih.keep hhas hsound hgrows fun _ hold _ => hkeeps.body_eq hold
          · obtain ⟨hmethod, hearlier⟩ := helsewhere _ other rfl rfl rfl honto
            refine ih.keep hhas hgrafts.sound hgrafts.grows fun kept hold hkept => ?_
            refine hgrafts.kept kept hold ?_
            rintro rfl
            rcases hkept with rfl | ⟨earlier, hmem, hhidden⟩
            · exact hmethod rfl
            · exact hearlier earlier hmem hhidden
  | layer hstacking honto ih => exact ih.push hhas (honto.grafts ih.sound)

/-- Transplants onto a method stack up. Each of them finds the body that the one before has left,
and puts the declared body in its place, with every reference to the base body leading to one hidden
method. That method has the signature of the method, holds what was in force before, now and ever
after, and has a name that no method before it in its type has; no two of them are the same or have
the same name. -/
theorem bodies_stack {defs : Definitions} {method : DefId .method} {layers : List Layer}
    {state : SessionState} (hheld : defs.Held) (hhas : defs.has (.method method) = true)
    (hstacking : Stacking defs method layers state) :
    layers.map (·.previous method) ++ [(state.world.defs.method method).body] =
        (defs.method method).body :: layers.map (·.body method) ∧
      (∀ layer ∈ layers, layer.Correct method) ∧
      (∀ layer ∈ layers, ∀ hidden, layer.hidden = some hidden →
        defs.has (.method hidden) = false ∧
          state.world.defs.Hides (layer.previous method) method hidden) ∧
      (layers.filterMap (·.hidden)).Pairwise fun hidden hidden' => hidden ≠ hidden' ∧
        (state.world.defs.method hidden).name ≠ (state.world.defs.method hidden').name := by
  have hstacked := hstacking.stacked hheld hhas
  refine ⟨hstacked.chain, hstacked.correct, hstacked.hides, ?_⟩
  refine hstacked.distinct.imp_of_mem fun hmem hmem' hne => ⟨hne, ?_⟩
  obtain ⟨layer, hlayer, hhidden⟩ := List.mem_filterMap.mp hmem
  obtain ⟨layer', hlayer', hhidden'⟩ := List.mem_filterMap.mp hmem'
  exact (hstacked.hides layer hlayer _ hhidden).2.name_ne
    (hstacked.hides layer' hlayer' _ hhidden').2 hne

/-- A type with one method that does nothing, and declarations of methods in that type. -/
def World.clock (declared : List MethodDecl) : World :=
  let (module, defs) := ({} : Definitions).makeModule { name := "Game" }
  let (type, defs) := defs.addType module { namespaceName := "Core", name := "Clock", flags := 1 }
  { defs := (defs.addMethod type
      { name := "Tick"
        flags := 22
        signature := ⟨0, 0, .primitive .void, [], []⟩
        body := some { code := [{ opcode := ⟨0, 0x2A, "ret", .none, .returning⟩ }] } }).2
    decls :=
      { modules := ⟨#[some { terms := ⟨.failIfMissing, false⟩, name := "Game" }]⟩
        types := ⟨#[some
          { terms := ⟨.failIfMissing, false⟩, place := .topLevel ⟨0⟩ "Core", name := "Clock" }]⟩
        methods := ⟨(declared.map some).toArray⟩ }
    sources := ⟨#[some (.memory ⟨[("Game", ⟨0⟩)]⟩ {})]⟩ }

/-- A declaration of the method, with a body that calls the base body and then other methods. -/
def MethodDecl.tick (others : List MethodRef) : MethodDecl where
  terms := ⟨.failIfMissing, false⟩
  owner := ⟨0⟩
  name := "Tick"
  signature := ⟨0, 0, .primitive .void, [], []⟩
  body := some
    { body :=
        { code := (.definition ⟨0⟩ :: others).map
              (fun ref => ⟨0, ⟨0, 0x28, "call", .token, .call⟩, .method ref⟩)
            ++ [{ opcode := ⟨0, 0x2A, "ret", .none, .returning⟩ }] }
      transformer := .redirecting [.definition ⟨0⟩] none }

/-- The transplant of a declared body of the method. -/
def Layer.tick (others : List MethodRef) (index : Nat) (hidden : DefId .method)
    (before : SessionState) : Layer where
  id := ⟨index⟩
  suffix := "<Base>$"
  graft := ((MethodDecl.tick others).body).getD default
  hidden := some hidden
  before
  after := ((SessionTask.transplant ⟨index⟩ "<Base>$").on before).2

theorem Layer.onto_tick {others : List MethodRef} {index : Nat} {hidden method : DefId .method}
    {before : SessionState}
    (hdeclared : (before.world.decls.method ⟨index⟩).body = (MethodDecl.tick others).body)
    (hsucceeded : ((SessionTask.transplant ⟨index⟩ "<Base>$").on before).1.toOption =
      some (some hidden))
    (honto : ((SessionTask.transplant ⟨index⟩ "<Base>$").on before).2.session.resolved.get?
      (.method ⟨index⟩) = some (.method method)) :
    (Layer.tick others index hidden before).Onto method := by
  refine ⟨hdeclared, Prod.ext ?_ rfl, honto⟩
  change ((SessionTask.transplant ⟨index⟩ "<Base>$").on before).1 = .ok (some hidden)
  cases houtcome : ((SessionTask.transplant ⟨index⟩ "<Base>$").on before).1 with
  | error error => simp [houtcome, Except.toOption] at hsucceeded
  | ok found => simpa [houtcome, Except.toOption] using hsucceeded

theorem World.held_clock (declared : List MethodDecl) : (World.clock declared).defs.Held :=
  (by decide +kernel : (World.clock []).defs.Held)

/-- A session in which the modules of such a world are at hand. -/
def World.clockSession (declared : List MethodDecl) : SessionState :=
  ⟨{ source := ⟨0⟩ }, World.clock declared⟩

theorem World.source_clock (declared : List MethodDecl) :
    ((World.clock declared).source ⟨0⟩).Sound (World.clock declared).defs := by
  intro name module hmodule
  by_cases hname : "Game" = name
  · subst hname
    cases hmodule
    rfl
  · simp [Dictionary.get?, hname] at hmodule

theorem World.sound_clock (declared : List MethodDecl) :
    Moment.Sound { state := World.clockSession declared } :=
  Moment.sound_begin (World.held_clock declared) (World.source_clock declared)

theorem World.stacking_clock (declared : List MethodDecl) :
    Stacking (World.clock declared).defs ⟨0⟩ [] (World.clockSession declared) :=
  .start rfl (World.source_clock declared)

/-- The first of two transplants of a body that calls the base body, and the second one. -/
def Layer.first : Layer :=
  .tick [] 0 ⟨1⟩ (World.clockSession [.tick [], .tick []])

@[inherit_doc Layer.first]
def Layer.second : Layer :=
  .tick [] 1 ⟨2⟩ Layer.first.after

/-- The first hidden method holds the body that the method had in the beginning, the second one the
body that calls the first. -/
theorem bodies_stack_clock :
    let defs := (World.clock [.tick [], .tick []]).defs
    defs.Held ∧ defs.has (.method ⟨0⟩) = true ∧
      Stacking defs ⟨0⟩ [.first, .second] Layer.second.after ∧
      Layer.second.after.world.defs.Hides (Layer.first.previous ⟨0⟩) ⟨0⟩ ⟨1⟩ ∧
      Layer.second.after.world.defs.Hides (Layer.second.previous ⟨0⟩) ⟨0⟩ ⟨2⟩ := by
  have hfirst : Layer.first.Onto ⟨0⟩ := Layer.onto_tick rfl (by decide +kernel) (by decide +kernel)
  have hsecond : Layer.second.Onto ⟨0⟩ :=
    Layer.onto_tick (by cbv) (by decide +kernel) (by decide +kernel)
  have hstacking : Stacking (World.clock [.tick [], .tick []]).defs ⟨0⟩ [.first, .second]
      Layer.second.after :=
    .layer (.layer (World.stacking_clock _) hfirst) hsecond
  obtain ⟨-, -, hhides, -⟩ := bodies_stack (World.held_clock _) rfl hstacking
  exact ⟨World.held_clock _, rfl, hstacking, (hhides .first (by simp) ⟨1⟩ rfl).2,
    (hhides .second (by simp) ⟨2⟩ rfl).2⟩

/-- A method with other parameters, declared with the name of the hidden method. -/
def MethodDecl.namesake : MethodDecl where
  terms := ⟨.createIfMissing, false⟩
  owner := ⟨0⟩
  name := "Tick<Base>$0"
  signature := ⟨0, 0, .primitive .void, [.primitive .int32], []⟩

/-- A transplant of a body that calls the base body and then that method. -/
def Layer.beside : Layer :=
  .tick [.declared ⟨1⟩] 0 ⟨1⟩ (World.clockSession [.tick [.declared ⟨1⟩], .namesake])

/-- A hidden method does not keep its name to itself: a method declared with that name is made
beside it. -/
theorem hidden_name_shared :
    ¬ ∀ defs method layers state, Stacking defs method layers state → defs.Held →
      defs.has (.method method) = true → ∀ layer ∈ layers, ∀ hidden, layer.hidden = some hidden →
        ∀ type, .method hidden ∈ state.world.defs.members (.type type) .method →
          ∀ sibling, .method sibling ∈ state.world.defs.members (.type type) .method →
            sibling ≠ hidden →
              (state.world.defs.method sibling).name ≠ (state.world.defs.method hidden).name := by
  intro h
  have honto : Layer.beside.Onto ⟨0⟩ := Layer.onto_tick rfl (by decide +kernel) (by decide +kernel)
  have hstacking : Stacking (World.clock [.tick [.declared ⟨1⟩], .namesake]).defs ⟨0⟩ [.beside]
      Layer.beside.after :=
    .layer (World.stacking_clock _) honto
  refine h _ _ _ _ hstacking (World.held_clock _) rfl .beside (by simp) ⟨1⟩ rfl ⟨0⟩ ?_ ⟨2⟩ ?_
    (by decide) ?_
  · decide +kernel
  · decide +kernel
  · decide +kernel

end Graft
