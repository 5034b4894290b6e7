import Graft.Proofs.Session.Writing
import Graft.Proofs.Transplant.Transplanting

/-!
# Requests to a session

A session is asked to resolve declarations and to transplant bodies, any number of times and
whatever becomes of each request. Definitions only grow all along, every change is accounted for by
a declaration that may be changed, and where there is none nothing changes (`accounted_after`).
-/

namespace Graft

/-- A request to a session. -/
inductive SessionCall where
  | resolve (declaration : Declaration)
  | transplant (id : DeclId .method) (suffix : String)

namespace SessionCall

/-- The declaration that a request is about. -/
def declaration : SessionCall → Declaration
  | .resolve declaration => declaration
  | .transplant id _ => .method id

/-- What is done on a request. -/
def perform : SessionCall → SessionTask Unit
  | .resolve declaration => do
    let _ ← SessionTask.resolve declaration
  | .transplant id suffix => do
    let _ ← SessionTask.transplant id suffix

end SessionCall

/-- The state after some requests, each of which is made whatever became of those before. -/
def SessionState.after (state : SessionState) (calls : List SessionCall) : SessionState :=
  calls.foldl (fun state call => (call.perform.on state).2) state

/-- Whether a set of declarations has all that some requests may lead to: what they are about, what
that depends on, and what the bodies refer to that may be put in place. -/
structure World.Reaches (world : World) (calls : List SessionCall)
    (asked : Declaration → Prop) : Prop where
  called : ∀ call ∈ calls, asked call.declaration
  closed : world.decls.Closed asked
  bodies : ∀ id graft, asked (.method id) → world.decls.Writable (.method id) →
    (world.decls.method id).body = some graft →
      Moment.Asks asked world.decls graft.body.targets ∧ graft.transformer.Asks asked world

/-- Worlds with the same declarations, and importers that bind to the same ones. -/
structure World.SameBindings (world world' : World) : Prop where
  decls : world'.decls = world.decls
  types : ∀ id, (world'.importer id).types = (world.importer id).types
  fields : ∀ id, (world'.importer id).fields = (world.importer id).fields
  methods : ∀ id, (world'.importer id).methods = (world.importer id).methods

/-- What can be reached depends on declarations and on what importers bind. -/
theorem World.SameBindings.reaches {world world' : World} {calls : List SessionCall}
    {asked : Declaration → Prop} (h : world.SameBindings world') (hreaches : world.Reaches calls asked) :
    world'.Reaches calls asked := by
  refine ⟨hreaches.called, h.decls ▸ hreaches.closed, fun id graft hasked hwritable hgraft => ?_⟩
  rw [h.decls] at hwritable hgraft ⊢
  obtain ⟨hasks, htransformer⟩ := hreaches.bodies id graft hasked hwritable hgraft
  refine ⟨hasks, ?_⟩
  cases htransform : graft.transformer with
  | plain | redirecting => trivial
  | importing importer bases =>
      rw [htransform] at htransformer
      simpa only [Transformer.Asks, h.decls, h.types, h.fields, h.methods] using htransformer

/-- All declarations together have everything. -/
theorem World.reaches_all (world : World) (calls : List SessionCall) :
    world.Reaches calls fun _ => True where
  called _ _ := trivial
  closed := ⟨fun _ _ _ _ => trivial, fun _ _ _ _ _ => trivial, fun _ _ _ _ _ => trivial⟩
  bodies _ graft _ _ _ := by
    refine ⟨fun _ _ _ => trivial, ?_⟩
    cases graft.transformer <;> simp [Transformer.Asks]

/-- A closed list without methods has everything. -/
theorem World.reaches_of_closed {world : World} {nodes : List Declaration}
    (hclosed : world.decls.Closed (· ∈ nodes)) (hbodies : ∀ id, .method id ∉ nodes) :
    world.Reaches [] (· ∈ nodes) :=
  ⟨by simp, hclosed, fun id _ hmem => absurd hmem (hbodies id)⟩

/-- Sets of declarations that have everything have everything together. -/
theorem World.reaches_flatMap {ι : Type} {world : World} {items : List ι}
    {nodes : ι → List Declaration} (h : ∀ item ∈ items, world.Reaches [] (· ∈ nodes item)) :
    world.Reaches [] (· ∈ items.flatMap nodes) where
  called := by simp
  closed := by
    refine ⟨fun declaration parent hmem hparent => ?_, fun declaration other hmem htarget hhas => ?_,
      fun declaration role method hmem haccessor => ?_⟩ <;>
      obtain ⟨item, hitem, hmem⟩ := List.mem_flatMap.mp hmem <;>
      refine List.mem_flatMap.mpr ⟨item, hitem, ?_⟩
    · exact (h item hitem).closed.parent declaration parent hmem hparent
    · exact (h item hitem).closed.stated declaration other hmem htarget hhas
    · exact (h item hitem).closed.accessors declaration role method hmem haccessor
  bodies id graft hmem hwritable hgraft := by
    obtain ⟨item, hitem, hmem⟩ := List.mem_flatMap.mp hmem
    obtain ⟨hasks, htransformer⟩ := (h item hitem).bodies id graft hmem hwritable hgraft
    have himp (declaration : Declaration) (hmem : declaration ∈ nodes item) :
        declaration ∈ items.flatMap nodes :=
      List.mem_flatMap.mpr ⟨item, hitem, hmem⟩
    exact ⟨fun declaration htarget hhas => himp _ (hasks declaration htarget hhas),
      htransformer.mono himp⟩

namespace Moment

variable {asked : Declaration → Prop} {now : Moment} {world : World}

/-- The moment at which a session begins. -/
def begin (source : SourceId) (world : World) : Moment where
  state := ⟨{ source }, world⟩

theorem sound_begin {source : SourceId} (hheld : world.defs.Held)
    (hsource : (world.source source).Sound world.defs) : (begin source world).Sound where
  held := hheld
  modules := by simp [begin, Dictionary.get?]
  source := hsource
  remembered := by simp [begin, Dictionary.get?]
  located := by simp [begin]
  unfinished := by simp [begin]
  distinct := by simp [begin]
  kinds := by simp [begin, answer, Dictionary.get?]
  made := by simp [begin]

theorem standing_begin {source : SourceId} : (begin source world).Standing where
  remembered := by simp [begin, Dictionary.get?]
  located := by simp [begin]

/-- Resolving a declaration is a run, whatever becomes of it. -/
theorem resolve_run (declaration : Declaration) (hsound : now.Sound) (hstack : now.stack = [])
    (hclosed : now.decls.Closed asked) (hasked : asked declaration) :
    ∃ next : Moment, next.state = ((SessionTask.resolve declaration).on now.state).2 ∧
      next.stack = [] ∧ Run asked { fails := true } now next := by
  obtain ⟨next, hstate, hstack', hrun⟩ :=
    (finds_resolve asked none now hsound hstack declaration hasked nofun).run hclosed
  exact ⟨next, hstate, hstack'.trans hstack, hrun⟩

/-- A request is a run, whatever becomes of it. -/
theorem perform_run {call : SessionCall} {calls : List SessionCall} (hsound : now.Sound)
    (hstack : now.stack = []) (hreaches : now.world.Reaches calls asked) (hcall : call ∈ calls) :
    ∃ next : Moment, next.state = (call.perform.on now.state).2 ∧ next.stack = [] ∧
      Run asked { fails := true, hides := true, grafts := true } now next := by
  have hasked := hreaches.called call hcall
  cases call with
  | resolve declaration =>
      obtain ⟨next, hstate, hstack', hrun⟩ :=
        resolve_run declaration hsound hstack hreaches.closed hasked
      refine ⟨next, ?_, hstack', hrun.weaken (by simp) (by simp) (by simp)⟩
      rw [hstate, SessionCall.perform, SessionTask.on_bind]
      cases (SessionTask.resolve declaration).on now.state with
      | mk outcome state => cases outcome <;> rfl
  | transplant id suffix =>
      have hon := transplant_on suffix hsound hstack hreaches.closed hasked
        fun graft hgraft hwritable => hreaches.bodies id graft hasked hwritable hgraft
      rw [SessionCall.perform, SessionTask.on_bind]
      cases hresult : (SessionTask.transplant id suffix).on now.state with
      | mk outcome state =>
          rw [hresult] at hon
          cases outcome with
          | error error =>
              obtain ⟨next, hstate, hstack', hrun⟩ := hon
              exact ⟨next, hstate, hstack', hrun.weaken (by simp) (by simp) (by simp)⟩
          | ok hidden =>
              rcases hon with ⟨-, -, rfl⟩ | ⟨graft, context, body, done, -, -, hgrafted⟩
              · exact ⟨now, rfl, hstack, .refl⟩
              · exact ⟨{ done with state }, rfl, hgrafted.working.stack,
                  hgrafted.grafts.weaken (by simp) (by simp) (by simp)⟩

/-- What can be reached does not change. -/
theorem Later.reaches {next : Moment} {calls : List SessionCall} (h : now.Later next)
    (hreaches : now.world.Reaches calls asked) : next.world.Reaches calls asked :=
  World.SameBindings.reaches ⟨h.decls, h.types, h.fields, h.methods⟩ hreaches

/-- All requests together are a run. -/
theorem after_run {calls : List SessionCall} (hsound : now.Sound) (hstack : now.stack = [])
    (hreaches : now.world.Reaches calls asked) :
    ∃ next : Moment, next.state = now.state.after calls ∧ next.stack = [] ∧
      Run asked { fails := true, hides := true, grafts := true } now next := by
  induction calls generalizing now with
  | nil => exact ⟨now, rfl, hstack, .refl⟩
  | cons call calls ih =>
      obtain ⟨next, hstate, hstack', hrun⟩ :=
        perform_run hsound hstack hreaches List.mem_cons_self
      have hreaches' := (hrun.later hsound).reaches hreaches
      obtain ⟨last, hlast, hstack'', hrun'⟩ := ih (hrun.sound hsound) hstack'
        ⟨fun other hmem => hreaches'.called other (List.mem_cons_of_mem _ hmem),
          hreaches'.closed, hreaches'.bodies⟩
      refine ⟨last, ?_, hstack'', hrun.trans hrun'⟩
      rw [hlast, hstate]
      rfl

end Moment

open SessionState Moment

/-- Where nothing that is reached may be changed, all that is new is what the source hands out. -/
theorem SessionState.Accounted.unchanged {asked : Declaration → Prop} {start : World}
    {state : SessionState} (h : Accounted asked start state)
    (hreadOnly : ∀ declaration, asked declaration → ¬ state.world.decls.Writable declaration)
    {definition : Definition} {record : Record}
    (hrecord : state.world.defs.record? definition = some record) :
    Origin start state definition record := by
  have hwrites {definition : Definition} : ¬ Writes asked state definition :=
    fun ⟨declaration, hasked, hwritable, _⟩ => hreadOnly declaration hasked hwritable
  have hplaces {holder member : Definition} : ¬ Places asked state holder member := by
    rintro (⟨hasked, hwritable, -⟩ | ⟨hasked, hwritable, -⟩)
    · exact hreadOnly _ hasked hwritable
    · exact hreadOnly _ hasked hwritable
  rcases h definition record hrecord with ⟨first, horigin, hkept⟩ | hmade
  · obtain ⟨hdetails, hbody⟩ := hkept.written.resolve_right hwrites
    have hmembers : record.members = first.members := by
      funext kind
      obtain ⟨added, hadded, hplaced⟩ := hkept.listed kind
      cases added with
      | nil => rw [hadded, List.append_nil]
      | cons member added => exact absurd (hplaced member List.mem_cons_self) hplaces
    obtain ⟨nature, details, body, members⟩ := first
    obtain ⟨nature', details', body', members'⟩ := record
    cases hkept.nature
    cases hdetails
    cases hbody
    cases hmembers
    exact horigin
  · rcases hmade.placed with h | ⟨holder, h⟩
    · exact absurd h hwrites
    · exact absurd h hplaces

/-- Where nothing that is asked for may be changed, a step changes no definition, unless it takes a
module from the source. -/
theorem Moment.Step.readOnly {asked : Declaration → Prop} {mode : Mode} {now next : Moment}
    (hstep : Step asked mode now next)
    (hreadOnly : ∀ declaration, asked declaration → ¬ now.decls.Writable declaration) :
    next.defs = now.defs ∨ ∃ name module,
      (Task.load now.session.source name).on now.world = (.ok module, next.world) := by
  cases hstep with
  | quiet hquiet => exact .inl hquiet.defs
  | load hstack hasked hname hnone hload => exact .inr ⟨_, _, hload⟩
  | enter | locate | confirm | remember | abandon => exact .inl rfl
  | makeModule hstack hasked hwritable => exact absurd hwritable (hreadOnly _ hasked)
  | create hstack hasked hwritable => exact absurd hwritable (hreadOnly _ hasked)
  | amend hstack hasked hwritable => exact absurd hwritable (hreadOnly _ hasked)
  | hide hhides hasked hwritable => exact absurd hwritable (hreadOnly _ hasked)
  | graft hgrafts hasked hwritable => exact absurd hwritable (hreadOnly _ hasked)

/-- Where nothing that is asked for may be changed, a run changes no definition that exists, and
makes none if the modules are kept in memory. -/
theorem Moment.Run.readOnly {asked : Declaration → Prop} {mode : Mode} {now next : Moment}
    (hrun : Run asked mode now next) (hsound : now.Sound)
    (hreadOnly : ∀ declaration, asked declaration → ¬ now.decls.Writable declaration) :
    now.defs.Extends next.defs ∧
      ∀ modules saves, now.world.source now.session.source = .memory modules saves →
        next.defs = now.defs := by
  induction hrun with
  | refl => exact ⟨.refl _, fun _ _ _ => rfl⟩
  | @tail middle last hrun hstep ih =>
      have hlater := Run.later hrun hsound
      have hmiddle := Run.sound hrun hsound
      obtain ⟨hextends, hmemory⟩ := ih
      rcases hstep.readOnly (hlater.decls ▸ hreadOnly) with hsame | ⟨name, module, hload⟩
      · rw [hsame]
        exact ⟨hextends, hmemory⟩
      · obtain ⟨hextends', -⟩ := Task.load_ok hmiddle.source hmiddle.held hload
        refine ⟨hextends.trans hextends', fun modules saves hsource => ?_⟩
        have hsource' : middle.world.source middle.session.source = .memory modules saves := by
          rw [← hsource, hlater.source, World.source, hlater.sources, World.source]
        rw [Task.load_memory hsource'] at hload
        have hworld : middle.world = last.world := congrArg Prod.snd hload
        exact (congrArg World.defs hworld.symm).trans (hmemory modules saves hsource)

/-- A module with a type in it, both declared as they are, and a second type that is missing.
Nothing may be changed. -/
def World.guarded : World :=
  let (module, defs) := ({} : Definitions).makeModule { name := "Game" }
  { defs := (defs.addType module { namespaceName := "Core", name := "Clock", flags := 1 }).2
    decls :=
      { modules := ⟨#[some { terms := ⟨.failIfMissing, true⟩, name := "Game" }]⟩
        types := ⟨#[
          some { terms := ⟨.failIfMissing, true⟩, place := .topLevel ⟨0⟩ "Core", name := "Clock" },
          some { terms := ⟨.createIfMissing, true⟩, place := .topLevel ⟨0⟩ "Core", name := "Timer" }
          ]⟩ }
    sources := ⟨#[some (.memory ⟨[("Game", ⟨0⟩)]⟩ {})]⟩ }

/-- The declarations that there are. -/
def World.guardedAsked (declaration : Declaration) : Prop :=
  declaration ∈ [.module ⟨0⟩, .type ⟨0⟩, .type ⟨1⟩]

theorem World.held_guarded : World.guarded.defs.Held := by
  decide +kernel

end Graft
