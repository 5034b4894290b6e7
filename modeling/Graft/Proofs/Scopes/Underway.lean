import Graft.Proofs.Install.Repeating
import Graft.Proofs.Members.Rooted
import Graft.Proofs.Session.Opening

/-!
# Resolving modules and types

What is kept while nothing but modules and types is resolved in a session that has just begun
(`Underway`): all that was there before is what the source hands out at first
(`World.opened`), whenever it is asked for it, and all that is new was made for a declaration. Until a
module in a stream has been loaded nothing is known at all (`Waiting`).
-/

namespace Graft

/-- Whether everything that definitions refer to and belong to was made at some time. -/
def Definitions.Anchored (defs : Definitions) : Prop :=
  ∀ definition record, defs.record? definition = some record →
    (∀ target ∈ record.details.targets, target.IssuedIn defs) ∧
      (∀ owner ∈ record.nature.owner, defs.Issued (.type owner)) ∧
        ∀ module ∈ record.nature.module, defs.Issued (.module module)

instance (defs : Definitions) : DecidablePred defs.Issued :=
  fun definition => inferInstanceAs (Decidable (definition.index < defs.next definition.kind))

instance (defs : Definitions) : Decidable defs.Anchored :=
  decidable_of_iff (∀ definition ∈ defs.all, ∀ record ∈ defs.record? definition,
      (∀ target ∈ record.details.targets, target.IssuedIn defs) ∧
        (∀ owner ∈ record.nature.owner, defs.Issued (.type owner)) ∧
          ∀ module ∈ record.nature.module, defs.Issued (.module module))
    ⟨fun h definition record hrecord =>
        h definition (Definitions.mem_all (Definitions.has_iff.mpr ⟨record, hrecord⟩)) record hrecord,
      fun h definition _ record => h definition record⟩

/-- Whether a definition was there before anything was resolved. -/
def SessionState.Old (state : SessionState) (definition : Definition) : Prop :=
  state.world.defs.has definition = true

/-- Declarations of modules and types that can be resolved in an orderly way, with the modules that
the source hands out for them. -/
structure World.Scoping (world : World) (source : SourceId) (names : List String)
    (asked : Declaration → Prop) : Prop where
  prepared : world.Prepared source asked
  steady : world.Steady source names
  named : ∀ name, name ∈ names ↔ ∃ id, asked (.module id) ∧ (world.decls.module id).name = name
  scopes : ∀ declaration, asked declaration → declaration.kind.isScope = true
  closed : world.decls.Closed asked
  anchored : (world.opened source names).world.defs.Anchored

/-! ## What the source hands out -/

section Opened

variable {world : World} {source : SourceId} {names : List String} {asked : Declaration → Prop}

/-- A session that has asked for modules works on the graph as it was, or has loaded the only one. -/
theorem World.Steady.opened_cases (h : world.Steady source names) :
    (world.opened source names).world = world ∨ ∃ name module after, names = [name] ∧
      (Task.load source name).on world = (.ok module, after) ∧
        after.defs = (world.opened source names).world.defs := by
  obtain ⟨name, rfl⟩ | ⟨modules, saves, hsource⟩ := h
  · rw [World.opened_singleton, SessionTask.on_openModule rfl]
    dsimp only
    cases hload : (Task.load source name).on world with
    | mk outcome after =>
        cases outcome with
        | ok module => exact .inr ⟨name, module, after, rfl, hload, rfl⟩
        | error => exact .inl rfl
  · obtain ⟨opened, hon, -⟩ := @SessionTask.on_openModules _ _ _ {} _ hsource nofun names
    exact .inl (congrArg (·.2.world) hon)

theorem World.Steady.opened_decls (h : world.Steady source names) :
    (world.opened source names).world.decls = world.decls := by
  rw [h.opens.same]

theorem World.Scoping.mem_names (h : world.Scoping source names asked) {id : DeclId .module}
    (hasked : asked (.module id)) : (world.decls.module id).name ∈ names :=
  (h.named _).mpr ⟨id, hasked, rfl⟩

/-- What could be resolved in an orderly way still can be once modules have been loaded. -/
theorem World.Scoping.opened (h : world.Scoping source names asked) :
    (world.opened source names).world.Prepared source asked := by
  obtain hsame | ⟨name, module, after, -, hload, hdefs⟩ := h.steady.opened_cases
  · rw [hsame]
    exact h.prepared
  have hprepared := h.prepared
  have hdecls := h.steady.opened_decls
  have hsource : (world.opened source names).world.source source = world.source source := by
    rw [h.steady.opens.same]
    rfl
  have hwell := (Task.load_faithful hprepared.faithful hprepared.wellFormed hload).1
  have hgrows := (Task.load_ok hprepared.sound hprepared.wellFormed.held hload).1.grows
  rw [hdefs] at hwell hgrows
  refine
    { wellFormed := hwell
      sound := hsource ▸ hprepared.sound.grows hgrows
      faithful := hsource ▸ hprepared.faithful.grows hprepared.sound hgrows
      living := hdecls ▸ hprepared.living
      moored := hdecls ▸ hprepared.moored
      known := fun declaration hasked => hdecls ▸ (hprepared.known declaration hasked).mono hgrows
      apart := fun left right hleft hright halike => ?_ }
  obtain ⟨hkind, hparent, hname, hspace, -⟩ := halike
  rw [hdecls] at hparent hname hspace
  refine hprepared.apart left right hleft hright ⟨hkind, hparent, hname, hspace, fun hmethod => ?_⟩
  have hscope := h.scopes left hleft
  simp [hmethod, SymbolKind.isScope] at hscope

end Opened

namespace Moment

variable {world : World} {source : SourceId} {names : List String} {asked : Declaration → Prop}
  {now next : Moment} {declaration : Declaration} {definition : Definition}
  {old : Definition → Prop}

/-! ## Lists -/

theorem KeepsOld.trans {defs defs' defs'' : Definitions} (h : KeepsOld old defs defs')
    (hgrows : defs.Grows defs') (h' : KeepsOld old defs' defs'') : KeepsOld old defs defs'' := by
  intro holder kind hhas
  obtain ⟨news, hnews, hnew⟩ := h holder kind hhas
  obtain ⟨news', hnews', hnew'⟩ := h' holder kind (hgrows.has hhas)
  refine ⟨news ++ news', by rw [hnews', hnews, List.append_assoc], ?_⟩
  exact List.forall_mem_append.mpr ⟨hnew, hnew'⟩

/-- What is new in a list after a step was made in it. -/
theorem Step.keepsOld (hstep : Step asked {} now next) (hsound : now.Sound)
    (hcensus : now.Census old) : KeepsOld old now.defs next.defs := by
  cases hstep with
  | @quiet world hits hquiet =>
      have hdefs : world.defs = now.defs := hquiet.defs
      exact keepsOld_of_eq (by simp [hdefs])
  | load hstack hasked hname hnone hload =>
      exact keepsOld_of_extends (Task.load_ok hsound.source hsound.held hload).1
  | makeModule =>
      exact keepsOld_of_eq ((Definitions.makeModule_makes now.defs _).members_eq
        (Definitions.members_new_module _))
  | create hstack hasked hwritable hpolicy hmissing hparent hholder hkind hrenders hadds =>
      exact keepsOld_of_adds hadds hrenders.members (hcensus.not_old hadds.fresh)
  | amend hstack hasked hwritable hstated hchanges =>
      exact keepsOld_of_eq (hchanges.members_eq fun _ => rfl)
  | enter | locate | confirm | remember => exact keepsOld_of_eq fun _ _ => rfl
  | abandon hfails | hide hfails | graft hfails => cases hfails

theorem Census.congr {old' : Definition → Prop} (h : now.Census old)
    (hsame : ∀ definition, old' definition ↔ old definition) : now.Census old' := by
  rwa [show old' = old from funext fun definition => propext (hsame definition)]

/-! ## Underway -/

/-- Whether a session has resolved nothing but modules and types, starting from what the source hands
out. Nothing has been changed before a module is known. -/
structure Underway (world : World) (source : SourceId) (names : List String)
    (asked : Declaration → Prop) (now : Moment) : Prop where
  orderly : now.Orderly asked (world.opened source names).world
  census : now.Census (world.opened source names).Old
  lists : KeepsOld (world.opened source names).Old (world.opened source names).world.defs now.defs
  modules : ∀ name module, now.session.modules.get? name = some module →
    (world.opened source names).session.modules.get? name = some module ∨
      (world.opened source names).session.modules.get? name = none ∧
        ¬ (world.opened source names).Old (.module module)
  begun : (now.defs = world.defs ∧ (world.opened source names).world.defs = world.defs ∧
      ∀ declaration, now.answer declaration = none) ∨
    ∃ id, asked (.module id) ∧
      ∃ module, now.session.modules.get? (world.decls.module id).name = some module
  lacking : ∀ id definition, (.module id, definition) ∈ now.made → ∃ other,
    ((Task.load source (world.decls.module id).name).on world).1 = .error (.moduleNotFound other)
  origin : now.session.source = source
  sources : now.world.sources = world.sources
  leaves : now.world.leaves = world.leaves
  slots : now.world.slots = world.slots
  pending : ∀ entry ∈ now.stack, asked entry.1
  licensed : now.Licensed
  hidden : now.hidden = []

/-- Whether a session knows nothing yet, as it waits for its module. -/
structure Waiting (world : World) (source : SourceId) (asked : Declaration → Prop) (now : Moment) :
    Prop where
  sound : now.Sound
  defs : now.defs = world.defs
  decls : now.decls = world.decls
  modules : ∀ name, now.session.modules.get? name = none
  answers : ∀ declaration, now.answer declaration = none
  origin : now.session.source = source
  sources : now.world.sources = world.sources
  leaves : now.world.leaves = world.leaves
  slots : now.world.slots = world.slots
  pending : ∀ entry ∈ now.stack, asked entry.1
  made : now.made = []
  confirmed : now.confirmed = []
  hidden : now.hidden = []
  awaited : ∃ id, asked (.module id)

section Underway

variable (hscoping : world.Scoping source names asked) (h : now.Underway world source names asked)

include hscoping h

theorem Underway.decls : now.decls = world.decls :=
  h.orderly.decls.trans hscoping.steady.opened_decls

/-- A module that the session does not work on yet is loaded, if at all, as it would have been at
first. -/
theorem Underway.load_eq {id : DeclId .module} (hasked : asked (.module id))
    (hnone : now.session.modules.get? (world.decls.module id).name = none) :
    (Task.load now.session.source (world.decls.module id).name).on now.world =
      (((Task.load source (world.decls.module id).name).on world).1, now.world) := by
  have hmem := hscoping.mem_names hasked
  rw [h.origin]
  obtain ⟨name, rfl⟩ | ⟨modules, saves, hsource⟩ := hscoping.steady
  · obtain rfl := List.mem_singleton.mp hmem
    obtain ⟨hdefs, hopened, -⟩ | ⟨other, hother, module, hmodule⟩ := h.begun
    · rw [Task.load_congr h.sources h.leaves hdefs]
      have hkept : ((Task.load source (world.decls.module id).name).on world).2.defs = now.defs := by
        cases hload : (Task.load source (world.decls.module id).name).on world with
        | mk outcome after =>
            cases outcome with
            | ok module =>
                have hloaded := (hscoping.steady.opens.loaded _ hmem module after hload).2.1
                exact hloaded.trans (hopened.trans hdefs.symm)
            | error => rw [Task.load_error hload, hdefs]
      rw [hkept]
    · rw [List.mem_singleton.mp (hscoping.mem_names hother), hnone] at hmodule
      cases hmodule
  · have hsource' : now.world.source source = .memory modules saves := by
      rw [← hsource, World.source, World.source, h.sources]
    rw [Task.load_memory hsource', Task.load_memory hsource]

omit hscoping in
/-- Where something is known a module is. -/
theorem Underway.begun_of_answer (hanswer : now.answer declaration = some definition) :
    ∃ id, asked (.module id) ∧
      ∃ module, now.session.modules.get? (world.decls.module id).name = some module := by
  refine h.begun.resolve_left fun ⟨_, _, hnone⟩ => ?_
  simp [hnone] at hanswer

/-- A module that is loaded was there before. -/
theorem Underway.opened_of_load {id : DeclId .module} {name : String} {module : DefId .module}
    {after : World} (hasked : asked (.module id)) (hname : (now.decls.module id).name = name)
    (hnone : now.session.modules.get? name = none)
    (hload : (Task.load now.session.source name).on now.world = (.ok module, after)) :
    after = now.world ∧ (world.opened source names).session.modules.get? name = some module := by
  rw [h.decls hscoping] at hname
  subst hname
  rw [h.load_eq hscoping hasked hnone, Prod.mk.injEq] at hload
  obtain ⟨hmodule, rfl⟩ := hload
  refine ⟨rfl, ?_⟩
  exact (hscoping.steady.opens.loaded _ (hscoping.mem_names hasked) module _ (Prod.ext hmodule rfl)).1

/-- A module that is missing the source does not have. -/
theorem Underway.lacks_of_missing {id : DeclId .module} (hasked : asked (.module id))
    (hmissing : now.Missing (.module id)) : ∃ other,
      ((Task.load source (world.decls.module id).name).on world).1 = .error (.moduleNotFound other) := by
  cases hmissing with
  | member hparent => cases hparent
  | module hname hnone hload =>
      subst hname
      rw [h.decls hscoping] at hnone hload
      rw [h.load_eq hscoping hasked hnone] at hload
      exact ⟨_, hload⟩

/-! ## Every step -/

theorem Step.census_underway (hstep : Step asked {} now next) :
    next.Census (world.opened source names).Old := by
  obtain hcensus | ⟨⟨id, module, hasked, hnone, hload⟩, hcensus⟩ :=
    hstep.census_or_load rfl rfl hscoping.opened h.orderly h.census
  · exact hcensus
  · have hworld := (h.opened_of_load hscoping hasked rfl hnone hload).1
    have hdefs : next.defs = now.defs := congrArg World.defs hworld
    exact hcensus.congr fun definition => by simp [hdefs]

/-- The modules that a session gets are those that the source hands out, or new. -/
theorem Step.modules_underway (hstep : Step asked {} now next) {name : String}
    {module : DefId .module} (hmodule : next.session.modules.get? name = some module) :
    (world.opened source names).session.modules.get? name = some module ∨
      (world.opened source names).session.modules.get? name = none ∧
        ¬ (world.opened source names).Old (.module module) := by
  cases hstep with
  | quiet | enter | create | locate | confirm | amend | remember => exact h.modules _ _ hmodule
  | load hstack hasked hname hnone hload =>
      obtain ⟨rfl, rfl⟩ | hmodule := Dictionary.of_get?_insert hmodule
      · exact .inl (h.opened_of_load hscoping hasked hname hnone hload).2
      · exact h.modules _ _ hmodule
  | @makeModule id rest added hstack hasked hwritable hname hpolicy hnone hmissing =>
      obtain ⟨rfl, rfl⟩ | hmodule := Dictionary.of_get?_insert hmodule
      · obtain ⟨other, hlacks⟩ := h.lacks_of_missing hscoping hasked hmissing
        have hunloaded := hscoping.steady.opens.unloaded _ (hscoping.mem_names hasked) _ _
          (Prod.ext hlacks rfl)
        rw [h.decls hscoping] at hname
        rw [hname] at hunloaded
        exact .inr ⟨hunloaded, h.census.not_old (Definitions.makeModule_makes now.defs default).fresh⟩
      · exact h.modules _ _ hmodule
  | abandon hfails | hide hfails | graft hfails => cases hfails

/-- Nothing changes before a module is known. -/
theorem Step.begun_underway (hstep : Step asked {} now next) :
    (next.defs = world.defs ∧ (world.opened source names).world.defs = world.defs ∧
      ∀ declaration, next.answer declaration = none) ∨
    ∃ id, asked (.module id) ∧
      ∃ module, next.session.modules.get? (world.decls.module id).name = some module := by
  have hsound := h.orderly.sound
  have hstill (hmodules : next.session.modules = now.session.modules) (hdefs : next.defs = now.defs)
      (hanswer : next.answer = now.answer) :
      (next.defs = world.defs ∧ (world.opened source names).world.defs = world.defs ∧
        ∀ declaration, next.answer declaration = none) ∨
      ∃ id, asked (.module id) ∧
        ∃ module, next.session.modules.get? (world.decls.module id).name = some module := by
    rw [hmodules, hdefs, hanswer]
    exact h.begun
  cases hstep with
  | quiet hquiet => exact hstill rfl hquiet.defs rfl
  | @load id rest name module after hstack hasked hname =>
      rw [h.decls hscoping] at hname
      exact .inr ⟨id, hasked, module, by simp [hname]⟩
  | enter hasked hmemo hstack => exact hstill rfl rfl (answer_enter hstack)
  | @makeModule id rest name hstack hasked hwritable hname =>
      rw [h.decls hscoping] at hname
      exact .inr ⟨id, hasked, _, by simp [hname]; rfl⟩
  | create hstack hasked hwritable hpolicy hmissing hparent hholder =>
      exact .inr (h.begun_of_answer hholder)
  | @locate declaration definition rest hstack hasked hpolicy hfound =>
      cases hfound with
      | @module id found hmodule => exact .inr ⟨id, hasked, found, h.decls hscoping ▸ hmodule⟩
      | member hparent hholder => exact .inr (h.begun_of_answer hholder)
  | confirm => exact hstill rfl rfl rfl
  | amend hstack => exact .inr (h.begun_of_answer (hsound.answer_top hstack))
  | remember hstack => exact hstill rfl rfl (hsound.answer_remember hstack)
  | abandon hfails | hide hfails | graft hfails => cases hfails

/-- A module is made only if the source does not have it. -/
theorem Step.lacking_underway (hstep : Step asked {} now next) {id : DeclId .module}
    (hmade : (.module id, definition) ∈ next.made) : ∃ other,
      ((Task.load source (world.decls.module id).name).on world).1 = .error (.moduleNotFound other) := by
  cases hstep with
  | quiet | load | enter | locate | confirm | amend | remember => exact h.lacking _ _ hmade
  | makeModule hstack hasked hwritable hname hpolicy hnone hmissing =>
      obtain heq | hmade := List.mem_cons.mp hmade
      · cases heq
        exact h.lacks_of_missing hscoping hasked hmissing
      · exact h.lacking _ _ hmade
  | create hstack hasked hwritable hpolicy hmissing hparent =>
      obtain heq | hmade := List.mem_cons.mp hmade
      · cases heq
        cases hparent
      · exact h.lacking _ _ hmade
  | abandon hfails | hide hfails | graft hfails => cases hfails

theorem Step.world_underway (hstep : Step asked {} now next) :
    next.world.leaves = now.world.leaves ∧ next.world.slots = now.world.slots := by
  cases hstep with
  | quiet hquiet hslots => exact ⟨hquiet.leaves, hslots rfl⟩
  | load hstack hasked hname hnone hload =>
      obtain ⟨rfl, -⟩ := h.opened_of_load hscoping hasked hname hnone hload
      exact ⟨rfl, rfl⟩
  | enter | makeModule | create | locate | confirm | amend | remember => exact ⟨rfl, rfl⟩
  | abandon hfails | hide hfails | graft hfails => cases hfails

omit hscoping h in
/-- What is in flight has been asked for. -/
theorem Step.pending (hstep : Step asked {} now next) (hpending : ∀ entry ∈ now.stack, asked entry.1) :
    ∀ entry ∈ next.stack, asked entry.1 := by
  have hsame {stack : InFlight} (hsubset : stack.map Prod.fst ⊆ now.stack.map Prod.fst) :
      ∀ entry ∈ stack, asked entry.1 := by
    intro entry hmem
    obtain ⟨other, hother, heq⟩ := List.mem_map.mp (hsubset (List.mem_map_of_mem hmem))
    exact heq ▸ hpending other hother
  cases hstep with
  | quiet | load | confirm | amend => exact hpending
  | enter hasked => exact List.forall_mem_cons.mpr ⟨hasked, hpending⟩
  | makeModule hstack | create hstack | locate hstack | remember hstack =>
      exact hsame (by simp [hstack])
  | abandon hfails | hide hfails | graft hfails => cases hfails

/-- Every step of a session that resolves modules and types keeps it underway. -/
theorem Step.underway (hstep : Step asked {} now next) : next.Underway world source names asked where
  orderly := hstep.orderly rfl hscoping.opened h.orderly
  census := hstep.census_underway hscoping h
  lists := h.lists.trans h.orderly.grows (hstep.keepsOld h.orderly.sound h.census)
  modules _ _ hmodule := hstep.modules_underway hscoping h hmodule
  begun := hstep.begun_underway hscoping h
  lacking _ _ hmade := hstep.lacking_underway hscoping h hmade
  origin := (hstep.later h.orderly.sound).source.trans h.origin
  sources := (hstep.later h.orderly.sound).sources.trans h.sources
  leaves := (hstep.world_underway hscoping h).1.trans h.leaves
  slots := (hstep.world_underway hscoping h).2.trans h.slots
  pending := hstep.pending h.pending
  licensed := hstep.licensed h.orderly.sound h.licensed
  hidden := (hstep.hidden_eq rfl).trans h.hidden

end Underway

/-! ## Beginning -/

section Unanswered

variable (hanswers : ∀ declaration, now.answer declaration = none)

include hanswers

/-- As long as nothing has been resolved everything is in order. -/
theorem orderly_of_unanswered {start : World} (hwell : start.defs.WellFormed) (hsound : now.Sound)
    (hfaithful : (now.world.source now.session.source).Faithful now.defs)
    (hdecls : now.decls = start.decls) (hdefs : now.defs = start.defs)
    (hmodules : ∀ name module, now.session.modules.get? name = some module →
      (now.defs.module module).name = name)
    (hconfirmed : now.confirmed = []) : now.Orderly asked start where
  sound := hsound
  wellFormed := hdefs ▸ hwell
  faithful := hfaithful
  decls := hdecls
  grows := hdefs ▸ .refl _
  modules := hmodules
  asked _ _ hanswer := by simp [hanswers] at hanswer
  placed _ _ hanswer := by simp [hanswers] at hanswer
  confirmed := by simp [hconfirmed]

/-- As long as nothing has been resolved everything is old. -/
theorem census_of_unanswered (hold : ∀ definition, old definition ↔ now.defs.has definition = true)
    (hmade : now.made = []) : now.Census old where
  there definition := (hold definition).mp
  new definition hhas := .inl ((hold definition).mpr hhas)
  inside holder _ _ hmem _ := (hold holder).mpr (Definitions.has_of_mem_members hmem)
  found _ _ hanswer := by simp [hanswers] at hanswer
  missing := by simp [hmade]

end Unanswered

/-- Where nothing is loaded that was not there, a session that begins is underway. -/
theorem underway_begin (hscoping : world.Scoping source names asked)
    (hsame : (world.opened source names).world = world) :
    (begin source world).Underway world source names asked where
  orderly := by
    rw [hsame]
    exact orderly_begin hscoping.prepared
  census := census_begin.congr fun definition => by rw [SessionState.Old, hsame]
  lists := keepsOld_of_eq fun _ _ => by rw [hsame]; rfl
  modules := by simp [begin, Dictionary.get?]
  begun := .inl ⟨rfl, by rw [hsame], by simp [begin, answer, Dictionary.get?]⟩
  lacking := by simp [begin]
  origin := rfl
  sources := rfl
  leaves := rfl
  slots := rfl
  pending := by simp [begin]
  licensed := by simp [begin, Licensed]
  hidden := rfl

theorem waiting_begin {name : String} (hscoping : world.Scoping source names asked)
    (hnames : names = [name]) : (begin source world).Waiting world source asked where
  sound := (orderly_begin hscoping.prepared).sound
  defs := rfl
  decls := rfl
  modules := by simp [begin, Dictionary.get?]
  answers := by simp [begin, answer, Dictionary.get?]
  origin := rfl
  sources := rfl
  leaves := rfl
  slots := rfl
  pending := by simp [begin]
  made := rfl
  confirmed := rfl
  hidden := rfl
  awaited := by
    obtain ⟨id, hasked, -⟩ := (hscoping.named name).mp (by simp [hnames])
    exact ⟨id, hasked⟩

section Waiting

variable {name : String} {module : DefId .module} {after : World}
  (hscoping : world.Scoping source names asked) (hnames : names = [name])
  (hload : (Task.load source name).on world = (.ok module, after))
  (hdefs : after.defs = (world.opened source names).world.defs)
  (h : now.Waiting world source asked)

include hscoping hnames hload h

/-- A session that waits for its module gets it when it asks for it. -/
theorem Waiting.load_eq {id : DeclId .module} (hasked : asked (.module id)) :
    (Task.load now.session.source (now.decls.module id).name).on now.world =
      (.ok module, { now.world with defs := after.defs }) := by
  have hmem := hscoping.mem_names hasked
  rw [hnames] at hmem
  rw [h.decls, List.mem_singleton.mp hmem, h.origin, Task.load_congr h.sources h.leaves h.defs, hload]

include hdefs

/-- With its module a session gets underway. -/
theorem Waiting.loaded {id : DeclId .module} {rest : InFlight}
    (hstack : now.stack = (.module id, none) :: rest) (hasked : asked (.module id)) :
    (now.withState
      { now.session with modules := now.session.modules.insert name module }
      { now.world with defs := after.defs }).Underway world source names asked := by
  have hopens := hscoping.steady.opens
  have hname : (now.decls.module id).name = name := by
    have hmem := hscoping.mem_names hasked
    rw [hnames] at hmem
    rw [h.decls, List.mem_singleton.mp hmem]
  have hstep : Step asked {} now (now.withState
      { now.session with modules := now.session.modules.insert name module }
      { now.world with defs := after.defs }) :=
    .load hstack hasked hname (h.modules name) (hname ▸ h.load_eq hscoping hnames hload hasked)
  -- The only module that is known is the one just loaded.
  have hmodules (other : String) (found : DefId .module)
      (hfound : (now.session.modules.insert name module).get? other = some found) :
      other = name ∧ found = module := by
    obtain hnew | hold := Dictionary.of_get?_insert hfound
    · exact hnew
    · simp [h.modules] at hold
  have hfaithful : (now.world.source now.session.source).Faithful after.defs := by
    have hfaithful := hscoping.opened.faithful
    have hsource : (world.opened source names).world.source source = world.source source := by
      rw [hopens.same]
      rfl
    rw [hsource, ← hdefs] at hfaithful
    rwa [h.origin, World.source, h.sources]
  exact
    { orderly := orderly_of_unanswered (by exact h.answers) hscoping.opened.wellFormed
        (hstep.sound h.sound) hfaithful (h.decls.trans hscoping.steady.opened_decls.symm) hdefs
        (fun other found hfound => by
          obtain ⟨rfl, rfl⟩ := hmodules other found hfound
          exact (Task.load_faithful hscoping.prepared.faithful hscoping.prepared.wellFormed hload).2)
        h.confirmed
      census := census_of_unanswered (by exact h.answers)
        (fun _ => by rw [SessionState.Old, ← hdefs, withState_defs]) h.made
      lists := keepsOld_of_eq fun _ _ => by rw [withState_defs, hdefs]
      modules := fun other found hfound => by
        obtain ⟨rfl, rfl⟩ := hmodules other found hfound
        exact .inl (hopens.loaded _ (by simp [hnames]) _ _ hload).1
      begun := .inr ⟨id, hasked, module, by simp [← hname, h.decls]⟩
      lacking := by simp [h.made]
      origin := h.origin
      sources := h.sources
      leaves := h.leaves
      slots := h.slots
      pending := h.pending
      licensed := by simp [Licensed, h.made]
      hidden := h.hidden }

/-- A session that waits for its module goes on waiting until it has it. -/
theorem Step.waiting (hstep : Step asked {} now next) : next.Waiting world source asked ∨
    next.Underway world source names asked ∧ next.defs = (world.opened source names).world.defs ∧
      ∀ declaration, next.answer declaration = none := by
  have hsound := hstep.sound h.sound
  have hunknown {declaration : Declaration} {definition : Definition}
      (hanswer : now.answer declaration = some definition) : False := by
    simp [h.answers] at hanswer
  -- Whatever needs an answer is impossible yet: the only way on is to load the module.
  cases hstep with
  | quiet hquiet hslots =>
      exact .inl { h with
        sound := hsound
        defs := hquiet.defs.trans h.defs
        decls := hquiet.decls.trans h.decls
        sources := hquiet.sources.trans h.sources
        leaves := hquiet.leaves.trans h.leaves
        slots := (hslots rfl).trans h.slots }
  | @load id rest name' module' world' hstack hasked hname hnone hload' =>
      obtain rfl : name' = name := by
        have hmem := hscoping.mem_names hasked
        rw [hnames, ← h.decls, hname] at hmem
        exact List.mem_singleton.mp hmem
      rw [← hname, h.load_eq hscoping hnames hload hasked] at hload'
      cases hload'
      exact .inr ⟨h.loaded hscoping hnames hload hdefs hstack hasked, hdefs, h.answers⟩
  | enter hasked hmemo hstack hlets =>
      exact .inl { h with
        sound := hsound
        answers := answer_enter hstack ▸ h.answers
        pending := List.forall_mem_cons.mpr ⟨hasked, h.pending⟩ }
  | makeModule hstack hasked hwritable hname hpolicy hnone hmissing =>
      cases hmissing with
      | member hparent => cases hparent
      | module hname' _ hload' =>
          rw [← hname', h.load_eq hscoping hnames hload hasked] at hload'
          cases hload'
  | create hstack hasked hwritable hpolicy hmissing hparent hholder => exact (hunknown hholder).elim
  | locate hstack hasked hpolicy hfound =>
      cases hfound with
      | module hmodule => simp [h.modules] at hmodule
      | member hparent hholder => exact (hunknown hholder).elim
  | confirm hstack | amend hstack | remember hstack =>
      exact (hunknown (h.sound.answer_top hstack)).elim
  | abandon hfails | hide hfails | graft hfails => cases hfails

end Waiting

end Moment

end Graft
