import Graft.Proofs.Definition.Numbering
import Graft.Proofs.Session.Calls
import Graft.Proofs.Transplant.Stacking

/-!
# Tokens of what sessions make

Definitions are built by hand and by any number of sessions, one thing after the other
(`Site.Built`). Whatever a session does to definitions could have been done by hand (`Run.builds`),
so that tokens and definitions go together in every module of a site (`numbered_of_built`).
-/

namespace Graft

open Relation

/-- A codec that builds what it decodes. -/
def Codec.Building (codec : Codec) : Prop :=
  ∀ name bytes (defs defs' : Definitions) module,
    codec.decode name bytes defs = .ok (module, defs') → ReflTransGen Definitions.Builds defs defs'

/-- Whether a source builds what it hands out. What is kept in memory has been built before. -/
def Source.Building : Source → Prop
  | .memory _ _ => True
  | .streamed _ codec => codec.Building

/-- No declaration of a module states anything that is amended. -/
theorem Amendment.kind_ne_module {now : Moment} {declaration : Declaration} {definition : Definition}
    {amendment : Amendment} (h : amendment.Stated now declaration definition) :
    declaration.kind ≠ .module := by
  cases declaration with
  | module id =>
      cases amendment <;>
        simp [Amendment.Stated, Declarations.statement, SymbolKind.scheme?, Declaration.kind] at h
  | type | field | method | property | event => simp [Declaration.kind]

namespace Moment

variable {asked : Declaration → Prop} {mode : Mode} {now next : Moment}

/-- Whatever a step does to definitions is building. -/
theorem Step.builds (hstep : Step asked mode now next) (hsound : now.Sound)
    (hsource : (now.world.source now.session.source).Building) :
    ReflTransGen Definitions.Builds now.defs next.defs := by
  cases hstep with
  | @quiet world hits hquiet =>
      have hsame : world.defs = now.defs := hquiet.defs
      exact hsame ▸ .refl
  | @load id rest name module world hstack hasked hname hnone hload =>
      cases hkind : now.world.source now.session.source with
      | memory modules saves =>
          rw [Task.load_memory hkind] at hload
          obtain rfl := congrArg Prod.snd hload
          exact .refl
      | streamed store codec =>
          rw [hkind] at hsource
          obtain ⟨bytes, defs, hdecode, rfl⟩ := Task.load_streamed hkind hload
          exact hsource _ _ _ _ _ hdecode
  | enter | locate | confirm | remember | abandon => exact .refl
  | @makeModule id rest name => exact .single (.makeModule name)
  | create _ _ _ _ _ _ _ _ _ _ hbuilds => exact .single hbuilds
  | hide _ _ _ _ _ _ _ _ _ _ _ _ hbuilds => exact .single hbuilds
  | @amend declaration definition rest amendment defs hstack hasked hwritable hstated hchanges =>
      -- A change of a module might change its ledger, but nothing about modules is amended.
      have hkind := hsound.kinds _ _ (hsound.answer_top hstack)
      exact .single (.alter hchanges (fun _ => rfl) (fun _ => rfl) fun module =>
        hchanges.ledger module fun heq => Amendment.kind_ne_module hstated (hkind ▸ heq ▸ rfl))
  | graft hgrafts hasked hwritable hmemo hchanges =>
      exact .single (.alter hchanges (fun _ => rfl) (fun _ => rfl) fun module =>
        hchanges.ledger module nofun)

/-- Whatever a run does to definitions is building. -/
theorem Run.builds (hrun : Run asked mode now next) (hsound : now.Sound)
    (hsource : (now.world.source now.session.source).Building) :
    ReflTransGen Definitions.Builds now.defs next.defs := by
  have hbuilt := hrun.keeps (P := fun later =>
    ReflTransGen Definitions.Builds now.defs later.defs ∧
      (later.world.source later.session.source).Building) hsound ?_ ⟨.refl, hsource⟩
  · exact hbuilt.1
  · intro now next hstep hsound hbefore
    have hlater := hstep.later hsound
    have hsame : next.world.source next.session.source = now.world.source now.session.source := by
      rw [World.source, World.source, hlater.sources, hlater.source]
    exact ⟨hbefore.1.trans (hstep.builds hsound hbefore.2), hsame ▸ hbefore.2⟩

end Moment

/-! ## Sites -/

/-- Whether what a session keeps exists, and is of the kind of what it was resolved for. -/
structure Session.Valid (session : Session) (defs : Definitions) : Prop where
  modules : ∀ name module, session.modules.get? name = some module →
    defs.has (.module module) = true
  remembered : ∀ declaration definition, session.resolved.get? declaration = some definition →
    defs.has definition = true ∧ definition.kind = declaration.kind

theorem Session.Valid.mono {session : Session} {defs defs' : Definitions} (h : session.Valid defs)
    (hhas : ∀ definition, defs.has definition = true → defs'.has definition = true) :
    session.Valid defs' where
  modules name module hmodule := hhas _ (h.modules name module hmodule)
  remembered declaration definition hmemo :=
    (h.remembered declaration definition hmemo).imp_left (hhas definition)

/-- A world and the sessions that work on it. -/
structure Site where
  world : World
  sessions : List Session := []

namespace Site

/-- The site after one of its sessions has done what is asked for, whatever became of it. -/
def ask (site : Site) (index : Nat) (session : Session) (call : SessionCall) : Site :=
  let state := (call.perform.on ⟨session, site.world⟩).2
  ⟨state.world, site.sessions.set index state.session⟩

/-- Whether a site came about from a world without definitions. Something is built by hand, what is
no definition is changed, a session begins, or one is asked for something. -/
inductive Built : Site → Prop where
  | start {world : World} (hempty : world.defs = {}) : Built { world }
  | build {site : Site} {defs : Definitions} (hsite : Built site)
      (hbuilds : site.world.defs.Builds defs) :
      Built { site with world := { site.world with defs } }
  | prepare {site : Site} {world : World} (hsite : Built site)
      (hdefs : world.defs = site.world.defs) : Built { site with world }
  | begin {site : Site} (hsite : Built site) (source : SourceId) :
      Built { site with sessions := site.sessions ++ [{ source }] }
  | call {site : Site} {index : Nat} {session : Session} (hsite : Built site)
      (hsession : site.sessions[index]? = some session)
      (hsound : (site.world.source session.source).Sound site.world.defs)
      (hbuilding : (site.world.source session.source).Building) (call : SessionCall) :
      Built (site.ask index session call)

/-- Whatever is built from nothing makes a site. -/
theorem Built.of_builds {world : World} (h : ReflTransGen Definitions.Builds {} world.defs) :
    Built { world } := by
  suffices hall : ∀ defs, ReflTransGen Definitions.Builds {} defs →
      Built { world := { world with defs } } from hall world.defs h
  intro defs hdefs
  induction hdefs with
  | refl => exact .start rfl
  | tail _ hbuilds ih => exact ih.build hbuilds

/-- Whether each module of a site has given tokens to what it holds, and sessions keep what exists. -/
structure Sound (site : Site) : Prop where
  filing : site.world.defs.Filing
  sessions : ∀ session ∈ site.sessions, session.Valid site.world.defs

variable {site : Site}

/-- Building keeps what each module has given tokens to in order, and takes nothing away. -/
theorem filing_of_builds {defs defs' : Definitions} (h : ReflTransGen Definitions.Builds defs defs')
    (hfiling : defs.Filing) :
    defs'.Filing ∧ ∀ definition, defs.has definition = true → defs'.has definition = true := by
  induction h with
  | refl => exact ⟨hfiling, fun _ hhas => hhas⟩
  | tail _ hbuilds ih =>
      exact ⟨ih.1.builds hbuilds, fun definition hhas => hbuilds.has (ih.2 definition hhas)⟩

/-- A request to one session leaves the site sound. -/
theorem Sound.call {index : Nat} {session : Session} (h : site.Sound)
    (hsession : site.sessions[index]? = some session)
    (hsound : (site.world.source session.source).Sound site.world.defs)
    (hbuilding : (site.world.source session.source).Building) (call : SessionCall) :
    (site.ask index session call).Sound := by
  have hvalid := h.sessions session (List.mem_of_getElem? hsession)
  -- Between requests nothing is being resolved: the moment is what the session keeps.
  let now : Moment := { state := ⟨session, site.world⟩ }
  have hnow : now.Sound :=
    { held := h.filing.planted.held
      modules := hvalid.modules
      source := hsound
      remembered := fun declaration definition hmemo =>
        (hvalid.remembered declaration definition hmemo).1
      located := by simp [now]
      unfinished := by simp [now]
      distinct := by simp [now]
      kinds := fun declaration definition hanswer =>
        (hvalid.remembered declaration definition (by simpa [now, Moment.answer] using hanswer)).2
      made := by simp [now] }
  obtain ⟨next, hstate, hstack, hrun⟩ := Moment.perform_run hnow rfl
    (site.world.reaches_all [call]) (List.mem_singleton.mpr rfl)
  have hnext := hrun.sound hnow
  obtain ⟨hfiling, hhas⟩ := filing_of_builds (hrun.builds hnow hbuilding) h.filing
  have hask : site.ask index session call =
      ⟨next.world, site.sessions.set index next.session⟩ := by
    rw [ask, ← hstate]
  rw [hask]
  refine ⟨hfiling, fun other hother => ?_⟩
  obtain hold | rfl := List.mem_or_eq_of_mem_set hother
  · exact (h.sessions other hold).mono hhas
  · exact ⟨hnext.modules, fun declaration definition hmemo =>
      ⟨hnext.remembered declaration definition hmemo, hnext.kinds declaration definition
        (by simp [Moment.answer, hmemo])⟩⟩

/-- However a site came about, it is sound. -/
theorem Built.sound (h : site.Built) : site.Sound := by
  induction h with
  | start hempty => exact ⟨hempty ▸ .empty, by simp⟩
  | build _ hbuilds ih =>
      exact ⟨ih.filing.builds hbuilds, fun session hsession =>
        (ih.sessions session hsession).mono fun _ hhas => hbuilds.has hhas⟩
  | prepare _ hdefs ih => exact ⟨hdefs ▸ ih.filing, hdefs ▸ ih.sessions⟩
  | begin _ source ih =>
      refine ⟨ih.filing, fun session hsession => ?_⟩
      obtain hold | hnew := List.mem_append.mp hsession
      · exact ih.sessions session hold
      · obtain rfl := List.mem_singleton.mp hnew
        exact ⟨by simp [Dictionary.get?], by simp [Dictionary.get?]⟩
  | call _ hsession hsound hbuilding call ih => exact ih.call hsession hsound hbuilding call

end Site

/-- However definitions are built, by hand and by sessions, the tokens of each module and what it
holds go together one to one, as long as there are fewer than 2²⁴ definitions of a table. -/
theorem numbered_of_built {site : Site} (hsite : site.Built) {module : DefId .module}
    (hmodule : site.world.defs.has (.module module) = true)
    (hfew : ∀ table, (site.world.defs.rowsOf module table).ncard < 2 ^ 24) :
    site.world.defs.Numbered module :=
  hsite.sound.filing.numbered hmodule hfew

/-- A type on its own, with a field that has no token yet. -/
def Definitions.withHand (defs : Definitions) : Definitions :=
  let (type, defs) := defs.makeType { name := "Hand", flags := 2 }
  (defs.addField type { name := "angle", flags := 1, signature := .primitive .int32 }).2

/-- A type with a method and a nested type that was adopted, and a session that is to give the method
another body. -/
def Site.clock : Site where
  world :=
    let world := World.clock [.tick []]
    { world with defs := world.defs.withHand.adopt (.type ⟨0⟩) (.type ⟨1⟩) }
  sessions := [{ source := ⟨0⟩ }]

theorem Site.built_clock : Site.clock.Built := by
  have hmethod : ReflTransGen Definitions.Builds {} (World.clock [.tick []]).defs :=
    ((ReflTransGen.refl.tail (.makeModule _)).tail
      (.addType rfl ⟨TypeDef.members_eq_nil rfl rfl rfl rfl rfl, rfl, rfl, rfl⟩)).tail
      (.addMethod rfl ⟨rfl, rfl, rfl, rfl⟩)
  have hfield : ReflTransGen Definitions.Builds {} (World.clock [.tick []]).defs.withHand :=
    (hmethod.tail (.makeType ⟨TypeDef.members_eq_nil rfl rfl rfl rfl rfl, rfl, rfl, rfl⟩)).tail
      (.addField rfl ⟨rfl, rfl, rfl, rfl⟩)
  have hadopts : (World.clock [.tick []]).defs.withHand.Builds
      ((World.clock [.tick []]).defs.withHand.adopt (.type ⟨0⟩) (.type ⟨1⟩)) :=
    .adopt rfl (by decide +kernel)
  exact .begin (.of_builds (hfield.tail hadopts)) ⟨0⟩

theorem numbered_of_built_clock :
    let site := Site.clock.ask 0 { source := ⟨0⟩ } (.transplant ⟨0⟩ "<Base>$")
    site.Built ∧ site.world.defs.has (.module ⟨0⟩) = true ∧
      (∀ table, (site.world.defs.rowsOf ⟨0⟩ table).ncard < 2 ^ 24) ∧
      site.world.defs.Numbered ⟨0⟩ ∧
      site.world.defs.token (.field ⟨0⟩) = .ofParts .field 1 ∧
      site.world.defs.token (.method ⟨1⟩) = .ofParts .methodDef 2 := by
  intro site
  have hsound : (Site.clock.world.source ⟨0⟩).Sound Site.clock.world.defs :=
    Source.sound_memory (by decide +kernel)
  have hbuilding : (Site.clock.world.source ⟨0⟩).Building := trivial
  have hsite : site.Built := .call Site.built_clock rfl hsound hbuilding _
  have hmodule : site.world.defs.has (.module ⟨0⟩) = true := by decide +kernel
  have hfew (table : TableId) : (site.world.defs.rowsOf ⟨0⟩ table).ncard < 2 ^ 24 := by
    have hall : site.world.defs.all.length < 2 ^ 24 := by decide +kernel
    exact (Definitions.ncard_rowsOf_le hsite.sound.filing.planted.held _ _).trans_lt hall
  exact ⟨hsite, hmodule, hfew, numbered_of_built hsite hmodule hfew, by decide +kernel,
    by decide +kernel⟩

end Graft
