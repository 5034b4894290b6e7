import Graft.Proofs.Import.Translating
import Graft.Proofs.Signature.Naming
import Graft.Proofs.Signature.Renaming

/-!
# The passes of an import

An import declares modules, then types, then members, and at last adds details. After each pass what
is declared is what has been mapped so far (`Progress`), and what has been mapped is what the walk
through the patch module lists with an intent.
-/

namespace Graft

namespace Task.Yields

variable {α β γ σ : Type} {world : World}

/-- Going through a list and collecting what is found: with each item more is found, and what is
found is what was to be looked for. -/
theorem collect {f : β → Task (Option γ)} {list : List β} (inv : List γ → World → Prop)
    {view : γ → σ} {spec : β → Option σ} (h : inv [] world)
    (hstep : ∀ item ∈ list, ∀ found world, inv found world → Yields world (f item)
      fun answer next => answer.map view = spec item ∧ inv (found ++ answer.toList) next) :
    Yields world (do return (← list.mapM f).filterMap id) fun found next =>
      inv found next ∧ found.map view = list.filterMap spec := by
  have hall : Yields world (list.mapM f) fun answers next =>
      inv (answers.filterMap id) next ∧ (answers.filterMap id).map view = list.filterMap spec := by
    suffices hmore : ∀ found world, inv found world → Yields world (list.mapM f)
        fun answers next => inv (found ++ answers.filterMap id) next ∧
          (answers.filterMap id).map view = list.filterMap spec by
      simpa using hmore [] world h
    clear h
    induction list with
    | nil => exact fun found world h => .pure ⟨by simpa using h, rfl⟩
    | cons item rest ih =>
        intro found world h
        rw [List.mapM_cons]
        refine .bind (hstep item List.mem_cons_self found world h) ?_
        rintro answer next ⟨hview, hinv⟩
        refine .bind (ih (fun other hmem => hstep other (List.mem_cons_of_mem _ hmem)) _ next hinv) ?_
        rintro answers last ⟨hinv, hviews⟩
        refine .pure ?_
        cases answer with
        | none =>
            rw [Option.map_none] at hview
            simpa [← hview, ← hviews] using hinv
        | some value =>
            rw [Option.map_some] at hview
            simpa [← hview, ← hviews] using hinv
  exact .bind hall fun answers next h => .pure h

/-- Going through a list with a value that grows. -/
theorem foldlM {f : α → β → Task α} {list : List β} {start : α}
    (inv : List β → α → World → Prop) (h : inv [] start world)
    (hstep : ∀ done item rest, list = done ++ item :: rest → ∀ value world, inv done value world →
      Yields world (f value item) fun value next => inv (done ++ [item]) value next) :
    Yields world (list.foldlM f start) (inv list) := by
  suffices hmore : ∀ rest done value world, list = done ++ rest → inv done value world →
      Yields world (rest.foldlM f value) (inv list) by
    exact hmore list [] start world rfl h
  intro rest
  induction rest with
  | nil =>
      rintro done value world rfl h
      exact .pure (by simpa using h)
  | cons item rest ih =>
      intro done value world heq h
      rw [List.foldlM_cons]
      refine .bind (hstep done item rest heq value world h) fun value next h => ?_
      exact ih _ value next (by simp [heq]) h

/-- Doing something with each item of a list. -/
theorem forM {f : β → Task Unit} {list : List β} (inv : List β → World → Prop) (h : inv [] world)
    (hstep : ∀ done item rest, list = done ++ item :: rest → ∀ world, inv done world →
      Yields world (f item) fun _ next => inv (done ++ [item]) next) :
    Yields world (list.forM f) fun _ => inv list := by
  suffices hmore : ∀ rest done world, list = done ++ rest → inv done world →
      Yields world (rest.forM f) fun _ => inv list by
    exact hmore list [] world rfl h
  intro rest
  induction rest with
  | nil =>
      rintro done world rfl h
      exact .pure (by simpa using h)
  | cons item rest ih =>
      intro done world heq h
      change Yields world (f item >>= fun _ => rest.forM f) _
      refine .bind (hstep done item rest heq world h) fun _ next h => ?_
      exact ih _ next (by simp [heq]) h

end Task.Yields

/-! ## Modules -/

/-- Whether the modules of a patch are those that are required, and none holds anything yet. -/
structure Task.Requires (required : List (String × Bool)) (patch : Patch)
    (targets : Dictionary String (DeclId .module)) (decls : Declarations) : Prop extends
    Declarations.Required required patch.modules targets decls where
  living : ∀ id ∈ patch.modules, decls.has (.module id) = true
  empty : ∀ id ∈ patch.modules, ∀ kind, decls.members (.module id) kind = []

namespace Task

variable {world : World} {required : List (String × Bool)} {patch : Patch}
  {targets : Dictionary String (DeclId .module)} {name : String} {readOnly : Bool}

/-- A module that is required for the first time. -/
theorem Requires.require {decls decls' : Declarations} {id : DeclId .module}
    (h : Requires required patch targets decls) (hmakes : decls.Makes decls' (.module id))
    (hmodule : decls'.module id = { terms := ⟨.failIfMissing, readOnly⟩, name })
    (hnone : ∀ id ∈ patch.modules, (decls.module id).name ≠ name) :
    Requires (required ++ [(name, readOnly)]) { patch with modules := patch.modules ++ [id] }
      (targets.insert name id) decls' := by
  have hne (other : DeclId .module) (hmem : other ∈ patch.modules) : other ≠ id := by
    rintro rfl
    simpa [hmakes.gains.fresh] using h.living other hmem
  -- The module is new, so the ones before it read as they did.
  have hagrees (other : DeclId .module) (hmem : other ∈ patch.modules) :
      decls.AgreesAt decls' (.module other) :=
    hmakes.agrees _ fun heq => hne other hmem (by cases heq; rfl)
  have hread (other : DeclId .module) (hmem : other ∈ patch.modules) :
      decls'.module other = decls.module other := hagrees other hmem
  refine ⟨⟨?_, fun other access => ?_, fun other found hget => ?_⟩, ?_, ?_⟩
  · have hnames : patch.modules.map (fun id => (decls'.module id).name) =
        patch.modules.map fun id => (decls.module id).name :=
      List.map_congr_left fun other hmem => by rw [hread other hmem]
    rw [List.map_append, hnames, List.nodup_append]
    refine ⟨h.nodup, by simp, ?_⟩
    rintro _ hmem _ hname rfl
    obtain ⟨other, hother, heq⟩ := List.mem_map.mp hmem
    simp only [List.map_cons, List.map_nil, List.mem_singleton, hmodule] at hname
    exact hnone other hother (heq.trans hname)
  · rw [List.mem_append, h.required, List.mem_singleton, Prod.mk.injEq]
    constructor
    · rintro (⟨other, hmem, hrest⟩ | ⟨rfl, rfl⟩)
      · exact ⟨other, List.mem_append_left _ hmem, hread other hmem ▸ hrest⟩
      · exact ⟨id, by simp, by rw [hmodule], by rw [hmodule]⟩
    · rintro ⟨other, hmem, hname, hterms⟩
      obtain hmem | hmem := List.mem_append.mp hmem
      · rw [hread other hmem] at hname hterms
        exact .inl ⟨other, hmem, hname, hterms⟩
      · rw [List.mem_singleton.mp hmem, hmodule] at hname hterms
        cases hterms
        exact .inr ⟨hname.symm, rfl⟩
  · obtain ⟨rfl, rfl⟩ | hget := Dictionary.of_get?_insert hget
    · exact ⟨by simp, by rw [hmodule]⟩
    · obtain ⟨hmem, hname⟩ := h.targets other found hget
      exact ⟨List.mem_append_left _ hmem, hread found hmem ▸ hname⟩
  · refine List.forall_mem_append.mpr ⟨fun other hmem => ?_, ?_⟩
    · exact (hmakes.gains.has _).mpr (.inl (h.living other hmem))
    · simpa using (hmakes.gains.has _).mpr (.inr rfl)
  · refine List.forall_mem_append.mpr ⟨fun other hmem kind => ?_, ?_⟩
    · rw [(hagrees other hmem).members, h.empty other hmem]
    · simpa using hmakes.members

/-- A module that is required again has to be required as before. -/
theorem yields_requireModule (h : Requires required patch targets world.decls) :
    Yields world (requireModule patch name .failIfMissing readOnly) fun taken next =>
      Redeclares world next ∧ Requires (required ++ [(name, readOnly)]) taken.2
        (targets.insert name taken.1) next.decls := by
  unfold requireModule
  refine .onDecls ?_
  dsimp only [id_eq]
  split
  · rename_i id hfound
    have hmem := List.mem_of_find?_eq_some hfound
    have hname : (world.decls.module id).name = name := by simpa using List.find?_some hfound
    split
    · exact .throw
    · split
      · exact .throw
      · have hpolicy : (world.decls.module id).terms.policy = .failIfMissing :=
          Decidable.not_not.mp ‹_›
        have hreadOnly : (world.decls.module id).terms.readOnly = readOnly :=
          Decidable.not_not.mp ‹_›
        have hterms : (world.decls.module id).terms = ⟨.failIfMissing, readOnly⟩ := by
          rw [← hpolicy, ← hreadOnly]
        refine .pure ⟨rfl, { h with required := fun other access => ?_, targets := ?_ }⟩
        · rw [List.mem_append, h.required, List.mem_singleton, Prod.mk.injEq]
          refine ⟨?_, .inl⟩
          rintro (hold | ⟨rfl, rfl⟩)
          · exact hold
          · exact ⟨id, hmem, hname, hterms⟩
        · intro other found hget
          obtain ⟨rfl, rfl⟩ | hget := Dictionary.of_get?_insert hget
          · exact ⟨hmem, hname⟩
          · exact h.targets other found hget
  · rename_i hnone
    intro value next hon
    cases hon
    refine ⟨rfl, ?_⟩
    refine h.require (Declarations.makeModule_makes rfl) ?_ fun id hmem => ?_
    · simp [Declarations.module]
    · simpa using List.find?_eq_none.mp hnone id hmem

/-- The modules of the patch are those that the manifest requires. -/
theorem yields_requireModules (hnone : patch.modules = []) :
    Yields world (requireModules patch required) fun taken next =>
      Redeclares world next ∧ Requires required taken.1 taken.2 next.decls := by
  unfold requireModules
  refine .foldlM (fun done (taken : Patch × Dictionary String (DeclId .module)) next =>
    Redeclares world next ∧ Requires done taken.1 taken.2 next.decls) ⟨rfl, ?_⟩ ?_
  · refine ⟨⟨?_, ?_, ?_⟩, ?_, ?_⟩ <;> simp [hnone, Dictionary.get?]
  · rintro done ⟨name, readOnly⟩ rest - ⟨patch, targets⟩ next ⟨hsame, h⟩
    refine .bind (yields_requireModule h) ?_
    rintro taken last ⟨hlast, h⟩
    refine .pure ⟨?_, h⟩
    rw [Redeclares, hlast, hsame]

/-- Declaring leaves methods, their slots and the work that waits for them alone. -/
theorem Redeclares.sameMethods {importer : ImporterId} {next : World} (hsame : Redeclares world next)
    (hlive : world.importers.has importer.index = true) : world.SameMethods importer next := by
  rw [hsame]
  exact ⟨hlive, rfl, rfl, rfl, rfl, rfl, rfl⟩

end Task

namespace ImportJob

open Graft.Task

variable {job : ImportJob} {defs : Definitions} {roots : List (DeclId .module)}
  {items : Counterpart → Prop} {world : World} {kind : SymbolKind}

/-- An import has mapped nothing when the modules have been declared. -/
theorem progress_begin {patch : Patch} {before : World}
    (himporter : job.importer = ⟨before.importers.next⟩)
    (hsame : Redeclares { before with importers := before.importers.push { scope := job.module } } world)
    (h : Requires job.manifest.required patch job.targets world.decls) :
    job.Progress before.defs patch.modules (fun _ => False) world where
  unchanged := by rw [hsame]
  live := by rw [hsame, himporter]; simp
  required := h.toRequired
  mapped :=
    { living := h.living
      there := nofun
      kinds := nofun
      policies := nofun
      named := nofun
      lands := nofun
      within := nofun
      only := by
        rintro holder kind node (⟨id, hmem, rfl⟩ | ⟨_, ⟨⟩, -⟩) hnode
        simp [h.empty id hmem] at hnode
      apart := by
        rintro holder kind left right (⟨id, hmem, rfl⟩ | ⟨_, ⟨⟩, -⟩) - hleft
        simp [h.empty id hmem] at hleft }
  bare := nofun
  binds := by
    have hstate : world.importer job.importer = { scope := job.module } := by
      rw [hsame, himporter]
      simp [World.importer]
    constructor <;> simp [hstate, Dictionary.get?]

/-! ## Types -/

/-- What is mapped once more has been found. -/
def Collected (toDefinition : DefId kind → Definition) (toDeclaration : DeclId kind → Declaration)
    (before : Counterpart → Prop) (found : List (Imported kind)) (item : Counterpart) : Prop :=
  before item ∨ ∃ taken ∈ found, item = taken.counterpart toDefinition toDeclaration

theorem collected_append {toDefinition : DefId kind → Definition}
    {toDeclaration : DeclId kind → Declaration} {found : List (Imported kind)}
    (taken : Imported kind) (item : Counterpart) :
    Collected toDefinition toDeclaration items found item ∨
        item = taken.counterpart toDefinition toDeclaration ↔
      Collected toDefinition toDeclaration items (found ++ [taken]) item := by
  simp only [Collected, List.mem_append, List.mem_singleton, or_assoc]
  refine or_congr_right ⟨?_, ?_⟩
  · rintro (⟨other, hmem, rfl⟩ | rfl)
    · exact ⟨other, .inl hmem, rfl⟩
    · exact ⟨taken, .inr rfl, rfl⟩
  · rintro ⟨other, hmem | rfl, rfl⟩
    · exact .inl ⟨other, hmem, rfl⟩
    · exact .inr rfl

/-- A top-level type lands in the module that its mapping or the manifest names. -/
theorem targetModule_eq {id : DefId .type} {module : DeclId .module}
    (h : job.targetModule world id = .ok module) : ∃ name,
      job.manifest.targetModule? (world.defs.token (.type id)) = some name ∧
        job.targets.get? name = some module := by
  unfold targetModule at h
  dsimp only at h
  unfold Manifest.targetModule?
  generalize Option.or _ _ = name? at h ⊢
  cases name? with
  | none => cases h
  | some name =>
      dsimp only at h
      split at h
      · rename_i found hfound
        cases h
        exact ⟨name, rfl, hfound⟩
      · cases h

/-- A type is declared in the type around it, or else in the module where it lands. -/
theorem yields_declareType {id : DefId .type} {intent : Intent}
    (h : job.Progress defs roots items world) :
    Yields world (job.declareType id intent) fun declaration next => Redeclares world next ∧
      ∃ holder, Holds roots items holder ∧ job.Lands defs items (.type id) holder ∧
        world.decls.Plants next.decls holder (.type declaration) intent.policy
          (job.manifest.nameIn defs (.type id)).1 (job.manifest.nameIn defs (.type id)).2 := by
  unfold declareType
  refine .get ?_
  rw [h.unchanged]
  dsimp only
  split
  · rename_i outer houter
    split
    · exact .throw
    · rename_i owner howner
      obtain ⟨item, around, hitem, hdefinition, htoken, hdeclaration⟩ := h.binds.types _ _ howner
      have hholds : Holds roots items (.type owner) := .inr ⟨item, hitem, hdeclaration⟩
      refine (yields_declareNested (h.mapped.has hholds) fun kind node hmem =>
        h.mapped.has_member hholds hmem).mono fun declaration next ⟨hsame, hplants⟩ =>
          ⟨hsame, .type owner, hholds, ?_, ?_⟩
      · exact hdeclaration ▸ .nested houter hitem hdefinition htoken
      · simpa [Manifest.nameIn, houter] using hplants
  · rename_i houter
    refine .bind .ofExcept fun module next ⟨hmodule, hnext⟩ => ?_
    subst hnext
    obtain ⟨name, hname, htarget⟩ := targetModule_eq hmodule
    rw [h.unchanged] at hname
    have hholds : Holds roots items (.module module) := .inl
      ⟨module, (h.required.targets _ _ htarget).1, rfl⟩
    refine (Task.yields_declareType (h.mapped.has hholds) fun other hmem => ?_).mono
      fun declaration last ⟨hsame, hplants⟩ =>
        ⟨hsame, .module module, hholds, .top houter hname htarget, ?_⟩
    · exact h.mapped.has_member hholds (Declarations.type_mem_module.mpr hmem)
    · simpa [Manifest.nameIn, houter] using hplants

/-- Something has been mapped once it has been declared and bound. -/
theorem Progress.take {next : World} {definition : Definition} {intent : Intent}
    {holder declaration : Declaration} {space? : Option String} {name : String}
    (h : job.Progress defs roots items world)
    (hplants : world.decls.Plants next.decls holder declaration intent.policy space? name)
    (hholder : Holds roots items holder) (hkind : declaration.kind = definition.kind)
    (hname : job.manifest.nameIn defs definition = (space?, name))
    (hlands : job.Lands defs items definition holder) (hdefs : next.defs = defs)
    (hlive : next.importers.has job.importer.index = true)
    (hbinds : Binds defs (fun item => items item ∨ item = ⟨definition, intent, declaration⟩)
      (next.importer job.importer)) :
    job.Progress defs roots (fun item => items item ∨ item = ⟨definition, intent, declaration⟩)
      next where
  unchanged := hdefs
  live := hlive
  required := h.required.keeps hplants.keeps h.mapped.living
  mapped := h.mapped.plant hplants hholder hkind hname hlands
  bare _ _ hitem heq := h.mapped.plant_bare hplants hholder h.bare hitem heq
  binds := hbinds

/-- The importer is changed, and nothing else. -/
theorem yields_changeImporter {change : Importer → Importer} :
    Yields world (changeImporter job.importer change) fun _ next =>
      next = { world with importers := world.importers.update job.importer.index change } := by
  intro _ _ hon
  cases hon
  rfl

/-- A method is bound, and then the work that waited for it is done. -/
theorem yields_bindMethod {token : Token} {declaration : DeclId .method} :
    Yields world (job.importer.bindMethod token declaration) fun _ =>
      World.Quiet { world with importers := world.importers.update job.importer.index fun state =>
        { state with
          methods := state.methods.insert token declaration
          pending := state.pending.erase token } } := by
  unfold ImporterId.bindMethod ImporterId.state
  rw [bind_assoc]
  refine .get ?_
  rw [pure_bind]
  have hwork {start : World} (queued : List Continuation) : Quiet start (do
      unless queued.isEmpty do
        log (.replaying queued.length ((← MonadState.get).methodDeclName declaration))
      queued.forM (continueWith declaration)) fun _ => True := by
    have hqueued : Quiet start (queued.forM (continueWith declaration)) fun _ => True :=
      .forM fun _ _ => ImporterId.quiet_continueWith
    dsimp only
    split
    · exact hqueued
    · exact .get fun _ _ => .bind quiet_log fun _ _ => hqueued
  refine .bind yields_changeImporter ?_
  rintro _ middle rfl
  exact .mono (.quiet (hwork _)) fun _ _ h => h.1

/-- Nothing but declarations and an importer's types or fields have changed. -/
theorem sameMethods_of_redeclares {importer : ImporterId} {next : World} {change : Importer → Importer}
    (hlive : world.importers.has importer.index = true) (hsame : Redeclares world next)
    (hchange : ∀ state, (change state).scope = state.scope ∧ (change state).methods = state.methods ∧
      (change state).pending = state.pending ∧ (change state).deferred = state.deferred) :
    world.SameMethods importer
      { next with importers := next.importers.update importer.index change } := by
  have hstill := hsame.sameMethods hlive
  have hstate := World.importer_update_self hstill.live change
  obtain ⟨hscope, hmethods, hpending, hdeferred⟩ := hchange (next.importer importer)
  refine ⟨by simpa using hstill.live, hstill.defs, ?_, ?_, ?_, ?_, hstill.slots⟩
  · rw [hstate, hscope, hstill.scope]
  · rw [hstate, hmethods, hstill.methods]
  · rw [hstate, hpending, hstill.pending]
  · rw [hstate, hdeferred, hstill.deferred]

/-- A type is declared and bound. -/
theorem yields_bindType {id : DefId .type} {intent : Intent}
    (h : job.Progress defs roots items world) :
    Yields world (do
      let declaration ← job.declareType id intent
      job.importer.bindType (defs.token (.type id)) declaration
      return some (⟨id, intent, declaration⟩ : Imported .type))
      fun answer next => ∃ declaration, answer = some ⟨id, intent, declaration⟩ ∧
        world.SameMethods job.importer next ∧ job.Progress defs roots
          (fun item => items item ∨ item = ⟨.type id, intent, .type declaration⟩) next := by
  refine .bind (yields_declareType h) ?_
  rintro declaration next ⟨hsame, holder, hholder, hlands, hplants⟩
  have himporter : next.importer job.importer = world.importer job.importer := by
    rw [hsame]
    rfl
  have hlive : next.importers.has job.importer.index = true := by
    rw [hsame]
    exact h.live
  refine .bind yields_changeImporter ?_
  rintro _ _ rfl
  refine .pure ⟨declaration, rfl, sameMethods_of_redeclares h.live hsame fun _ => ⟨rfl, rfl, rfl, rfl⟩,
    h.take hplants hholder rfl rfl hlands ?_ ?_ ?_⟩
  · rw [hsame]
    exact h.unchanged
  · simpa using hlive
  · rw [World.importer_update_self hlive, himporter]
    exact h.binds.type rfl rfl

/-- The types that have an intent are mapped, in the order of the walk. -/
theorem yields_declareTypes (h : job.Progress defs roots (fun _ => False) world) :
    Yields world job.declareTypes fun types next =>
      job.Progress defs roots (fun item => item ∈ types.map (·.counterpart .type .type)) next ∧
        world.SameMethods job.importer next ∧
        types.map (fun type => (type.definition, type.intent)) =
          (job.typesToDeclare defs).filterMap fun (id, outer) =>
            (job.manifest.intentOf (defs.token (.type id)) outer).map (id, ·) := by
  unfold declareTypes
  refine .get ?_
  rw [h.unchanged]
  refine (Yields.collect (fun found next => job.Progress defs roots
    (Collected .type .type (fun _ => False) found) next ∧ world.SameMethods job.importer next)
      ?_ ?_).mono fun types next ⟨⟨h, hstill⟩, hviews⟩ => ⟨h.congr fun item => ?_, hstill, hviews⟩
  · exact ⟨h.congr fun item => by simp [Collected], .refl h.live⟩
  · rintro ⟨id, outer⟩ - found next ⟨hfound, hstill⟩
    refine .get ?_
    rw [hfound.unchanged]
    dsimp only
    split
    · rename_i hnone
      exact .pure ⟨by simp [hnone], by simpa using hfound, hstill⟩
    · rename_i intent hintent
      refine (yields_bindType hfound).mono ?_
      rintro answer last ⟨declaration, rfl, hlast, hprogress⟩
      exact ⟨by simp [hintent], hprogress.congr (collected_append ⟨id, intent, declaration⟩),
        hstill.trans hlast⟩
  · simp [Collected, List.mem_map, eq_comm]

/-! ## Members -/

/-- Signatures refer to types alone, so they are imported alike where the same types are bound. -/
theorem relink_bind_congr {other : World} {importer : ImporterId} (hdefs : other.defs = world.defs)
    (hscope : (other.importer importer).scope = (world.importer importer).scope)
    (htypes : (other.importer importer).types = (world.importer importer).types)
    (signature : MethodSig) :
    signature.relink (other.bind importer) = signature.relink (world.bind importer) := by
  have howns : other.ownsType importer = world.ownsType importer := by
    funext id
    simp only [World.ownsType, ImporterId.ownsType, hdefs, hscope]
  have howner : (other.bind importer).onOwner = (world.bind importer).onOwner := rfl
  refine signature.relink_congr howner fun target hmem => ?_
  have htype := signature.targets_ofType target hmem
  cases target with
  | unknown => trivial
  | declaration declaration => cases declaration <;> first | rfl | trivial
  | definition definition =>
      cases definition with
      | type id => simp only [Relink.AgreesAt, World.bind, World.boundType?, howns, hdefs, htypes]
      | field | method => cases htype
      | module | property | event => trivial

/-- How far an import has come that has mapped all types in `typed`: methods are declared once for
each overload, as signatures are read with these types. -/
structure Joined (typed : World) (job : ImportJob) (defs : Definitions) (roots : List (DeclId .module))
    (items : Counterpart → Prop) (world : World) : Prop where
  progress : job.Progress defs roots items world
  unchanged : typed.defs = defs
  names : world.typeNames = typed.typeNames
  scope : (world.importer job.importer).scope = (typed.importer job.importer).scope
  types : (world.importer job.importer).types = (typed.importer job.importer).types
  overloads : ∀ item id method, items item → item.definition = .method id →
    item.declaration = .method method →
    (world.decls.method method).signature.same typed.typeNames .overload
      ((defs.method id).signature.relink (typed.bind job.importer)) = true
  distinct : ∀ owner left right, Holds roots items (.type owner) →
    left ∈ (world.decls.type owner).methods → right ∈ (world.decls.type owner).methods →
    (world.decls.method left).name = (world.decls.method right).name →
    (world.decls.method left).signature.same typed.typeNames .overload
      (world.decls.method right).signature = true → left = right

/-- While all that has been mapped are types there are no methods. -/
theorem Progress.joined (h : job.Progress defs roots items world)
    (htypes : ∀ item, items item → ∃ id, item.definition = .type id) :
    Joined world job defs roots items world where
  progress := h
  unchanged := h.unchanged
  names := rfl
  scope := rfl
  types := rfl
  overloads item id method hitem hdefinition := by
    obtain ⟨type, htype⟩ := htypes item hitem
    cases htype.symm.trans hdefinition
  distinct owner left right hholds hleft := by
    have hmem : .method left ∈ world.decls.members (.type owner) .method := List.mem_map_of_mem hleft
    obtain ⟨-, ⟨item, hitem, heq⟩, -⟩ := h.mapped.only _ _ _ hholds hmem
    obtain ⟨type, htype⟩ := htypes item hitem
    have hkind := h.mapped.kinds item hitem
    rw [heq, htype] at hkind
    cases hkind

section Joined

variable {typed next : World} (h : Joined typed job defs roots items world)

include h

theorem Joined.congr {items' : Counterpart → Prop} (hitems : ∀ item, items item ↔ items' item) :
    Joined typed job defs roots items' world := by
  rwa [show items' = items from funext fun item => propext (hitems item).symm]

theorem Joined.quiet (hquiet : world.Quiet next) : Joined typed job defs roots items next where
  progress := h.progress.quiet hquiet
  unchanged := h.unchanged
  names := (World.typeNames_eq hquiet.defs (.of_eq (by rw [hquiet.decls]))).trans h.names
  scope := (hquiet.scope _).trans h.scope
  types := (hquiet.types _).trans h.types
  overloads := hquiet.decls ▸ h.overloads
  distinct := hquiet.decls ▸ h.distinct

/-- Signatures refer to types, and these are bound once and for all. -/
theorem Joined.relink_eq (signature : MethodSig) :
    signature.relink (world.bind job.importer) = signature.relink (typed.bind job.importer) :=
  relink_bind_congr (h.progress.unchanged.trans h.unchanged.symm) h.scope h.types signature

/-- A member has been mapped once it has been declared and bound. -/
theorem Joined.take {owner : Imported .type} {definition : Definition} {intent : Intent}
    {declaration : Declaration} {name : String}
    (hplants : world.decls.Plants next.decls (.type owner.declaration) declaration intent.policy
      none name)
    (howner : items (owner.counterpart .type .type))
    (hmem : definition ∈ defs.members (.type owner.definition) definition.kind)
    (hkind : declaration.kind = definition.kind) (htype : definition.kind ≠ .type)
    (hname : job.manifest.nameIn defs definition = (none, name)) (hdefs : next.defs = world.defs)
    (hlive : next.importers.has job.importer.index = true)
    (hscope : (next.importer job.importer).scope = (world.importer job.importer).scope)
    (htypes : (next.importer job.importer).types = (world.importer job.importer).types)
    (hbinds : Binds defs (fun item => items item ∨ item = ⟨definition, intent, declaration⟩)
      (next.importer job.importer))
    (hoverloads : ∀ id method, definition = .method id → declaration = .method method →
      (next.decls.method method).signature.same typed.typeNames .overload
        ((defs.method id).signature.relink (typed.bind job.importer)) = true)
    (hdistinct : ∀ left right, left ∈ (next.decls.type owner.declaration).methods →
      right ∈ (next.decls.type owner.declaration).methods →
      (next.decls.method left).name = (next.decls.method right).name →
      (next.decls.method left).signature.same typed.typeNames .overload
        (next.decls.method right).signature = true → left = right) :
    Joined typed job defs roots (fun item => items item ∨ item = ⟨definition, intent, declaration⟩)
      next := by
  have hholder : Holds roots items (.type owner.declaration) :=
    .inr ⟨owner.counterpart .type .type, howner, rfl⟩
  refine
    { progress := h.progress.take hplants hholder hkind hname
        (.member htype howner rfl hmem) (hdefs.trans h.progress.unchanged) hlive hbinds
      unchanged := h.unchanged
      names := ?_
      scope := hscope.trans h.scope
      types := htypes.trans h.types
      overloads := ?_
      distinct := ?_ }
  · exact (World.typeNames_eq hdefs (hplants.types (hkind ▸ htype))).trans h.names
  · rintro item id method (hitem | rfl) hdefinition hdeclaration
    · have hhas := h.progress.mapped.there item hitem
      rw [hdeclaration] at hhas
      rw [(hplants.keeps.stays _ hhas).signature]
      exact h.overloads item id method hitem hdefinition hdeclaration
    · exact hoverloads id method hdefinition hdeclaration
  · intro other left right hother hleft hright hname hsame
    -- Elsewhere no method is declared, so overloads are as distinct as before.
    by_cases hne : other = owner.declaration
    · subst hne
      exact hdistinct left right hleft hright hname hsame
    · have hlisted {method : DeclId .method} (hmem : method ∈ (next.decls.type other).methods) :
          .method method ∈ next.decls.members (.type other) .method := List.mem_map_of_mem hmem
      obtain hother | hnone := h.progress.mapped.holds_planted hplants hholder hother
      · have hold {method : DeclId .method} (hmem : method ∈ (next.decls.type other).methods) :
            .method method ∈ world.decls.members (.type other) .method :=
          (hplants.only _ _ _ (hlisted hmem)).resolve_right fun heq => hne (by cases heq.1; rfl)
        have hread {method : DeclId .method} (hmem : method ∈ (next.decls.type other).methods) :=
          hplants.keeps.stays _ (h.progress.mapped.has_member hother (hold hmem))
        rw [(hread hleft).methodName, (hread hright).methodName] at hname
        rw [(hread hleft).signature, (hread hright).signature] at hsame
        exact h.distinct other left right hother (by simpa [Declarations.members] using hold hleft)
          (by simpa [Declarations.members] using hold hright) hname hsame
      · have hmem := hlisted hleft
        simp [hnone] at hmem

/-- Declaring something that is no method leaves the methods of a type as they are. -/
theorem Joined.distinct_other {owner : DeclId .type} {declaration : Declaration} {policy : Policy}
    {space? : Option String} {name : String} {left right : DeclId .method}
    (hplants : world.decls.Plants next.decls (.type owner) declaration policy space? name)
    (hholder : Holds roots items (.type owner)) (hkind : declaration.kind ≠ .method)
    (hleft : left ∈ (next.decls.type owner).methods)
    (hright : right ∈ (next.decls.type owner).methods)
    (hname : (next.decls.method left).name = (next.decls.method right).name)
    (hsame : (next.decls.method left).signature.same typed.typeNames .overload
      (next.decls.method right).signature = true) : left = right := by
  have hold {method : DeclId .method} (hmem : method ∈ (next.decls.type owner).methods) :
      .method method ∈ world.decls.members (.type owner) .method :=
    (hplants.only (.type owner) .method (.method method) (List.mem_map_of_mem hmem)).resolve_right
      fun heq => hkind heq.2.1.symm
  have hread {method : DeclId .method} (hmem : method ∈ (next.decls.type owner).methods) :=
    hplants.keeps.stays _ (h.progress.mapped.has_member hholder (hold hmem))
  rw [(hread hleft).methodName, (hread hright).methodName] at hname
  rw [(hread hleft).signature, (hread hright).signature] at hsame
  exact h.distinct owner left right hholder (by simpa [Declarations.members] using hold hleft)
    (by simpa [Declarations.members] using hold hright) hname hsame

/-- Methods of one name that are the same overload are declared once. -/
theorem Joined.distinct_method {owner : DeclId .type} {declaration : DeclId .method}
    {policy : Policy} {name : String} {signature : MethodSig} {left right : DeclId .method}
    (hplants : world.decls.Plants next.decls (.type owner) (.method declaration) policy none name)
    (hholder : Holds roots items (.type owner))
    (hoverload : declaration ∈ (world.decls.type owner).methods ∧
        (world.decls.method declaration).signature.same world.typeNames .overload signature = true ∨
      (next.decls.method declaration).signature = signature ∧
        ∀ other ∈ (world.decls.type owner).methods, (world.decls.method other).name = name →
          (world.decls.method other).signature.same world.typeNames .overload signature ≠ true)
    (hleft : left ∈ (next.decls.type owner).methods)
    (hright : right ∈ (next.decls.type owner).methods)
    (hname : (next.decls.method left).name = (next.decls.method right).name)
    (hsame : (next.decls.method left).signature.same typed.typeNames .overload
      (next.decls.method right).signature = true) : left = right := by
  have hlisted {method : DeclId .method} (hmem : method ∈ (next.decls.type owner).methods) :
      method ∈ (world.decls.type owner).methods ∨ method = declaration := by
    refine (hplants.only (.type owner) .method (.method method) (List.mem_map_of_mem hmem)).imp ?_ ?_
    · simp [Declarations.members]
    · rintro ⟨-, -, heq⟩
      cases heq
      rfl
  have hread {method : DeclId .method} (hmem : method ∈ (world.decls.type owner).methods) :
      world.decls.KeepsAt next.decls (.method method) := by
    have hmem : .method method ∈ world.decls.members (.type owner) .method := List.mem_map_of_mem hmem
    exact hplants.keeps.stays _ (h.progress.mapped.has_member hholder hmem)
  have hold (hleft : left ∈ (world.decls.type owner).methods)
      (hright : right ∈ (world.decls.type owner).methods) : left = right := by
    rw [(hread hleft).methodName, (hread hright).methodName] at hname
    rw [(hread hleft).signature, (hread hright).signature] at hsame
    exact h.distinct owner left right hholder hleft hright hname hsame
  -- A method is declared anew only if none of the overloads that are there is the same.
  obtain ⟨hfound, -⟩ | ⟨hmade, hnone⟩ := hoverload
  · exact hold ((hlisted hleft).elim id (· ▸ hfound)) ((hlisted hright).elim id (· ▸ hfound))
  · have hnew (method : DeclId .method) (hmem : method ∈ (world.decls.type owner).methods)
        (hname : (next.decls.method method).name = (next.decls.method declaration).name)
        (hsame : (next.decls.method method).signature.same typed.typeNames .overload
          (next.decls.method declaration).signature = true) : False := by
      rw [(hread hmem).methodName] at hname
      rw [(hread hmem).signature, hmade] at hsame
      exact hnone method hmem (hname.trans hplants.named.1) (h.names ▸ hsame)
    obtain hleft | rfl := hlisted hleft
    · obtain hright | rfl := hlisted hright
      · exact hold hleft hright
      · exact (hnew left hleft hname hsame).elim
    · obtain hright | rfl := hlisted hright
      · exact (hnew right hright hname.symm (MethodSig.same_symm hsame)).elim
      · rfl

section Kinds

variable {owner : Imported .type} {intent : Intent} (howner : items (owner.counterpart .type .type))

include howner

omit h in
theorem Joined.holds : Holds roots items (.type owner.declaration) :=
  .inr ⟨owner.counterpart .type .type, howner, rfl⟩

theorem yields_declareField {id : DefId .field} (hmem : id ∈ (defs.type owner.definition).fields) :
    Yields world (job.declareField owner.declaration id (defs.token (.field id)) intent)
      fun declaration next => Joined typed job defs roots
        (fun item => items item ∨ item = ⟨.field id, intent, .field declaration⟩) next := by
  unfold declareField
  refine .get ?_
  rw [h.progress.unchanged]
  refine .bind (.quiet (ImporterId.quiet_importTypeSig _)) ?_
  rintro signature next ⟨hquiet, -⟩
  replace h := h.quiet hquiet
  have hholds : Holds roots items (.type owner.declaration) := Joined.holds howner
  refine .bind (Task.yields_declareField (h.progress.mapped.has hholds) fun kind node hmem =>
    h.progress.mapped.has_member hholds hmem) ?_
  rintro declaration middle ⟨hsame, hplants, -⟩
  have himporters : middle.importers = next.importers := by rw [hsame]
  have hlive : middle.importers.has job.importer.index = true := himporters ▸ h.progress.live
  have himporter : middle.importer job.importer = next.importer job.importer := by
    simp only [World.importer, himporters]
  refine .bind yields_changeImporter ?_
  rintro _ _ rfl
  have hstate := World.importer_update_self hlive
    (fun state => { state with fields := state.fields.insert (defs.token (.field id)) declaration })
  refine .pure (h.take hplants howner (List.mem_map_of_mem hmem) rfl (by simp [Definition.kind]) rfl
    ?_ ?_ ?_ ?_ ?_ (by simp)
    fun left right => h.distinct_other hplants hholds (by simp [Declaration.kind]))
  · rw [hsame]
  · simpa using hlive
  · rw [hstate, himporter]
  · rw [hstate, himporter]
  · have hbinds : Binds defs
        (fun item => items item ∨ item = ⟨.field id, intent, .field declaration⟩)
        (next.importer job.importer) := h.progress.binds.other (by simp)
    rw [hstate, himporter]
    exact hbinds.congr rfl rfl

/-- What an import of a property or an event leaves is a declaration more. -/
theorem Joined.redeclare {definition : Definition} {declaration : Declaration} {name : String}
    (hsame : Redeclares world next)
    (hplants : world.decls.Plants next.decls (.type owner.declaration) declaration intent.policy
      none name)
    (hmem : definition ∈ defs.members (.type owner.definition) definition.kind)
    (hkind : declaration.kind = definition.kind) (htype : definition.kind ≠ .type)
    (hmethod : definition.kind ≠ .method)
    (hname : job.manifest.nameIn defs definition = (none, name)) :
    Joined typed job defs roots (fun item => items item ∨ item = ⟨definition, intent, declaration⟩)
      next := by
  have hholds : Holds roots items (.type owner.declaration) := Joined.holds howner
  have himporters : next.importers = world.importers := by rw [hsame]
  have himporter : next.importer job.importer = world.importer job.importer := by
    simp only [World.importer, himporters]
  refine h.take hplants howner hmem hkind htype hname ?_ ?_ ?_ ?_ ?_ ?_ fun left right =>
    h.distinct_other hplants hholds (hkind ▸ hmethod)
  · rw [hsame]
  · rw [himporters]
    exact h.progress.live
  · rw [himporter]
  · rw [himporter]
  · rw [himporter]
    exact h.progress.binds.other fun id heq => hmethod (heq ▸ rfl)
  · exact fun id method heq => absurd (heq ▸ rfl) hmethod

theorem yields_declareProperty {id : DefId .property}
    (hmem : id ∈ (defs.type owner.definition).properties) :
    Yields world (job.declareProperty owner.declaration id (defs.token (.property id)) intent)
      fun declaration next => Joined typed job defs roots
        (fun item => items item ∨ item = ⟨.property id, intent, .property declaration⟩) next := by
  unfold declareProperty
  refine .get ?_
  rw [h.progress.unchanged]
  refine .bind (.quiet ImporterId.quiet_importPropertySig) fun signature next ⟨hquiet, _⟩ => ?_
  replace h := h.quiet hquiet
  have hholds : Holds roots items (.type owner.declaration) := Joined.holds howner
  refine (Task.yields_declareProperty (h.progress.mapped.has hholds) fun kind node hmem =>
    h.progress.mapped.has_member hholds hmem).mono fun declaration last ⟨hsame, hplants, _⟩ => ?_
  exact h.redeclare howner hsame hplants (List.mem_map_of_mem hmem) rfl nofun nofun rfl

theorem yields_declareEvent {id : DefId .event} (hmem : id ∈ (defs.type owner.definition).events) :
    Yields world (job.declareEvent owner.declaration id (defs.token (.event id)) intent)
      fun declaration next => Joined typed job defs roots
        (fun item => items item ∨ item = ⟨.event id, intent, .event declaration⟩) next := by
  unfold declareEvent
  refine .get ?_
  rw [h.progress.unchanged]
  refine .bind (.quiet (ImporterId.quiet_importTypeRef _)) fun type next ⟨hquiet, _⟩ => ?_
  replace h := h.quiet hquiet
  have hholds : Holds roots items (.type owner.declaration) := Joined.holds howner
  refine (Task.yields_declareEvent (h.progress.mapped.has hholds) fun kind node hmem =>
    h.progress.mapped.has_member hholds hmem).mono fun declaration last ⟨hsame, hplants, _⟩ => ?_
  exact h.redeclare howner hsame hplants (List.mem_map_of_mem hmem) rfl nofun nofun rfl

theorem yields_declareMethod {id : DefId .method}
    (hmem : id ∈ (defs.type owner.definition).methods) :
    Yields world (job.declareMethod owner.declaration id (defs.token (.method id)) intent)
      fun declaration next => Joined typed job defs roots
        (fun item => items item ∨ item = ⟨.method id, intent, .method declaration⟩) next := by
  unfold declareMethod
  refine .get ?_
  rw [h.progress.unchanged]
  refine .bind (.quiet (ImporterId.quiet_importMethodSig _))
    ?_
  rintro signature next ⟨hquiet, himports, hsignature⟩
  have hknown : .unknown ∉ signature.targets := by
    rw [MethodSig.relinks.targets_of_bare hsignature, MethodSig.relinks.targets_relink,
      List.mem_flatMap]
    rintro ⟨target, hmem, himage⟩
    obtain rfl | ⟨_, _, -, -, -, heq⟩ := World.mem_image_bind himage
    · exact himports _ hmem
    · cases heq
  rw [h.relink_eq] at hsignature
  replace h := h.quiet hquiet
  have hholds : Holds roots items (.type owner.declaration) := Joined.holds howner
  refine .bind (Task.yields_declareMethod (h.progress.mapped.has hholds) fun kind node hmem =>
    h.progress.mapped.has_member hholds hmem) ?_
  rintro declaration middle ⟨hsame, hplants, hoverload⟩
  have himporters : middle.importers = next.importers := by rw [hsame]
  have hlive : middle.importers.has job.importer.index = true := himporters ▸ h.progress.live
  have himporter : middle.importer job.importer = next.importer job.importer := by
    simp only [World.importer, himporters]
  refine .bind yields_bindMethod ?_
  intro _ last hlast
  let bindsId : Importer → Importer := fun state =>
    { state with
      methods := state.methods.insert (defs.token (.method id)) declaration
      pending := state.pending.erase (defs.token (.method id)) }
  let bound : World :=
    { middle with importers := middle.importers.update job.importer.index bindsId }
  have hstate : bound.importer job.importer = bindsId (next.importer job.importer) :=
    himporter ▸ World.importer_update_self hlive bindsId
  have hjoined : Joined typed job defs roots
      (fun item => items item ∨ item = ⟨.method id, intent, .method declaration⟩) bound := by
    refine h.take hplants howner (List.mem_map_of_mem hmem) rfl (by simp [Definition.kind]) rfl
      ?_ ?_ ?_ ?_ ?_ ?_
      fun left right => h.distinct_method hplants hholds hoverload
    · change middle.defs = next.defs
      rw [hsame]
    · simpa [bound] using hlive
    · rw [hstate]
    · rw [hstate]
    · rw [hstate]
      exact h.progress.binds.method rfl rfl
    · rintro _ _ ⟨⟩ ⟨⟩
      change (middle.decls.method declaration).signature.same _ _ _ = true
      rw [MethodSig.same_bare hsignature.symm]
      -- A declaration that was there was found by its signature; a new one is given the imported
      -- one.
      obtain ⟨hlisted, hfound⟩ | ⟨hmade, -⟩ := hoverload
      · have hmem : .method declaration ∈ next.decls.members (.type owner.declaration) .method :=
          List.mem_map_of_mem hlisted
        rw [(hplants.keeps.stays _ (h.progress.mapped.has_member hholds hmem)).signature]
        exact h.names ▸ hfound
      · rw [hmade]
        exact MethodSig.same_self hknown
  exact .pure (hjoined.quiet hlast)

end Kinds

end Joined

end ImportJob

end Graft
