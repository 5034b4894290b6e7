import Graft.Proofs.Transplant.Working

/-!
# Carrying bodies over

A transplant reads the declared body from its first instruction to its last handler, resolves what
it refers to and, on the first call to the base body, makes the hidden method. All of it is a run,
and in the end the body is carried over in the sense of `CarriedBody` (`advances_body`).
-/

namespace Graft.Moment

variable {asked : Declaration → Prop} {start : Moment} {id : DeclId .method}
  {transformer : Transformer} {now next : Moment} {context context' : TransplantContext}
  {α β : Type}

/-! ## Importing and resolving -/

/-- Importing leaves nothing behind that anyone looks at. -/
theorem leads_ofTask {task : Task α} {post : α → Prop} (h : Task.Quiet now.world task post) :
    Leads asked none now (SessionTask.ofTask task) (fun value next =>
      next.hidden = now.hidden ∧ post value ∧ next.answer = now.answer ∧ next.decls = now.decls)
      true := by
  intro _
  rw [SessionTask.on_ofTask]
  obtain ⟨hquiet, hpost⟩ := h now.world (.refl _)
  -- What is imported may know more owners of generic variables than before.
  have hstep : Step asked { hides := true } now
      (now.withState now.session (task.on now.world).2) := .quiet hquiet nofun
  cases hon : task.on now.world with
  | mk outcome world =>
      rw [hon] at hquiet hpost hstep
      cases outcome with
      | ok value =>
          exact ⟨now.withState now.session world, rfl, .single hstep, rfl, rfl, hpost value rfl, rfl,
            hquiet.decls⟩
      | error error =>
          exact ⟨now.withState now.session world, rfl, List.suffix_rfl, .single hstep, nofun⟩

/-- What imported references lead to is asked for. -/
theorem asks_bind {world : World} {targets : List Target}
    (hasks : transformer.Asks asked world) (htargets : Asks asked world.decls targets) :
    Asks asked world.decls (targets.flatMap (transformer.bind world).image) := by
  intro declaration hmem hhas
  obtain ⟨target, htarget, hmem⟩ := List.mem_flatMap.mp hmem
  cases transformer with
  | plain | redirecting =>
      refine htargets declaration ?_ hhas
      rw [Transformer.bind, image_self, List.mem_singleton] at hmem
      rwa [hmem]
  | importing importer bases =>
      obtain ⟨htypes, hfields, hmethods⟩ := hasks
      rcases World.mem_image_bind hmem with rfl | ⟨definition, found, -, -, hbound, heq⟩
      · exact htargets declaration htarget hhas
      · cases heq
        cases definition with
        | module | property | event => simp [World.bound?] at hbound
        | type id =>
            obtain ⟨found, hfound, rfl⟩ := Option.map_eq_some_iff.mp hbound
            exact htypes _ found hfound hhas
        | field id =>
            obtain ⟨found, hfound, rfl⟩ := Option.map_eq_some_iff.mp hbound
            exact hfields _ found hfound hhas
        | method id =>
            obtain ⟨found, hfound, rfl⟩ := Option.map_eq_some_iff.mp hbound
            exact hmethods _ found hfound hhas

/-- Importing something binds it, and importing nothing leaves it as it is. -/
theorem leads_enter {targets : α → List Target} {relink : Relink → α → α}
    {importWith : ImporterId → α → Task α} {value : α} (hrelinks : Relinks targets relink)
    (himport : ∀ importer, Task.Quiet now.world (importWith importer value) fun imported =>
      (∀ target ∈ targets value, now.world.Imports importer target) ∧
        relink .bare imported = relink .bare (relink (now.world.bind importer) value))
    (h : Working asked start id transformer now context) :
    Advances asked start id transformer now context (transformer.enter importWith value)
      fun imported hidden next => hidden = context.hidden ∧ next.answer = now.answer ∧
        (∀ target ∈ targets value, transformer.Imports now.world target) ∧
        relink .bare imported = relink .bare (relink (transformer.bind now.world) value) := by
  cases transformer with
  | plain | redirecting =>
      exact Advances.pure h ⟨rfl, rfl, fun _ _ => trivial, (hrelinks.bare_self value).symm⟩
  | importing importer bases =>
      refine Advances.mono h (Advances.lift h (leads_ofTask (himport importer))) ?_
      rintro imported next context' - - ⟨hhidden, ⟨himports, hbound⟩, hanswer, -⟩
      exact ⟨hhidden, hanswer, himports, hbound⟩

/-- Importing something and resolving it carries it over. -/
theorem leads_carry {targets : α → List Target} {slots : α → List SlotId} {relink : Relink → α → α}
    {importWith : ImporterId → α → Task α} {resolveWith : α → SessionTask α} {value : α}
    (hrelinks : Relinks targets relink)
    (himport : ∀ importer, Task.Quiet now.world (importWith importer value) fun imported =>
      (∀ target ∈ targets value, now.world.Imports importer target) ∧
        relink .bare imported = relink .bare (relink (now.world.bind importer) value))
    (hresolve : ∀ {next : Moment}, next.Sound → next.stack = [] → ∀ imported,
      Asks asked next.decls (targets imported) →
      Leads asked none next (resolveWith imported) fun resolved last =>
        last.Covers (targets imported) (slots imported) ∧ resolved = relink last.fill imported)
    (h : Working asked start id transformer now context)
    (hasks : Asks asked now.decls (targets value)) :
    Advances asked start id transformer now context (do
      (resolveWith (← transformer.enter importWith value) : SessionTask α))
      fun carried hidden next => hidden = context.hidden ∧
        next.Carries start.world transformer targets relink value carried := by
  refine Advances.bind h (leads_enter hrelinks himport h) ?_
  rintro imported next context' hafter - hworking ⟨hhidden, -, himports, hbound⟩
  have htargets : targets imported =
      (targets value).flatMap (transformer.bind now.world).image := by
    rw [hrelinks.targets_of_bare hbound, hrelinks.targets_relink]
  have hasks' : Asks asked next.decls (targets imported) := by
    rw [htargets, hafter.later.decls]
    exact asks_bind h.asks hasks
  refine Advances.mono hworking
    (Advances.lift hworking (hresolve hworking.sound hworking.stack imported hasks').bares) ?_
  rintro carried last context'' hafter' - ⟨hhidden', ⟨hsettles, -⟩, rfl⟩
  refine ⟨hhidden'.trans hhidden, now.world, (hafter.trans hafter').later.between h.between,
    himports, ?_, hrelinks.fill_bare hbound⟩
  rwa [← hrelinks.targets_of_bare hbound]

/-! ## The hidden method -/

theorem firstUnusedName_notMem {stem name : String} {taken : List String} {tries index : Nat}
    (h : firstUnusedName stem taken tries index = some name) : name ∉ taken := by
  induction tries generalizing index with
  | zero => simp [firstUnusedName] at h
  | succ tries ih =>
      simp only [firstUnusedName] at h
      split at h
      · exact ih h
      · rename_i hunused
        cases h
        simpa using hunused

theorem hiddenName_notMem {stem name : String} {taken : List String}
    (h : hiddenName stem taken = .ok name) : name ∉ taken := by
  unfold hiddenName at h
  split at h
  · cases h
    exact firstUnusedName_notMem ‹_›
  · cases h

/-- What is added last with a name of its own is listed after methods with other names. -/
theorem namedApart_of_adds {defs defs' : Definitions} {made : Record} {hidden : DefId .method}
    {owner : DefId .type} (hheld : defs.Held) (hhas : defs.has (.type owner) = true)
    (hadds : defs.Adds defs' (.type owner) (.method hidden) made)
    (howner : made.nature.owner = some owner)
    (hunused : ∀ other ∈ defs.members (.type owner) .method, ∀ sibling,
      defs.record? other = some sibling → sibling.nature.name ≠ made.nature.name) :
    defs'.NamedApart owner hidden := by
  refine ⟨made, defs.members (.type owner) .method, [], hadds.record_made, howner,
    hadds.members_parent hhas, ?_⟩
  intro other hother sibling hsibling
  obtain ⟨before, hbefore⟩ := Definitions.has_iff.mp (hheld _ _ _ hother)
  rw [hadds.grows.nature_eq hbefore hsibling]
  exact hunused other hother before hbefore

/-- What is added last with the signature of a method and a name of its own is a hidden method. -/
theorem hides_of_adds {defs : Definitions} {base : Option Body} {record made : Record}
    {method hidden : DefId .method} {owner : DefId .type} (hsound : now.Sound)
    (hrecord : now.defs.record? (.method method) = some record)
    (howner : record.nature.owner = some owner) (hhas : now.defs.has (.type owner) = true)
    (hadds : now.defs.Adds defs (.type owner) (.method hidden) made)
    (hshape : made.nature.shape = record.nature.shape) (howner' : made.nature.owner = some owner)
    (hbody : made.body = base)
    (hunused : ∀ other ∈ now.defs.members (.type owner) .method, ∀ sibling,
      now.defs.record? other = some sibling → sibling.nature.name ≠ made.nature.name) :
    defs.Hides base method hidden := by
  obtain ⟨made', front, rest, hmade', -, hlisted, hnames⟩ :=
    namedApart_of_adds hsound.held hhas hadds howner' hunused
  cases hadds.record_made.symm.trans hmade'
  refine ⟨record, made, owner, front, rest, ?_, howner, hmade', hshape, howner', hbody, hlisted,
    hnames⟩
  have hne := Definitions.ne_of_has_of_fresh (Definitions.has_iff.mpr ⟨_, hrecord⟩) hadds.fresh
  simp [hadds.record?, hne, hrecord]

/-- Making the hidden method is a step, and afterwards it is one. -/
theorem Working.hide {owner : DefId .type} {name : String} {made : DefId .method}
    {defs : Definitions} (h : Working asked start id transformer now context)
    (hnone : context.hidden = none)
    (howner : now.defs.living? (now.defs.method context.method).owner = some owner)
    (hname : hiddenName ((now.defs.method context.method).name ++ context.suffix)
      ((now.defs.type owner).methods.map fun id => (now.defs.method id).name) = .ok name)
    (hmade : now.defs.addMethod owner
      (context.hiddenMethod (now.defs.method context.method) name) = (made, defs)) :
    let next := (now.withDefs defs).withHidden (made :: now.hidden)
    Step asked { hides := true } now next ∧
      Working asked start id transformer next { context with hidden := some made } := by
  have hhas := h.sound.remembered _ _ h.memo
  have hrecord := Definitions.record?_method hhas
  rw [Definitions.living?, Option.filter_eq_some_iff] at howner
  obtain ⟨howner, hhasOwner⟩ := howner
  obtain ⟨token, hadds⟩ := Definitions.addMethod_adds hhasOwner
  have hbuilds : now.defs.Builds (now.defs.addMethod owner
      (context.hiddenMethod (now.defs.method context.method) name)).2 :=
    .addMethod hhasOwner ⟨rfl, rfl, rfl, rfl⟩
  rw [hmade] at hadds hbuilds
  -- The name is chosen apart from those of the methods that the owner has.
  have hunused : ∀ other ∈ now.defs.members (.type owner) .method, ∀ sibling,
      now.defs.record? other = some sibling → sibling.nature.name ≠ name := by
    intro other hother sibling hsibling heq
    obtain ⟨method, hmem, rfl⟩ := List.mem_map.mp hother
    rw [Definitions.record?_method (h.sound.held _ _ _ hother)] at hsibling
    cases hsibling
    exact hiddenName_notMem hname (List.mem_map.mpr ⟨method, hmem, heq⟩)
  have howner' : ((now.defs.method context.method).record).nature.owner = some owner := howner
  have hbase : (now.defs.method context.method).record.body = context.base := h.base _ hrecord
  intro next
  have hstep : Step asked { hides := true } now next := by
    refine .hide rfl h.asked h.writable h.memo hrecord howner' hunused ?_ rfl ?_ rfl hadds
      hbuilds
    · simp [TransplantContext.hiddenMethod, MethodDef.record]
    · simp [TransplantContext.hiddenMethod, MethodDef.record, ← hbase]
  have hrun : Run asked { hides := true } now next := .single hstep
  have hafter := hrun.after rfl rfl h.sound rfl
  have hplain : now.After (now.withDefs defs) :=
    { hafter with sound := { hafter.sound with }, later := { hafter.later with } }
  have htrace : next.hidden = (some made).toList ++ start.hidden := by
    simp [next, h.trace, hnone]
  refine ⟨hstep, { h.after hplain rfl with
    sound := hafter.sound
    hidden := ?_
    trace := htrace }⟩
  rintro _ ⟨⟩
  have hfresh := Definitions.not_has_iff.mpr (Definitions.record?_eq_none_of_fresh hadds.fresh)
  refine ⟨?_, hides_of_adds h.sound hrecord howner' hhasOwner hadds rfl ?_ rfl hunused⟩
  · rw [← Bool.not_eq_true] at hfresh ⊢
    exact fun hbefore => hfresh (h.between.after.has hbefore)
  · simp [TransplantContext.hiddenMethod, MethodDef.record]

/-- The base body has a hidden method, which is made on the first call. -/
theorem advances_baseMethod (h : Working asked start id transformer now context) :
    Advances asked start id transformer now context TransplantTask.baseMethod
      fun found hidden _ => hidden = some found := by
  refine Advances.get ?_
  cases hhidden : context.hidden with
  | some hidden => exact Advances.pure h hhidden
  | none =>
      refine Advances.world ?_
      dsimp only
      cases howner : now.world.defs.living? (now.world.defs.method context.method).owner with
      | none => exact Advances.throw
      | some owner =>
          refine Advances.ofExcept fun name hname => ?_
          cases hmade : now.defs.addMethod owner
            (context.hiddenMethod (now.defs.method context.method) name) with
          | mk made defs =>
              obtain ⟨hstep, hworking⟩ := h.hide hhidden howner hname hmade
              have hmake : Leads asked none now (SessionTask.makeDef (·.addMethod owner
                  (context.hiddenMethod (now.defs.method context.method) name)))
                  (fun hidden next => hidden = made ∧
                    next = (now.withDefs defs).withHidden (made :: now.hidden)) true := by
                refine Leads.ofStep made ?_ hstep rfl ⟨rfl, rfl⟩
                rw [SessionTask.on_makeDef, hmade]
                rfl
              refine Advances.lift_bind h.sound hmake ?_
              rintro _ _ - ⟨rfl, rfl⟩
              refine Advances.world ?_
              refine Advances.lift_bind hworking.sound Leads.log_like.bares ?_
              intro _ next hafter hlog
              exact Leads.pure ⟨hworking.after hafter hlog.1,
                ⟨rfl, rfl, rfl, by simp [hhidden]⟩, rfl⟩

/-! ## References -/

/-- How an operand comes out: carried over, and as a call to the base body if the hidden method was
not there before. -/
def ComesOut (start : World) (transformer : Transformer) (before : Option (DefId .method))
    (operand carried : Operand) (hidden : Option (DefId .method)) (next : Moment) : Prop :=
  ∃ call, next.Carried start transformer hidden call operand carried ∧
    (hidden ≠ before → call = true)

section References

variable (h : Working asked start id transformer now context)

include h

theorem advances_typeRef {ref : TypeRef} (hasks : Asks asked now.decls ref.targets) :
    Advances asked start id transformer now context (transformer.typeRef ref)
      fun carried hidden next => hidden = context.hidden ∧
        next.CarriesType start.world transformer ref carried :=
  leads_carry TypeRef.relinks (fun _ => ImporterId.quiet_importTypeRef ref)
    (fun hsound hstack imported hasks => leads_resolveTypeRef (finds_resolve asked none) hsound hstack
      imported hasks.reads) h hasks

theorem advances_typeSig {signature : TypeSig} (hasks : Asks asked now.decls signature.targets) :
    Advances asked start id transformer now context (transformer.typeSig signature)
      fun carried hidden next => hidden = context.hidden ∧
        next.CarriesSig start.world transformer signature carried :=
  leads_carry TypeSig.relinks (fun _ => ImporterId.quiet_importTypeSig signature)
    (fun hsound hstack imported hasks => leads_resolveTypeSig (finds_resolve asked none) hsound hstack
      imported hasks.reads) h hasks

theorem advances_callSite {signature : MethodSig}
    (hasks : Asks asked now.decls signature.targets) :
    Advances asked start id transformer now context (transformer.callSite signature)
      fun carried hidden next => hidden = context.hidden ∧
        next.Carries start.world transformer MethodSig.targets MethodSig.relink signature carried :=
  leads_carry MethodSig.relinks (fun _ => ImporterId.quiet_importMethodSig signature)
    (fun hsound hstack imported hasks => leads_resolveMethodSig (finds_resolve asked none) hsound hstack
      imported hasks.reads) h hasks

theorem advances_fieldRef {ref : FieldRef} (hasks : Asks asked now.decls ref.targets) :
    Advances asked start id transformer now context (transformer.fieldRef ref)
      fun carried hidden next => hidden = context.hidden ∧
        next.Carries start.world transformer FieldRef.targets FieldRef.relink ref carried :=
  leads_carry FieldRef.relinks (fun _ => ImporterId.quiet_importFieldRef ref)
    (fun hsound hstack imported hasks => leads_resolveFieldRef (finds_resolve asked none) hsound hstack
      (fun _ => nofun) imported hasks.reads) h hasks

theorem advances_typeSigs {signatures : List TypeSig}
    (hasks : Asks asked now.decls (TypeSig.targetsList signatures)) :
    Advances asked start id transformer now context (signatures.mapM transformer.typeSig)
      fun carried hidden next => hidden = context.hidden ∧
        List.Forall₂ (next.CarriesSig start.world transformer) signatures carried := by
  refine Advances.mapM_apart (fun _ _ {_ _} hafter =>
    hafter.later.carries hafter.answers TypeSig.relinks) h ?_
  intro signature hmem next context' hafter hworking
  rw [TypeSig.targetsList_eq_flatMap, asks_flatMap] at hasks
  exact advances_typeSig hworking (hafter.asks (hasks signature hmem))

/-- A reference to the base body goes to the hidden method; any other one is carried over. -/
theorem advances_methodRef {ref : MethodRef} (hasks : Asks asked now.decls ref.targets) :
    Advances asked start id transformer now context (transformer.methodRef ref)
      fun carried => ComesOut start.world transformer context.hidden (.method ref) (.method carried) := by
  have hjudge (method : MethodRef) {next : Moment} (hafter : now.After next) :
      next.Judges start.world transformer method (transformer.isBase now.world method) :=
    hafter.later.judges ⟨now.world, h.between, rfl⟩
  have hother (hbase : transformer.isBase now.world (generic ref) = false) :
      Advances asked start id transformer now context (do
        (Search.resolveMethodRef SessionTask.resolve
          (← transformer.enter ImporterId.importMethodRef ref) : SessionTask MethodRef))
        fun carried =>
          ComesOut start.world transformer context.hidden (.method ref) (.method carried) := by
    refine Advances.mono h (leads_carry MethodRef.relinks
      (fun _ => ImporterId.quiet_importMethodRef ref)
      (fun hsound hstack imported hasks => leads_resolveMethodRef (finds_resolve asked none) hsound
        hstack (fun _ => nofun) imported hasks.reads) h hasks) ?_
    rintro carried next context' hafter - ⟨hhidden, world, hbetween, himports, hsettles, hcarried⟩
    have hkeeps := hjudge (generic ref) hafter
    rw [hbase] at hkeeps
    exact ⟨false, .other hkeeps
      ⟨world, hbetween, himports, hsettles, congrArg Operand.method hcarried⟩,
      fun hne => absurd hhidden hne⟩
  have hbase (hplain : generic ref = ref) (hbase : transformer.isBase now.world ref = true) :
      Advances asked start id transformer now context (do
        return .definition (← TransplantTask.baseMethod))
        fun carried =>
          ComesOut start.world transformer context.hidden (.method ref) (.method carried) := by
    refine Advances.bind h (advances_baseMethod h) ?_
    intro hidden next context' hafter _ hworking hhidden
    have hjudges := hjudge ref hafter
    rw [hbase] at hjudges
    exact Advances.pure hworking ⟨true, .base hplain hjudges hhidden, fun _ => rfl⟩
  refine Advances.world ?_
  -- Only a generic instance of the base body has arguments that have to be carried over as well.
  cases ref with
  | instantiated method args =>
      dsimp only
      split
      · rename_i hmethod
        refine Advances.bind h (advances_baseMethod h) ?_
        intro hidden next context' hafter _ hworking hhidden
        rw [MethodRef.targets, asks_append] at hasks
        refine Advances.bind hworking (advances_typeSigs hworking (hafter.asks hasks.2)) ?_
        rintro args' last context'' hafter' honward hworking' ⟨-, hargs⟩
        have hjudges := hjudge method (hafter.trans hafter')
        rw [hmethod] at hjudges
        exact Advances.pure hworking'
          ⟨true, .baseInstance hjudges (honward.hidden _ hhidden) hargs, fun _ => rfl⟩
      · exact hother (eq_false_of_ne_true ‹_›)
  | definition | declared | external =>
      dsimp only
      split
      · exact hbase rfl ‹_›
      · exact hother (eq_false_of_ne_true ‹_›)

/-- A raw token is carried over as what it names. -/
theorem advances_token {token : Token} :
    Advances asked start id transformer now context (transformer.token token)
      (ComesOut start.world transformer context.hidden (.token token)) := by
  refine Advances.world ?_
  have hbetween {next : Moment} (hafter : now.After next) := hafter.later.between h.between
  cases hscope : transformer.tokenScope? now.world with
  | none => exact Advances.throw
  | some scope =>
      dsimp only [Option.bind_some]
      cases hlookup : now.world.defs.lookup scope token with
      | none => exact Advances.throw
      | some definition =>
          cases definition with
          | module | property | event => exact Advances.throw
          | type id =>
              refine Advances.bind h (advances_typeRef h (by simp [TypeRef.targets, Asks])) ?_
              rintro carried next context' hafter - hworking
                ⟨hhidden, world, hbetween', himports, hsettles, hcarried⟩
              exact Advances.pure hworking ⟨false, .token (hbetween hafter) hscope hlookup rfl
                (.other trivial ⟨world, hbetween', himports, hsettles,
                  congrArg Operand.type hcarried⟩), fun hne => absurd hhidden hne⟩
          | field id =>
              refine Advances.bind h (advances_fieldRef h (by simp [FieldRef.targets, Asks])) ?_
              rintro carried next context' hafter - hworking
                ⟨hhidden, world, hbetween', himports, hsettles, hcarried⟩
              exact Advances.pure hworking ⟨false, .token (hbetween hafter) hscope hlookup rfl
                (.other trivial ⟨world, hbetween', himports, hsettles,
                  congrArg Operand.field hcarried⟩), fun hne => absurd hhidden hne⟩
          | method id =>
              refine Advances.bind h (advances_methodRef h (by simp [MethodRef.targets, Asks])) ?_
              rintro carried next context' hafter - hworking ⟨call, hcarried, hmade⟩
              exact Advances.pure hworking
                ⟨call, .token (hbetween hafter) hscope hlookup rfl hcarried, hmade⟩

/-- Operands are carried over. -/
theorem advances_operand {operand : Operand} (hasks : Asks asked now.decls operand.targets) :
    Advances asked start id transformer now context (transformer.operand operand)
      (ComesOut start.world transformer context.hidden operand) := by
  cases operand with
  | type ref =>
      refine Advances.bind h (advances_typeRef h hasks) ?_
      rintro carried next context' - - hworking
        ⟨hhidden, world, hbetween, himports, hsettles, hcarried⟩
      exact Advances.pure hworking ⟨false, .other trivial
        ⟨world, hbetween, himports, hsettles, congrArg Operand.type hcarried⟩,
        fun hne => absurd hhidden hne⟩
  | field ref =>
      refine Advances.bind h (advances_fieldRef h hasks) ?_
      rintro carried next context' - - hworking
        ⟨hhidden, world, hbetween, himports, hsettles, hcarried⟩
      exact Advances.pure hworking ⟨false, .other trivial
        ⟨world, hbetween, himports, hsettles, congrArg Operand.field hcarried⟩,
        fun hne => absurd hhidden hne⟩
  | method ref =>
      refine Advances.bind h (advances_methodRef h hasks) ?_
      intro carried next context' _ _ hworking hcarried
      exact Advances.pure hworking hcarried
  | signature value =>
      refine Advances.bind h (advances_callSite h hasks) ?_
      rintro carried next context' - - hworking
        ⟨hhidden, world, hbetween, himports, hsettles, hcarried⟩
      exact Advances.pure hworking ⟨false, .other trivial
        ⟨world, hbetween, himports, hsettles, congrArg Operand.signature hcarried⟩,
        fun hne => absurd hhidden hne⟩
  | token token => exact advances_token h
  | none | immediate | text | target | switch | localVar | argument =>
      exact Advances.pure h ⟨false, .other trivial ⟨now.world, h.between, by simp [Operand.targets],
        by simp [Operand.targets, Operand.relink], rfl⟩, fun hne => absurd rfl hne⟩

/-! ## Bodies -/

/-- Caught types are carried over. -/
theorem advances_handler {handler : Handler}
    (hasks : Asks asked now.decls (handler.catchType.elim [] TypeRef.targets)) :
    Advances asked start id transformer now context (transformer.handler handler)
      fun carried hidden next => hidden = context.hidden ∧
        carried = { handler with catchType := carried.catchType } ∧
          Option.Rel (next.CarriesType start.world transformer) handler.catchType carried.catchType := by
  have hcatch : Advances asked start id transformer now context
      (handler.catchType.mapM transformer.typeRef) fun carried hidden next =>
        hidden = context.hidden ∧
          Option.Rel (next.CarriesType start.world transformer) handler.catchType carried := by
    cases hcatch : handler.catchType with
    | none => exact Advances.pure h ⟨rfl, .none⟩
    | some ref =>
        rw [hcatch] at hasks
        rw [Option.mapM_some, ← bind_pure_comp]
        refine Advances.bind h (advances_typeRef h hasks) ?_
        rintro carried next context' - - hworking ⟨hhidden, hcarried⟩
        exact Advances.pure hworking ⟨hhidden, .some hcarried⟩
  refine Advances.bind h hcatch ?_
  rintro carried next context' - - hworking ⟨hhidden, hcarried⟩
  exact Advances.pure hworking ⟨hhidden, rfl, hcarried⟩

theorem advances_handlers {handlers : List Handler} (hasks : ∀ handler ∈ handlers,
      Asks asked now.decls (handler.catchType.elim [] TypeRef.targets)) :
    Advances asked start id transformer now context (handlers.mapM transformer.handler)
      fun carried hidden next => hidden = context.hidden ∧ List.Forall₂ (fun handler handler' =>
        handler' = { handler with catchType := handler'.catchType } ∧
          Option.Rel (next.CarriesType start.world transformer) handler.catchType handler'.catchType)
        handlers carried := by
  refine Advances.mapM_apart (fun _ _ {_ _} hafter =>
    And.imp_right (hafter.later.carriesCatch hafter.answers)) h ?_
  exact fun handler hmem next context' hafter hworking =>
    advances_handler hworking (hafter.asks (hasks handler hmem))

/-- Instructions keep their opcodes. -/
theorem advances_instruction {instruction : Instruction}
    (hasks : Asks asked now.decls instruction.operand.targets) :
    Advances asked start id transformer now context (transformer.instruction instruction)
      fun carried hidden next => carried.opcode = instruction.opcode ∧
        ComesOut start.world transformer context.hidden instruction.operand carried.operand hidden
          next := by
  refine Advances.bind h (advances_operand h hasks) ?_
  intro carried next context' _ _ hworking hcarried
  exact Advances.pure hworking ⟨rfl, hcarried⟩

theorem advances_code {code : List Instruction}
    (hasks : ∀ instruction ∈ code, Asks asked now.decls instruction.operand.targets) :
    Advances asked start id transformer now context (code.mapM transformer.instruction)
      fun carried hidden next =>
        List.Forall₂ (fun instruction instruction' => instruction'.opcode = instruction.opcode ∧
          ∃ call, next.Carried start.world transformer hidden call instruction.operand
            instruction'.operand) code carried ∧
        (hidden ≠ context.hidden → ∃ instruction ∈ code, ∃ carried : Instruction,
          next.Carried start.world transformer hidden true instruction.operand carried.operand) := by
  refine Advances.mapM (fun _ _ {_ _ _ _} hafter honward => ⟨?_, ?_⟩) h ?_
  · rintro ⟨hopcode, call, hcarried⟩
    exact ⟨hopcode, call, hcarried.mono hafter.later hafter.answers honward.hidden⟩
  · exact fun hcarried => hcarried.mono hafter.later hafter.answers honward.hidden
  · intro instruction hmem next context' hafter hworking
    refine Advances.mono hworking
      (advances_instruction hworking (hafter.asks (hasks instruction hmem))) ?_
    rintro carried last context'' - - ⟨hopcode, call, hcarried, hmade⟩
    exact ⟨⟨hopcode, call, hcarried⟩, fun hne => hmade hne ▸ hcarried⟩

/-- The whole body is carried over. -/
theorem advances_body {body : Body} (hnone : context.hidden = none)
    (hasks : Asks asked now.decls body.targets) :
    Advances asked start id transformer now context (transformer.body body)
      fun carried hidden next => next.CarriedBody start.world transformer hidden body carried := by
  simp only [Body.targets, asks_append, asks_flatMap] at hasks
  obtain ⟨⟨hcode, hlocals⟩, hhandlers⟩ := hasks
  refine Advances.bind h (advances_code h hcode) ?_
  rintro code next context' hafter - hworking ⟨hcarried, hmade⟩
  refine Advances.bind hworking (advances_typeSigs hworking (hafter.asks hlocals)) ?_
  rintro locals next₂ context₂ hafter₂ honward₂ hworking₂ ⟨hhidden₂, hlocals'⟩
  refine Advances.bind hworking₂ (advances_handlers hworking₂ fun handler hmem =>
    (hafter.trans hafter₂).asks (hhandlers handler hmem)) ?_
  rintro handlers last context₃ hafter₃ honward₃ hworking₃ ⟨hhidden₃, hhandlers'⟩
  have hsame : context₃.hidden = context'.hidden := hhidden₃.trans hhidden₂
  have hstays {call : Bool} {operand operand' : Operand}
      (hoperand : next.Carried start.world transformer context'.hidden call operand operand') :
      last.Carried start.world transformer context₃.hidden call operand operand' :=
    hoperand.mono (hafter₂.trans hafter₃).later (hafter₂.trans hafter₃).answers
      (honward₂.trans honward₃).hidden
  refine Advances.pure hworking₃ ⟨rfl, rfl, ?_, ?_, ?_, ?_, hhandlers'⟩
  · exact hlocals'.imp fun _ _ hcarries =>
      hafter₃.later.carries hafter₃.answers TypeSig.relinks hcarries
  · exact (layOut_layOut 0 code).symm
  · refine forall₂_layOut (P := fun opcode operand opcode' operand' => opcode' = opcode ∧
      ∃ call, last.Carried start.world transformer context₃.hidden call operand operand') ?_
    refine hcarried.imp ?_
    rintro _ _ ⟨hopcode, call, hoperand⟩
    exact ⟨hopcode, call, hstays hoperand⟩
  · intro method hmethod
    obtain ⟨instruction, hmem, carried, hcalled⟩ := hmade (by rw [hnone, ← hsame, hmethod]; simp)
    exact ⟨instruction, hmem, carried.operand, hstays hcalled⟩

end References

end Graft.Moment
