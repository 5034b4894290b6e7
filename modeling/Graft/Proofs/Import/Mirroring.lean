import Graft.Proofs.Import.Detailing

/-!
# Imported patches mirror their patch modules

A patch that is imported holds the modules that its manifest requires, and in them exactly what the
manifest maps (`importPatch_mirrors`): each mapped definition stands for a declaration in the place,
under the name and with the policy that the manifest gives it, and every declaration is what some
definition stands for. Definitions are known by their tokens, so the patch module has to be tidy:
otherwise another module's method may be taken for an accessor (`accessor_mistaken`).
-/

namespace Graft

namespace Patch

variable (patch : Patch) (manifest : Manifest) (defs : Definitions) (module : DefId .module)
  (decls : Declarations) (items : List Counterpart)

/-- Where a definition of a patch module is declared: a top-level type in its target module, and
anything else in what the type around it stands for. -/
inductive Places : Definition → Declaration → Prop
  | top {id : DefId .type} {name : String} {target : DeclId .module}
      (hmem : id ∈ (defs.module module).types)
      (hname : manifest.targetModule? (defs.token (.type id)) = some name)
      (htarget : target ∈ patch.modules) (hmodule : (decls.module target).name = name) :
      Places (.type id) (.module target)
  | inside {owner : DefId .type} {definition : Definition} {around : Counterpart}
      (haround : around ∈ items) (hdefinition : around.definition = .type owner)
      (hmem : definition ∈ defs.members (.type owner) definition.kind) :
      Places definition around.declaration

/-- Whether a patch holds what a patch module and its manifest declare, where `items` lists what is
mapped to what. -/
structure Mirrors : Prop where
  modules : (patch.modules.map fun id => (decls.module id).name).Nodup
  required : ∀ name readOnly, (name, readOnly) ∈ manifest.required ↔ ∃ id ∈ patch.modules,
    (decls.module id).name = name ∧ (decls.module id).terms = ⟨.failIfMissing, readOnly⟩
  mapped : ∀ definition intent, (∃ item ∈ items, item.view = (definition, intent)) ↔
    manifest.Maps defs module definition intent
  once : (items.map (·.definition)).Nodup
  nodes : ∀ node, (∃ item ∈ items, item.declaration = node) ↔
    node.kind ≠ .module ∧ ∃ id ∈ patch.modules, decls.Below (.module id) node
  kinds : ∀ item ∈ items, item.declaration.kind = item.definition.kind
  placed : ∀ item ∈ items, ∃ holder,
    patch.Places manifest defs module decls items item.definition holder ∧
      item.declaration ∈ decls.members holder item.definition.kind
  named : ∀ item ∈ items, decls.Named (manifest.nameIn defs item.definition).1
    (manifest.nameIn defs item.definition).2 item.declaration
  policies : ∀ item ∈ items, (decls.terms item.declaration).policy = item.intent.policy
  readOnly : ∀ id ∈ patch.modules, ∀ node, decls.Below (.module id) node →
    (decls.terms node).readOnly = (decls.module id).terms.readOnly
  bodies : ∀ item ∈ items, ∀ id, item.declaration = .method id →
    ((decls.method id).body.isSome = true ↔ ∃ other ∈ items, ∃ method,
      other.declaration = .method id ∧ other.definition = .method method ∧
        (defs.method method).body.isSome = true ∧ other.intent ≠ .dependency)
  accessors : ∀ owner ∈ items, ∀ item ∈ items, ∀ role method, item.definition = .method method →
    (role, method) ∈ defs.accessors owner.definition → ∃ id, item.declaration = .method id ∧
      (role, id) ∈ decls.accessors owner.declaration

end Patch

namespace Manifest

variable {manifest : Manifest} {defs : Definitions} {module : DefId .module} {definition : Definition}
  {intent : Intent} {id outer : DefId .type}

/-- What is mapped belongs to the patch module. -/
theorem Maps.within (h : manifest.Maps defs module definition intent) :
    defs.Below (.module module) definition := by
  cases h with
  | type hmeans => exact hmeans.within
  | member howner _ hmem => exact .member howner.within hmem

/-- No module is mapped to anything. -/
theorem Maps.kind_ne_module (h : manifest.Maps defs module definition intent) :
    definition.kind ≠ .module := by
  cases h with
  | type => exact nofun
  | member _ _ hmem =>
      intro hkind
      rw [← Definitions.kind_of_mem_members hmem, hkind] at hmem
      cases hmem

/-- What is mapped exists. -/
theorem Maps.has (h : manifest.Maps defs module definition intent) (htidy : defs.Tidy module) :
    defs.has definition = true := by
  cases h with
  | @type id _ hmeans =>
      generalize hintent : some intent = meant at hmeans
      cases hmeans with
      | top hmem => exact htidy.has .top (Definitions.type_mem_module.mpr hmem)
      | inside hmeans hmem => exact htidy.has hmeans.within hmem
  | member howner _ hmem => exact htidy.has howner.within hmem

/-- A mapped type that is in no other type is listed by the patch module. -/
theorem Maps.listed_top (h : manifest.Maps defs module (.type id) intent) (htidy : defs.Tidy module)
    (houter : defs.outer? id = none) : id ∈ (defs.module module).types := by
  cases h with
  | type hmeans =>
      generalize hintent : some intent = meant at hmeans
      cases hmeans with
      | top hmem => exact hmem
      | inside hmeans hmem =>
          rw [htidy.outer?_nested hmeans.within hmem] at houter
          cases houter
  | member _ hkind hmem => exact absurd (Definitions.kind_of_mem_members hmem).symm hkind

/-- A mapped type that is in another type is listed by it. -/
theorem Maps.listed_nested (h : manifest.Maps defs module (.type id) intent)
    (htidy : defs.Tidy module) (houter : defs.outer? id = some outer) :
    defs.Below (.module module) (.type outer) ∧ .type id ∈ defs.members (.type outer) .type := by
  cases h with
  | type hmeans =>
      generalize hintent : some intent = meant at hmeans
      cases hmeans with
      | top hmem =>
          rw [htidy.outer?_top hmem] at houter
          cases houter
      | inside hmeans hmem =>
          have hkind := Definitions.kind_of_mem_members hmem
          rw [htidy.outer?_nested hmeans.within hmem] at houter
          cases houter
          cases hkind
          exact ⟨hmeans.within, hmem⟩
  | member _ hkind hmem => exact absurd (Definitions.kind_of_mem_members hmem).symm hkind

end Manifest

namespace ImportJob

variable {job : ImportJob} {world typed declared next : World} {patch : Patch}
  {types : List (Imported .type)} {members : Members} {definition : Definition} {intent : Intent}

/-- The members of a type that have an intent. -/
theorem mem_membersIn {defs : Definitions} {type : Imported .type} :
    (definition, intent) ∈ job.membersIn defs type ↔
      ∃ kind ∈ [SymbolKind.field, .method, .property, .event],
        definition ∈ defs.members (.type type.definition) kind ∧
          job.manifest.intentOf (defs.token definition) (some type.intent) = some intent := by
  simp only [membersIn, mappedIn, List.mem_flatMap, List.mem_filterMap, Option.map_eq_some_iff,
    Prod.mk.injEq]
  grind

/-- The members of a type of a tidy module are different ones. -/
theorem nodup_membersIn {defs : Definitions} {type : Imported .type} (htidy : defs.Tidy job.module)
    (hbelow : defs.Below (.module job.module) (.type type.definition)) :
    (job.membersIn defs type).Pairwise (·.1 ≠ ·.1) := by
  have hkinds : [SymbolKind.field, .method, .property, .event].Pairwise (· ≠ ·) := by decide
  rw [membersIn, List.pairwise_flatMap]
  refine ⟨fun kind _ => ?_, hkinds.imp fun {left right} hne => ?_⟩
  · have hnodup : List.Pairwise (· ≠ ·) (defs.members (.type type.definition) kind) :=
      htidy.nodup _ kind hbelow
    refine hnodup.filterMap _ fun left right hne first hfirst second hsecond => ?_
    obtain ⟨_, -, rfl⟩ := Option.map_eq_some_iff.mp hfirst
    obtain ⟨_, -, rfl⟩ := Option.map_eq_some_iff.mp hsecond
    exact hne
  · rintro ⟨definition, intent⟩ hmem ⟨definition', intent'⟩ hmem' rfl
    simp only [mappedIn, List.mem_filterMap, Option.map_eq_some_iff, Prod.mk.injEq] at hmem hmem'
    obtain ⟨_, hmem, _, -, rfl, -⟩ := hmem
    obtain ⟨_, hmem', _, -, rfl, -⟩ := hmem'
    exact hne ((Definitions.kind_of_mem_members hmem).symm.trans (Definitions.kind_of_mem_members hmem'))

section Ended

variable (h : job.Ended world patch types members typed declared next)

include h

/-- Everything that has been mapped in the end. -/
theorem Ended.mapped : job.Mapped world.defs patch.modules
    (fun item => item ∈ types.map (·.counterpart .type .type) ++ members.counterparts)
    next.decls := by
  have hmapped := h.joined.progress.mapped.keeps h.detailed.decls.keeps
    fun holder kind node hmem => h.detailed.decls.members holder kind ▸ hmem
  exact hmapped.congr fun item => by rw [List.mem_append]

theorem Ended.required :
    Declarations.Required job.manifest.required patch.modules job.targets next.decls :=
  h.joined.progress.required.keeps h.detailed.decls.keeps
    h.joined.progress.mapped.living

section Tidy

variable (htidy : world.defs.Tidy job.module)

include htidy

/-- The types that are mapped are those with an intent. -/
theorem Ended.mem_types {id : DefId .type} :
    (∃ type ∈ types, type.definition = id ∧ type.intent = intent) ↔
      job.manifest.Means world.defs job.module (.type id) (some intent) := by
  have hviews : (id, intent) ∈ types.map (fun type => (type.definition, type.intent)) ↔
      ∃ type ∈ types, type.definition = id ∧ type.intent = intent := by simp
  rw [← hviews, h.views, mem_typesToDeclare htidy, List.mem_filterMap]
  simp only [Prod.exists, Option.map_eq_some_iff, Prod.mk.injEq]
  grind

/-- What is mapped are the types with an intent, and the members of them that have one. -/
theorem Ended.maps : (∃ item ∈ types.map (·.counterpart .type .type) ++ members.counterparts,
    item.view = (definition, intent)) ↔
      job.manifest.Maps world.defs job.module definition intent := by
  have hviews : (∃ item ∈ members.counterparts, item.view = (definition, intent)) ↔
      ∃ type ∈ types, (definition, intent) ∈ job.membersIn world.defs type := by
    rw [← List.mem_map, h.listed.mem_iff, List.mem_flatMap]
  constructor
  · rintro ⟨item, hmem, hview⟩
    obtain hmem | hmem := List.mem_append.mp hmem
    · obtain ⟨type, htype, rfl⟩ := List.mem_map.mp hmem
      cases hview
      exact .type ((h.mem_types htidy).mp ⟨type, htype, rfl, rfl⟩)
    · obtain ⟨type, htype, hmem⟩ := hviews.mp ⟨item, hmem, hview⟩
      obtain ⟨kind, hkind, hmem, hintent⟩ := mem_membersIn.mp hmem
      have hne : kind ≠ .type := by
        rintro rfl
        simp at hkind
      exact .member ((h.mem_types htidy).mp ⟨type, htype, rfl, rfl⟩) hne hmem hintent
  · rintro (⟨hmeans⟩ | @⟨owner, outer, _, _, kind, howner, hkind, hmem, hintent⟩)
    · obtain ⟨type, htype, rfl, rfl⟩ := (h.mem_types htidy).mpr hmeans
      exact ⟨_, List.mem_append_left _ (List.mem_map_of_mem htype), rfl⟩
    · obtain ⟨type, htype, rfl, rfl⟩ := (h.mem_types htidy).mpr howner
      have hmember : kind ∈ [SymbolKind.field, .method, .property, .event] := by
        cases kind <;> simp_all [Definitions.members]
      obtain ⟨item, hitem, hview⟩ :=
        hviews.mpr ⟨type, htype, mem_membersIn.mpr ⟨kind, hmember, hmem, hintent⟩⟩
      exact ⟨item, List.mem_append_right _ hitem, hview⟩

/-- The types that are mapped are different ones. -/
theorem Ended.nodup_types : (types.map (·.definition)).Nodup := by
  have hnodup := job.map_typesToDeclare world.defs ▸ htidy.nests.nodup_allTypes htidy.listsOnce
  have hviews : types.map (·.definition) =
      (types.map fun type => (type.definition, type.intent)).map Prod.fst := by simp
  rw [hviews, h.views]
  rw [List.Nodup, List.pairwise_map] at hnodup ⊢
  refine hnodup.filterMap _ fun left right hne first hfirst second hsecond => ?_
  obtain ⟨_, -, rfl⟩ := Option.map_eq_some_iff.mp hfirst
  obtain ⟨_, -, rfl⟩ := Option.map_eq_some_iff.mp hsecond
  exact hne

/-- The types that are mapped belong to the patch module. -/
theorem Ended.below_types {type : Imported .type} (hmem : type ∈ types) :
    world.defs.Below (.module job.module) (.type type.definition) :=
  ((h.mem_types htidy).mp ⟨type, hmem, rfl, rfl⟩).within

/-- The members that are mapped are different ones. -/
theorem Ended.nodup_members : (members.counterparts.map (·.definition)).Nodup := by
  have hviews : members.counterparts.map (·.definition) =
      (members.counterparts.map Counterpart.view).map Prod.fst := by
    simp [Counterpart.view]
  rw [hviews, (h.listed.map _).nodup_iff, List.Nodup, List.pairwise_map, List.pairwise_flatMap]
  refine ⟨fun type htype => nodup_membersIn htidy (h.below_types htidy htype), ?_⟩
  have htypes := List.pairwise_map.mp (h.nodup_types htidy)
  refine htypes.imp_of_mem fun {left right} hleft hright hne => ?_
  rintro ⟨definition, intent⟩ hmem ⟨definition', intent'⟩ hmem' rfl
  obtain ⟨_, -, hmem, -⟩ := mem_membersIn.mp hmem
  obtain ⟨_, -, hmem', -⟩ := mem_membersIn.mp hmem'
  -- A member is listed in one type only.
  have hholder := htidy.holder_eq (h.below_types htidy hleft) (h.below_types htidy hright) hmem hmem'
  exact hne (Definition.type.inj hholder)

/-- No definition is mapped twice. -/
theorem Ended.once :
    ((types.map (·.counterpart .type .type) ++ members.counterparts).map (·.definition)).Nodup := by
  rw [List.map_append, List.nodup_append]
  refine ⟨?_, h.nodup_members htidy, ?_⟩
  · have hnodup := (h.nodup_types htidy).map fun (left right : DefId .type) (heq :
        Definition.type left = .type right) => Definition.type.inj heq
    simpa [Function.comp_def, Imported.counterpart] using hnodup
  · rintro _ htype _ hmember rfl
    simp only [List.map_map, List.mem_map, Function.comp_apply, Imported.counterpart] at htype
    obtain ⟨type, -, htype⟩ := htype
    obtain ⟨item, hitem, hdefinition⟩ := List.mem_map.mp hmember
    have hview : item.view ∈ types.flatMap (job.membersIn world.defs) :=
      h.listed.mem_iff.mp (List.mem_map_of_mem hitem)
    obtain ⟨owner, -, hmem⟩ := List.mem_flatMap.mp hview
    obtain ⟨kind, hkind, hmem, -⟩ := mem_membersIn.mp hmem
    have hitemKind := Definitions.kind_of_mem_members hmem
    rw [hdefinition, ← htype] at hitemKind
    simp [← hitemKind, Definition.kind] at hkind

/-- What is mapped is declared where it should be. -/
theorem Ended.places {item : Counterpart} {holder : Declaration}
    (hitem : item ∈ types.map (·.counterpart .type .type) ++ members.counterparts)
    (hlands : job.Lands world.defs
      (fun item => item ∈ types.map (·.counterpart .type .type) ++ members.counterparts)
      item.definition holder) :
    patch.Places job.manifest world.defs job.module next.decls
      (types.map (·.counterpart .type .type) ++ members.counterparts) item.definition holder := by
  have hmaps := (h.maps htidy).mp ⟨item, hitem, rfl⟩
  generalize hdefinition : item.definition = definition at hlands hmaps ⊢
  cases hlands with
  | top houter hname htarget =>
      obtain ⟨hmem, hmodule⟩ := h.required.targets _ _ htarget
      exact .top (hmaps.listed_top htidy houter) hname hmem hmodule
  | @nested id outer around landing houter hlanding haround htoken =>
      obtain ⟨hbelow, hmem⟩ := hmaps.listed_nested htidy houter
      have hmapsAround := (h.maps htidy).mp ⟨landing, hlanding, rfl⟩
      rw [haround] at hmapsAround
      have heq := htidy.tokens _ _ hmapsAround.within hbelow rfl htoken
      exact .inside hlanding haround (heq ▸ hmem)
  | member _ hlanding hlandingDefinition hmem => exact .inside hlanding hlandingDefinition hmem

/-- The method that a mapped method stands for is the one that the importer knows it by. -/
theorem Ended.bound_method {item : Counterpart} {method : DefId .method}
    (hitem : item ∈ types.map (·.counterpart .type .type) ++ members.counterparts)
    (hdefinition : item.definition = .method method) : ∃ id, item.declaration = .method id ∧
      (declared.importer job.importer).methods.get? (world.defs.token (.method method)) = some id := by
  have hbinds := h.joined.progress.binds
  have hmapped : ∀ item, item ∈ types.map (·.counterpart .type .type) ++ members.counterparts ↔
      item ∈ types.map (·.counterpart .type .type) ∨ item ∈ members.counterparts := fun _ =>
    List.mem_append
  obtain ⟨id, hid⟩ := Option.isSome_iff_exists.mp
    (hbinds.bound item method ((hmapped item).mp hitem) hdefinition)
  obtain ⟨other, found, hother, hfound, htoken, hdeclaration⟩ := hbinds.methods _ _ hid
  have hmaps := (h.maps htidy).mp ⟨item, hitem, rfl⟩
  have hmapsOther := (h.maps htidy).mp ⟨other, (hmapped other).mpr hother, rfl⟩
  rw [hdefinition] at hmaps
  rw [hfound] at hmapsOther
  have hsame := htidy.tokens _ _ hmapsOther.within hmaps.within rfl htoken
  have heq : other = item := List.inj_on_of_nodup_map (h.once htidy) ((hmapped other).mpr hother) hitem
    (by rw [hfound, hsame, hdefinition])
  exact ⟨id, heq ▸ hdeclaration, hid⟩

/-- A mapped accessor of a mapped property or event is declared as one. -/
theorem Ended.accessors {owner item : Counterpart} {role : AccessorRole} {method : DefId .method}
    (howner : owner ∈ types.map (·.counterpart .type .type) ++ members.counterparts)
    (hitem : item ∈ types.map (·.counterpart .type .type) ++ members.counterparts)
    (hdefinition : item.definition = .method method)
    (hlinked : (role, method) ∈ world.defs.accessors owner.definition) :
    ∃ id, item.declaration = .method id ∧ (role, id) ∈ next.decls.accessors owner.declaration := by
  obtain ⟨id, hdeclaration, hbound⟩ := h.bound_method htidy hitem hdefinition
  have hmaps := (h.maps htidy).mp ⟨item, hitem, rfl⟩
  rw [hdefinition] at hmaps
  have hhas : world.defs.has (.method method) = true := hmaps.has htidy
  have hdeclared (accessors : Accessors) (hmem : (role, method) ∈ accessors) :
      (role, id) ∈ job.declaredAccessors declared accessors := by
    have hdefs := h.joined.progress.unchanged
    refine List.mem_filterMap.mpr ⟨(role, method), ?_, by simp [hdefs, hbound]⟩
    exact List.mem_filter.mpr ⟨hmem, hdefs ▸ hhas⟩
  refine ⟨id, hdeclaration, ?_⟩
  have hdefs := h.joined.progress.unchanged
  obtain howner | howner := List.mem_append.mp howner
  · obtain ⟨type, -, rfl⟩ := List.mem_map.mp howner
    cases hlinked
  · obtain ⟨_, -, rfl⟩ | ⟨_, -, rfl⟩ | ⟨property, hmem, rfl⟩ | ⟨event, hmem, rfl⟩ :=
      Members.mem_counterparts.mp howner
    · cases hlinked
    · cases hlinked
    · exact h.detailed.properties property hmem (hdeclared _ (hdefs ▸ hlinked))
    · exact h.detailed.events event hmem (hdeclared _ (hdefs ▸ hlinked))

end Tidy

/-- A method has a body if one of those that are mapped to it hands its own on. -/
theorem Ended.bodies {item : Counterpart} {id : DeclId .method}
    (hitem : item ∈ types.map (·.counterpart .type .type) ++ members.counterparts)
    (hdeclaration : item.declaration = .method id) :
    (next.decls.method id).body.isSome = true ↔
      ∃ other ∈ types.map (·.counterpart .type .type) ++ members.counterparts, ∃ method,
        other.declaration = .method id ∧ other.definition = .method method ∧
          (world.defs.method method).body.isSome = true ∧ other.intent ≠ .dependency := by
  have hprogress := h.joined.progress
  have hbare : (declared.decls.method id).body = none :=
    hprogress.bare item id (List.mem_append.mp hitem) hdeclaration
  rw [h.detailed.bodies, hbare, hprogress.unchanged]
  simp only [Option.isSome_none, Bool.false_eq_true, false_or]
  constructor
  · rintro ⟨method, hmem, rfl, hcarries⟩
    refine ⟨method.counterpart .method .method, List.mem_append_right _ ?_, method.definition, rfl,
      rfl, ?_⟩
    · exact Members.mem_counterparts.mpr (.inr (.inl ⟨method, hmem, rfl⟩))
    · simpa [Imported.carriesBody, Intent.carriesBody, Imported.counterpart] using hcarries
  · rintro ⟨other, hother, method, hdeclared, hdefinition, hbody, hintent⟩
    obtain hother | hother := List.mem_append.mp hother
    · obtain ⟨type, -, rfl⟩ := List.mem_map.mp hother
      cases hdefinition
    · obtain ⟨_, -, rfl⟩ | ⟨found, hmem, rfl⟩ | ⟨_, -, rfl⟩ | ⟨_, -, rfl⟩ :=
        Members.mem_counterparts.mp hother
      · cases hdefinition
      · cases hdefinition
        refine ⟨found, hmem, (Declaration.method.inj hdeclared).symm, ?_⟩
        have hcarries : found.intent ≠ .dependency := hintent
        simp [Imported.carriesBody, Intent.carriesBody, hbody, hcarries]
      · cases hdefinition
      · cases hdefinition

end Ended

end ImportJob

variable {world next : World} {module : DefId .module} {manifest : Manifest} {patch : Patch}

/-- A patch that is imported from a tidy patch module mirrors it: there are the required modules,
and in them exactly the declarations that mapped definitions stand for. -/
theorem importPatch_mirrors (htidy : world.defs.Tidy module)
    (hon : (Task.importPatch module manifest).on world = (.ok patch, next)) :
    ∃ items, (Task.importItems module manifest).on world = (.ok (patch, items), next) ∧
      patch.Mirrors manifest world.defs module next.decls items := by
  obtain ⟨items, hitems⟩ := Task.importItems_ok hon
  obtain ⟨job, types, members, typed, declared, rfl, rfl, rfl, h⟩ := Task.importItems_ended hitems
  have hmapped := h.mapped
  have hitemKind (item : Counterpart)
      (hmem : item ∈ types.map (·.counterpart .type .type) ++ members.counterparts) :
      item.declaration.kind ≠ .module := by
    rw [hmapped.kinds item hmem]
    exact ((h.maps htidy).mp ⟨item, hmem, rfl⟩).kind_ne_module
  refine ⟨_, hitems,
    { modules := h.required.nodup
      required := h.required.required
      mapped := fun definition intent => h.maps htidy
      once := h.once htidy
      nodes := fun node => ⟨?_, ?_⟩
      kinds := hmapped.kinds
      placed := fun item hmem => ?_
      named := hmapped.named
      policies := hmapped.policies
      readOnly := fun id hmem node hbelow => ?_
      bodies := fun item hmem id => h.bodies hmem
      accessors := fun owner howner item hmem role method => h.accessors htidy howner hmem }⟩
  · rintro ⟨item, hmem, rfl⟩
    exact ⟨hitemKind item hmem, hmapped.within item hmem⟩
  · rintro ⟨hkind, id, hmem, hbelow⟩
    obtain ⟨_, -, rfl⟩ | hitem := hmapped.holds_below hmem hbelow
    · exact absurd rfl hkind
    · exact hitem
  · obtain ⟨holder, -, hlands, hlisted⟩ := hmapped.lands item hmem
    exact ⟨holder, h.places htidy hmem hlands, hlisted⟩
  · induction hbelow with
    | top => rfl
    | member hholder hnode ih =>
        rw [(hmapped.only _ _ _ (hmapped.holds_below hmem hholder) hnode).2.2, ih]

/-- A patch module with a type that has a property with a getter, and a type nested in it. -/
def World.panel : World :=
  let (mod, defs) := ({} : Definitions).makeModule { name := "Mod" }
  let (panel, defs) := defs.addType mod { namespaceName := "Ui", name := "Panel", flags := 1 }
  let (level, defs) := defs.addMethod panel
    { name := "get_Level"
      flags := 6
      signature := ⟨0x20, 0, .primitive .int32, [], []⟩
      body := some {} }
  let (_, defs) := defs.addMethod panel
    { name := "Hide", flags := 6, signature := ⟨0x20, 0, .primitive .void, [], []⟩ }
  let (_, defs) := defs.addProperty panel
    { name := "Level"
      flags := 0
      signature := ⟨true, .primitive .int32, []⟩
      accessors := [(.getter, level)] }
  let (dial, defs) := defs.addNested panel { name := "Dial", flags := 2 }
  let (_, defs) := defs.addField dial { name := "Angle", flags := 6, signature := .primitive .int32 }
  { defs }

/-- The manifest by which the property and its getter stand for those of a type of another name, and
the nested type is added with all its members where it is missing. -/
def Manifest.panel : Manifest where
  required := [("Game", false)]
  mappings := ⟨[
    (.ofParts .typeDef 1, { intent := .mixin, targetName := some "Game.Ui.Screen" }),
    (.ofParts .typeDef 2, { intent := .generated }),
    (.ofParts .methodDef 1, { intent := .mixin }),
    (.ofParts .property 1, { intent := .dependency })]⟩

theorem World.tidy_panel : World.panel.defs.Tidy ⟨0⟩ :=
  Definitions.tidy_of_closed [.module ⟨0⟩, .type ⟨0⟩, .type ⟨1⟩, .field ⟨0⟩, .method ⟨0⟩, .method ⟨1⟩,
      .property ⟨0⟩]
    (by decide) (by decide +kernel) (by decide +kernel) (by decide +kernel) (by decide +kernel)

theorem importPatch_mirrors_panel :
    ∃ patch items imported, World.panel.defs.Tidy ⟨0⟩ ∧
      (Task.importPatch ⟨0⟩ .panel).on .panel = (.ok patch, imported) ∧
      items.map Counterpart.view =
        [(.type ⟨0⟩, .mixin), (.type ⟨1⟩, .generated), (.field ⟨0⟩, .generated),
          (.method ⟨0⟩, .mixin), (.property ⟨0⟩, .dependency)] ∧
      patch.Mirrors .panel World.panel.defs ⟨0⟩ imported.decls items := by
  have himported : ((Task.importPatch ⟨0⟩ .panel).on .panel).1 =
      .ok { name := "Mod", modules := [⟨0⟩] } := by
    decide +kernel
  have hitems : ((Task.importItems ⟨0⟩ .panel).on .panel).1 =
      .ok ({ name := "Mod", modules := [⟨0⟩] },
        [⟨.type ⟨0⟩, .mixin, .type ⟨0⟩⟩, ⟨.type ⟨1⟩, .generated, .type ⟨1⟩⟩,
          ⟨.field ⟨0⟩, .generated, .field ⟨0⟩⟩, ⟨.method ⟨0⟩, .mixin, .method ⟨0⟩⟩,
          ⟨.property ⟨0⟩, .dependency, .property ⟨0⟩⟩]) := by
    decide +kernel
  cases himport : (Task.importPatch ⟨0⟩ .panel).on .panel with
  | mk outcome imported =>
      rw [himport] at himported
      cases himported
      obtain ⟨items, hon, hmirrors⟩ := importPatch_mirrors World.tidy_panel himport
      rw [hon] at hitems
      cases hitems
      exact ⟨_, _, imported, World.tidy_panel, rfl, rfl, hmirrors⟩

/-- A patch module with a property and its getter that has also taken in a type of another module.
The method of that type has the token of the getter. -/
def World.overlap : World :=
  let signature : MethodSig := ⟨0x20, 0, .primitive .int32, [], []⟩
  let (tools, defs) := ({} : Definitions).makeModule { name := "Tools" }
  let (gauge, defs) := defs.addType tools { namespaceName := "Ui", name := "Gauge", flags := 1 }
  let (_, defs) := defs.addMethod gauge { name := "Read", flags := 6, signature }
  let (mod, defs) := defs.makeModule { name := "Mod" }
  let (panel, defs) := defs.addType mod { namespaceName := "Ui", name := "Panel", flags := 1 }
  let (level, defs) := defs.addMethod panel { name := "get_Level", flags := 6, signature }
  let (_, defs) := defs.addProperty panel
    { name := "Level"
      flags := 0
      signature := ⟨true, .primitive .int32, []⟩
      accessors := [(.getter, level)] }
  let defs := defs.enterType mod gauge
  { defs := defs.updateModule mod fun record => { record with types := record.types ++ [gauge] } }

/-- The manifest by which types, methods and properties with the first tokens exist already. -/
def Manifest.overlap : Manifest where
  required := [("Game", false)]
  mappings := ⟨[
    (.ofParts .typeDef 1, { intent := .mixin }),
    (.ofParts .methodDef 1, { intent := .mixin }),
    (.ofParts .property 1, { intent := .mixin })]⟩

/-- A method of another module may be declared as the accessor of a property, instead of the mapped
method that is its accessor. -/
theorem accessor_mistaken :
    ¬ ∀ world next module manifest patch, world.defs.Held →
      (Task.importPatch module manifest).on world = (.ok patch, next) →
      ∃ items, (Task.importItems module manifest).on world = (.ok (patch, items), next) ∧
        patch.Mirrors manifest world.defs module next.decls items := by
  intro h
  have himported : ((Task.importPatch ⟨1⟩ .overlap).on .overlap).1 =
      .ok { name := "Mod", modules := [⟨0⟩] } := by
    decide +kernel
  have hitems : ((Task.importItems ⟨1⟩ .overlap).on .overlap).1 =
      .ok ({ name := "Mod", modules := [⟨0⟩] },
        [⟨.type ⟨1⟩, .mixin, .type ⟨0⟩⟩, ⟨.type ⟨0⟩, .mixin, .type ⟨1⟩⟩,
          ⟨.method ⟨1⟩, .mixin, .method ⟨0⟩⟩, ⟨.method ⟨0⟩, .mixin, .method ⟨1⟩⟩,
          ⟨.property ⟨0⟩, .mixin, .property ⟨0⟩⟩]) := by
    decide +kernel
  have haccessors : ((Task.importPatch ⟨1⟩ .overlap).on .overlap).2.decls.accessors (.property ⟨0⟩) =
      [(.getter, ⟨1⟩)] := by
    decide +kernel
  cases himport : (Task.importPatch ⟨1⟩ .overlap).on .overlap with
  | mk outcome imported =>
      rw [himport] at himported haccessors
      cases himported
      obtain ⟨items, hon, hmirrors⟩ := h _ _ _ _ _ (by decide +kernel) himport
      rw [hon] at hitems
      cases hitems
      obtain ⟨id, hid, hmem⟩ := hmirrors.accessors ⟨.property ⟨0⟩, .mixin, .property ⟨0⟩⟩ (by simp)
        ⟨.method ⟨1⟩, .mixin, .method ⟨0⟩⟩ (by simp) .getter ⟨1⟩ rfl (by decide +kernel)
      cases hid
      simp [haccessors] at hmem

end Graft
