import Graft.Proofs.Import.Declaring
import Graft.Proofs.Import.Visiting

/-!
# Importing a patch module

The declarations that a patch module is turned into: all of them are new, none refers to anything
of the patch module, and none leads to a declaration that is neither new nor lent
(`importPatch_ok`). The declarations that are lent are those that the patch module refers to itself;
such references are left as they are.
-/

namespace Graft

/-- A top-level type lands in a module that is required. -/
theorem ImportJob.targetModule_ok {job : ImportJob} {world : World} {id : DefId .type}
    {module : DeclId .module} (h : job.targetModule world id = .ok module) :
    ∃ name, job.targets.get? name = some module := by
  unfold targetModule at h
  dsimp only at h
  generalize Option.or _ _ = name? at h
  cases name? with
  | none => cases h
  | some name =>
      dsimp only at h
      split at h
      · rename_i found hfound
        cases h
        exact ⟨name, hfound⟩
      · cases h

namespace ImportSetting

variable (setting : ImportSetting)

/-- Whether a definition is in the patch module. -/
def Listed (definition : Definition) : Prop :=
  setting.start.defs.Below (.module setting.patch) definition

/-- Whether the patch module is there, and nothing in it refers to a declaration that is not lent.
-/
structure Plain : Prop where
  held : setting.start.defs.Held
  there : setting.start.defs.has (.module setting.patch) = true
  borrows : ∀ definition record, setting.Listed definition →
    setting.start.defs.record? definition = some record → setting.Borrows record.targets

variable {setting} {world : World} {targets : List Target} {α : Type} {kind : SymbolKind}

theorem Plain.has (hplain : setting.Plain) {definition : Definition}
    (hlisted : setting.Listed definition) : setting.start.defs.has definition = true := by
  cases hlisted with
  | top => exact hplain.there
  | member _ hmem => exact hplain.held _ _ _ hmem

/-- The details of what is in the patch module lead to no declarations but those that are lent. -/
theorem Plain.details (hplain : setting.Plain) {definition : Definition} {record : Record}
    (hlisted : setting.Listed definition)
    (hrecord : setting.start.defs.record? definition = some record) :
    setting.Borrows record.details.targets :=
  (borrows_append.mp (borrows_append.mp (hplain.borrows _ _ hlisted hrecord)).1).2

/-- So does its signature. -/
theorem Plain.shape (hplain : setting.Plain) {definition : Definition} {record : Record}
    (hlisted : setting.Listed definition)
    (hrecord : setting.start.defs.record? definition = some record) :
    setting.Borrows record.nature.shape.targets :=
  (borrows_append.mp (borrows_append.mp (hplain.borrows _ _ hlisted hrecord)).1).1

/-! ## References -/

section Importing

variable (h : setting.Importing world)

include h

/-- What is imported leads to new declarations, to those that are lent, or to what does not belong
to the patch module. -/
theorem Importing.admits (hborrows : setting.Borrows targets)
    (himports : ∀ target ∈ targets, world.Imports setting.importer target) :
    setting.Admits (setting.New world) (targets.flatMap (world.bind setting.importer).image) := by
  intro target hmem
  obtain ⟨source, hsource, hmem⟩ := List.mem_flatMap.mp hmem
  refine ⟨World.not_into_of_imports (fun definition hbelongs => ?_) (himports source hsource) hmem,
    fun declaration heq => ?_⟩
  · rw [h.defs, h.scope]
    exact hbelongs
  · subst heq
    obtain rfl | ⟨definition, other, rfl, -, hbound, heq⟩ := World.mem_image_bind hmem
    · exact .inr (hborrows declaration hsource)
    · cases heq
      cases definition with
      | module | property | event => cases hbound
      | type id =>
          obtain ⟨bound, hget, rfl⟩ := Option.map_eq_some_iff.mp hbound
          exact .inl (h.boundTypes _ bound hget)
      | field id =>
          obtain ⟨bound, hget, rfl⟩ := Option.map_eq_some_iff.mp hbound
          exact .inl (h.boundFields _ bound hget)
      | method id =>
          obtain ⟨bound, hget, rfl⟩ := Option.map_eq_some_iff.mp hbound
          exact .inl (h.boundMethods _ bound hget)

theorem declares_import {targets : α → List Target} {relink : Relink → α → α} {task : Task α}
    {value : α} (hrelinks : Relinks targets relink)
    (hquiet : Task.Quiet world task fun imported =>
      (∀ target ∈ targets value, world.Imports setting.importer target) ∧
        relink .bare imported = relink .bare (relink (world.bind setting.importer) value))
    (hborrows : setting.Borrows (targets value)) :
    setting.Declares world task fun next imported =>
      setting.Admits (setting.New next) (targets imported) := by
  refine .mono (.quiet h hquiet) fun imported next honward ⟨himports, hbound⟩ => ?_
  rw [hrelinks.targets_of_bare hbound, hrelinks.targets_relink]
  exact (h.admits hborrows himports).mono fun _ => honward.still_new

theorem declares_importTypeRef {ref : TypeRef}
    (hborrows : setting.Borrows ref.targets) :
    setting.Declares world (setting.importer.importTypeRef ref) fun next imported =>
      setting.Admits (setting.New next) imported.targets :=
  declares_import h TypeRef.relinks (ImporterId.quiet_importTypeRef ref) hborrows

theorem declares_importTypeSig {signature : TypeSig}
    (hborrows : setting.Borrows signature.targets) :
    setting.Declares world (setting.importer.importTypeSig signature) fun next imported =>
      setting.Admits (setting.New next) imported.targets :=
  declares_import h TypeSig.relinks (ImporterId.quiet_importTypeSig signature) hborrows

theorem declares_importMethodSig {signature : MethodSig}
    (hborrows : setting.Borrows signature.targets) :
    setting.Declares world (setting.importer.importMethodSig signature) fun next imported =>
      setting.Admits (setting.New next) imported.targets :=
  declares_import h MethodSig.relinks (ImporterId.quiet_importMethodSig signature) hborrows

theorem declares_importMethodRef {ref : MethodRef}
    (hborrows : setting.Borrows ref.targets) :
    setting.Declares world (setting.importer.importMethodRef ref) fun next imported =>
      setting.Admits (setting.New next) imported.targets :=
  declares_import h MethodRef.relinks (ImporterId.quiet_importMethodRef ref) hborrows

theorem declares_importTypeSigs {signatures : List TypeSig}
    (hborrows : setting.Borrows (TypeSig.targetsList signatures)) :
    setting.Declares world (setting.importer.importTypeSigs signatures) fun next imported =>
      setting.Admits (setting.New next) (TypeSig.targetsList imported) :=
  declares_import h TypeSig.relinksList (ImporterId.quiet_importTypeSigs signatures) hborrows

theorem declares_importPropertySig {signature : PropertySig}
    (hborrows : setting.Borrows signature.targets) :
    setting.Declares world (setting.importer.importPropertySig signature) fun next imported =>
      setting.Admits (setting.New next) imported.targets := by
  rw [PropertySig.targets, borrows_append] at hborrows
  refine .bind (declares_importTypeSig h hborrows.1) fun type next honward htype => ?_
  refine .bind (declares_importTypeSigs honward.importing hborrows.2)
    fun params last honward' hparams => .pure honward'.importing ?_
  exact admits_append.mpr ⟨htype.mono fun _ => honward'.still_new, hparams⟩

theorem declares_importGenericParam {param : GenericParam}
    (hborrows : setting.Borrows param.targets) :
    setting.Declares world (setting.importer.importGenericParam param) fun next imported =>
      setting.Admits (setting.New next) imported.targets := by
  rw [GenericParam.targets, borrows_flatMap] at hborrows
  have hrefs : setting.Declares world (param.constraints.mapM setting.importer.importTypeRef)
      fun next refs => ∀ ref ∈ refs, setting.Admits (setting.New next) ref.targets :=
    .mapM h (fun _ _ _ honward => Admits.mono fun _ => honward.still_new)
      fun ref hmem next honward => declares_importTypeRef honward.importing
        (hborrows ref hmem)
  exact .bind hrefs fun refs next honward hadmits =>
    .pure honward.importing (admits_flatMap.mpr hadmits)

theorem declares_importOverride {override : Override}
    (hborrows : setting.Borrows override.targets) :
    setting.Declares world (setting.importer.importOverride override) fun next imported =>
      setting.Admits (setting.New next) imported.targets := by
  rw [Override.targets, borrows_append] at hborrows
  refine .bind (declares_importMethodRef h hborrows.1) fun body next honward hbody => ?_
  refine .bind (declares_importMethodRef honward.importing hborrows.2)
    fun overridden last honward' hoverridden => .pure honward'.importing ?_
  exact admits_append.mpr ⟨hbody.mono fun _ => honward'.still_new, hoverridden⟩

end Importing

/-! ## Binding -/

/-- An import goes on when its importer changes and is bound to new declarations only. -/
theorem Importing.withImporter (h : setting.Importing world) {change : Importer → Importer}
    (hscope : ∀ state, (change state).scope = state.scope)
    (htypes : ∀ token id,
      (change (world.importer setting.importer)).types.get? token = some id →
        setting.New world (.type id))
    (hfields : ∀ token id,
      (change (world.importer setting.importer)).fields.get? token = some id →
        setting.New world (.field id))
    (hmethods : ∀ token id,
      (change (world.importer setting.importer)).methods.get? token = some id →
        setting.New world (.method id)) :
    setting.Declares world (Task.changeImporter setting.importer change) fun _ _ => True := by
  intro _ _ hon
  cases hon
  have hchange := world.importer_update setting.importer setting.importer change
  refine ⟨⟨⟨h.defs, h.sources, h.kept, ?_, ?_, ?_, ?_, h.sanctions⟩, fun _ hhas => hhas⟩, trivial⟩
  all_goals rcases hchange with heq | heq <;> rw [heq]
  · exact h.scope
  · exact (hscope _).trans h.scope
  · exact h.boundTypes
  · exact htypes
  · exact h.boundFields
  · exact hfields
  · exact h.boundMethods
  · exact hmethods

section Importing

variable (h : setting.Importing world) {token : Token}

include h

theorem declares_bindType {declaration : DeclId .type}
    (hnew : setting.New world (.type declaration)) :
    setting.Declares world (setting.importer.bindType token declaration) fun _ _ => True := by
  refine h.withImporter (fun _ => rfl) (fun other id hget => ?_) h.boundFields h.boundMethods
  obtain ⟨-, rfl⟩ | hget := Dictionary.of_get?_insert hget
  · exact hnew
  · exact h.boundTypes other id hget

theorem declares_bindField {declaration : DeclId .field}
    (hnew : setting.New world (.field declaration)) :
    setting.Declares world (setting.importer.bindField token declaration) fun _ _ => True := by
  refine h.withImporter (fun _ => rfl) h.boundTypes (fun other id hget => ?_) h.boundMethods
  obtain ⟨-, rfl⟩ | hget := Dictionary.of_get?_insert hget
  · exact hnew
  · exact h.boundFields other id hget

/-- The work that waited for a method binds nothing. -/
theorem declares_bindMethod {declaration : DeclId .method}
    (hnew : setting.New world (.method declaration)) :
    setting.Declares world (setting.importer.bindMethod token declaration) fun _ _ => True := by
  unfold ImporterId.bindMethod ImporterId.state
  rw [bind_assoc]
  refine .get ?_
  rw [pure_bind]
  refine .bind (h.withImporter (fun _ => rfl) h.boundTypes h.boundFields
    (fun other id hget => ?_)) fun _ next honward _ => ?_
  · obtain ⟨-, rfl⟩ | hget := Dictionary.of_get?_insert hget
    · exact hnew
    · exact h.boundMethods other id hget
  · have hqueued {next : World} (h : setting.Importing next) (queued : List Continuation) :
        setting.Declares next (queued.forM (Task.continueWith declaration)) fun _ _ => True :=
      .forM h fun work _ other honward => .quiet honward.importing ImporterId.quiet_continueWith
    dsimp only
    split
    · exact hqueued honward.importing _
    · exact .get (.bind (.quiet honward.importing Task.quiet_log)
        fun _ last honward' _ => hqueued honward'.importing _)

end Importing

/-! ## Types -/

/-- Whether an import job is about the patch module, and lands in new modules. -/
structure Carries (setting : ImportSetting) (world : World) (job : ImportJob) : Prop where
  importer : job.importer = setting.importer
  module : job.module = setting.patch
  targets : ∀ name id, job.targets.get? name = some id → setting.New world (.module id)

theorem Carries.onward {next : World} {job : ImportJob} (h : setting.Carries world job)
    (honward : setting.Onward world next) : setting.Carries next job :=
  { h with targets := fun name id hget => honward.still_new (h.targets name id hget) }

/-- Whether a definition of the patch module stands for a new declaration. -/
def Takes (setting : ImportSetting) {kind : SymbolKind} (toDefinition : DefId kind → Definition)
    (toDeclaration : DeclId kind → Declaration) (world : World) (item : Imported kind) : Prop :=
  setting.Listed (toDefinition item.definition) ∧
    setting.New world (toDeclaration item.declaration)

theorem Takes.onward {kind : SymbolKind} {toDefinition : DefId kind → Definition}
    {toDeclaration : DeclId kind → Declaration} {next : World} {item : Imported kind}
    (h : setting.Takes toDefinition toDeclaration world item)
    (honward : setting.Onward world next) :
    setting.Takes toDefinition toDeclaration next item :=
  ⟨h.1, honward.still_new h.2⟩

/-- Items that are found for some of a list, one after another, are all of them collected. -/
theorem declares_collect {β : Type} {f : β → Task (Option (Imported kind))} {items : List β}
    {toDefinition : DefId kind → Definition} {toDeclaration : DeclId kind → Declaration}
    (h : setting.Importing world)
    (hitems : ∀ item ∈ items, ∀ next, setting.Onward world next →
      setting.Declares next (f item) fun last found =>
        ∀ taken ∈ found, setting.Takes toDefinition toDeclaration last taken) :
    setting.Declares world (do return (← items.mapM f).filterMap id) fun next taken =>
      ∀ item ∈ taken, setting.Takes toDefinition toDeclaration next item := by
  refine .bind (.mapM h (fun found _ _ honward hall taken hmem =>
    (hall taken hmem).onward honward) hitems) fun found next honward hall =>
      .pure honward.importing fun taken hmem => ?_
  obtain ⟨some, hfound, hsome⟩ := List.mem_filterMap.mp hmem
  exact hall some hfound taken hsome

section Job

variable {job : ImportJob} (h : setting.Importing world) (hjob : setting.Carries world job)

include h hjob

theorem listed_of_mem_typesToDeclare {type : DefId .type × Option Intent}
    (hmem : type ∈ job.typesToDeclare world.defs) : setting.Listed (.type type.1) := by
  refine Forest.forall_mem_visit (P := fun node => setting.Listed (.type node.1)) ?_ ?_ type hmem
  · intro node hmem
    obtain ⟨id, hid, rfl⟩ := List.mem_map.mp hmem
    rw [h.defs, hjob.module] at hid
    exact .member .top (List.mem_map.mpr ⟨id, hid, rfl⟩ : _ ∈ Definitions.members _ _ .type)
  · intro node hnode child hmem
    obtain ⟨id, hid, rfl⟩ := List.mem_map.mp hmem
    rw [h.defs] at hid
    exact .member hnode (List.mem_map.mpr ⟨id, hid, rfl⟩ : _ ∈ Definitions.members _ _ .type)

/-- The declaration of a type of the patch module lands in a new module or type. -/
theorem declares_declareType {id : DefId .type} {intent : Intent} :
    setting.Declares world (job.declareType id intent)
      fun next made => setting.New next (.type made) := by
  unfold ImportJob.declareType
  refine .get ?_
  dsimp only
  split
  · split
    · exact .throw
    · rename_i outer _ owner howner
      rw [hjob.importer] at howner
      exact declares_nested h (h.boundTypes _ owner howner)
  · have hmodule : setting.Declares world (ofExcept (job.targetModule world id))
        fun next module => setting.New next (.module module) := by
      refine .ofExcept h fun module hmodule => ?_
      obtain ⟨name, hget⟩ := ImportJob.targetModule_ok hmodule
      exact hjob.targets name module hget
    exact .bind hmodule fun module next honward hnew => declares_type honward.importing hnew

theorem declares_declareTypes :
    setting.Declares world job.declareTypes fun next types =>
      ∀ type ∈ types, setting.Takes .type .type next type := by
  unfold ImportJob.declareTypes
  refine .get (declares_collect h fun type hmem next honward => .get ?_)
  have hlisted := listed_of_mem_typesToDeclare h hjob hmem
  dsimp only
  split
  · exact .pure honward.importing (by simp)
  · refine .bind (declares_declareType honward.importing (hjob.onward honward))
      fun made last honward' hmade => ?_
    rw [hjob.importer]
    refine .bind (declares_bindType honward'.importing hmade) fun _ final honward'' _ =>
      .pure honward''.importing ?_
    simpa using ⟨hlisted, honward''.still_new hmade⟩

omit hjob in
theorem declares_declareMembers {kind : SymbolKind} {members : List (DefId kind)}
    {toDefinition : DefId kind → Definition} {toDeclaration : DeclId kind → Declaration}
    {outer : Intent} {declare : DefId kind → Token → Intent → Task (DeclId kind)}
    (hlisted : ∀ id ∈ members, setting.Listed (toDefinition id))
    (hdeclare : ∀ id token intent next, setting.Listed (toDefinition id) →
      setting.Onward world next → setting.Declares next (declare id token intent)
        fun last made => setting.New last (toDeclaration made)) :
    setting.Declares world (job.declareMembers members toDefinition outer declare)
      fun next items => ∀ item ∈ items, setting.Takes toDefinition toDeclaration next item := by
  unfold ImportJob.declareMembers
  refine declares_collect h fun id hmem next honward => .get ?_
  dsimp only
  split
  · exact .pure honward.importing (by simp)
  · refine .bind (hdeclare id _ _ next (hlisted id hmem) honward) fun made last honward' hmade =>
      .pure honward'.importing ?_
    simpa using ⟨hlisted id hmem, hmade⟩

section Members

variable {owner : DeclId .type} {token : Token} {intent : Intent} (hplain : setting.Plain)
  (howner : setting.New world (.type owner))

include hplain howner

theorem declares_declareField {id : DefId .field} (hlisted : setting.Listed (.field id)) :
    setting.Declares world (job.declareField owner id token intent)
      fun next made => setting.New next (.field made) := by
  have hborrows := hplain.shape hlisted (Definitions.record?_field (hplain.has hlisted))
  unfold ImportJob.declareField
  refine .get ?_
  rw [hjob.importer, h.defs]
  refine .bind (declares_importTypeSig h hborrows)
    fun signature next honward hsignature => ?_
  refine .bind (declares_field honward.importing (honward.still_new howner) hsignature)
    fun made last honward' hmade => ?_
  exact .bind (declares_bindField honward'.importing hmade) fun _ final honward'' _ =>
    .pure honward''.importing (honward''.still_new hmade)

theorem declares_declareMethod {id : DefId .method} (hlisted : setting.Listed (.method id)) :
    setting.Declares world (job.declareMethod owner id token intent)
      fun next made => setting.New next (.method made) := by
  have hborrows := hplain.shape hlisted (Definitions.record?_method (hplain.has hlisted))
  unfold ImportJob.declareMethod
  refine .get ?_
  rw [hjob.importer, h.defs]
  refine .bind (declares_importMethodSig h hborrows)
    fun signature next honward hsignature => ?_
  refine .bind (declares_method honward.importing (honward.still_new howner) hsignature)
    fun made last honward' hmade => ?_
  exact .bind (declares_bindMethod honward'.importing hmade) fun _ final honward'' _ =>
    .pure honward''.importing (honward''.still_new hmade)

theorem declares_declareProperty {id : DefId .property} (hlisted : setting.Listed (.property id)) :
    setting.Declares world (job.declareProperty owner id token intent)
      fun next made => setting.New next (.property made) := by
  have hborrows := hplain.shape hlisted (Definitions.record?_property (hplain.has hlisted))
  unfold ImportJob.declareProperty
  refine .get ?_
  rw [hjob.importer, h.defs]
  refine .bind (declares_importPropertySig h hborrows)
    fun signature next honward hsignature => ?_
  exact declares_property honward.importing (honward.still_new howner) hsignature

theorem declares_declareEvent {id : DefId .event} (hlisted : setting.Listed (.event id)) :
    setting.Declares world (job.declareEvent owner id token intent)
      fun next made => setting.New next (.event made) := by
  have hborrows := hplain.shape hlisted (Definitions.record?_event (hplain.has hlisted))
  unfold ImportJob.declareEvent
  refine .get ?_
  rw [hjob.importer, h.defs]
  refine .bind (declares_importTypeRef h hborrows)
    fun type next honward htype => ?_
  exact declares_event honward.importing (honward.still_new howner) htype

end Members

/-- Whether all that is declared for members of types is new. -/
structure TakesMembers (setting : ImportSetting) (world : World) (members : ImportJob.Members) :
    Prop where
  fields : ∀ item ∈ members.fields, setting.Takes .field .field world item
  methods : ∀ item ∈ members.methods, setting.Takes .method .method world item
  properties : ∀ item ∈ members.properties, setting.Takes .property .property world item
  events : ∀ item ∈ members.events, setting.Takes .event .event world item

theorem declares_declareMembersOf {before : ImportJob.Members} {type : Imported .type}
    (hplain : setting.Plain) (hbefore : setting.TakesMembers world before)
    (htype : setting.Takes .type .type world type) :
    setting.Declares world (job.declareMembersOf before type) setting.TakesMembers := by
  obtain ⟨hlisted, howner⟩ := htype
  have hlists (kind : SymbolKind) (id : Definition)
      (hmem : id ∈ setting.start.defs.members (.type type.definition) kind) : setting.Listed id :=
    .member hlisted hmem
  have hstep {kind : SymbolKind} {members : List (DefId kind)}
      {toDefinition : DefId kind → Definition} {toDeclaration : DeclId kind → Declaration}
      {declare : DefId kind → Token → Intent → Task (DeclId kind)} {next : World}
      (honward : setting.Onward world next)
      (hmembers : setting.start.defs.members (.type type.definition) kind =
        members.map toDefinition)
      (hdeclare : ∀ id token intent last, setting.Importing last → setting.Carries last job →
        setting.New last (.type type.declaration) → setting.Listed (toDefinition id) →
        setting.Declares last (declare id token intent)
          fun final made => setting.New final (toDeclaration made)) :
      setting.Declares next (job.declareMembers members toDefinition type.intent declare)
        fun last items => ∀ item ∈ items, setting.Takes toDefinition toDeclaration last item :=
    declares_declareMembers honward.importing
      (fun id hmem => hlists kind _ (hmembers ▸ List.mem_map_of_mem hmem))
      fun id token intent last hid honward' => hdeclare id token intent last honward'.importing
        (hjob.onward (honward.trans honward')) ((honward.trans honward').still_new howner) hid
  unfold ImportJob.declareMembersOf
  refine .get ?_
  rw [h.defs]
  refine .bind (hstep (.refl h) rfl fun _ _ _ _ h hjob howner hid =>
    declares_declareField h hjob hplain howner hid) fun fields first hfirst hfields => ?_
  refine .bind (hstep hfirst rfl fun _ _ _ _ h hjob howner hid =>
    declares_declareMethod h hjob hplain howner hid) fun methods second hsecond hmethods => ?_
  refine .bind (hstep (hfirst.trans hsecond) rfl fun _ _ _ _ h hjob howner hid =>
    declares_declareProperty h hjob hplain howner hid) fun properties third hthird hproperties => ?_
  refine .bind (hstep ((hfirst.trans hsecond).trans hthird) rfl fun _ _ _ _ h hjob howner hid =>
    declares_declareEvent h hjob hplain howner hid) fun events last hlast hevents => ?_
  -- What the earlier passes declared has stayed as it was during the later ones.
  have hrest := hthird.trans hlast
  have hall := hfirst.trans (hsecond.trans hrest)
  refine .pure hlast.importing ⟨?_, ?_, ?_, ?_⟩
  · exact List.forall_mem_append.mpr ⟨fun item hmem => (hbefore.fields item hmem).onward hall,
      fun item hmem => (hfields item hmem).onward (hsecond.trans hrest)⟩
  · exact List.forall_mem_append.mpr ⟨fun item hmem => (hbefore.methods item hmem).onward hall,
      fun item hmem => (hmethods item hmem).onward hrest⟩
  · exact List.forall_mem_append.mpr ⟨fun item hmem => (hbefore.properties item hmem).onward hall,
      fun item hmem => (hproperties item hmem).onward hlast⟩
  · exact List.forall_mem_append.mpr
      ⟨fun item hmem => (hbefore.events item hmem).onward hall, hevents⟩

/-! ## Details -/

theorem declares_detailType {type : Imported .type} (hplain : setting.Plain)
    (htype : setting.Takes .type .type world type) :
    setting.Declares world (job.detailType type) fun _ _ => True := by
  obtain ⟨hlisted, -⟩ := htype
  have hborrows := hplain.details hlisted (Definitions.record?_type (hplain.has hlisted))
  unfold ImportJob.detailType
  refine .get ?_
  rw [h.defs]
  have hinterfaces : ∀ ref ∈ (setting.start.defs.type type.definition).interfaces,
      setting.Borrows ref.targets := by
    intro ref hmem declaration hin
    refine hborrows declaration ?_
    simp only [Details.targets, TypeDef.record, List.mem_append, List.mem_flatMap]
    exact .inl (.inl (.inl (.inr ⟨ref, hmem, hin⟩)))
  have hgenerics : ∀ param ∈ (setting.start.defs.type type.definition).generics,
      setting.Borrows param.targets := by
    intro param hmem declaration hin
    refine hborrows declaration ?_
    simp only [Details.targets, TypeDef.record, List.mem_append, List.mem_flatMap]
    exact .inl (.inl (.inr ⟨param, hmem, hin⟩))
  refine .bind (declares_updateType h fun record hrecord => { hrecord with }) fun _ first hfirst _ => ?_
  refine .bind (.forM hfirst.importing fun ref hmem next honward => ?_) fun _ second hsecond _ => ?_
  · rw [hjob.importer]
    exact .bind (declares_importTypeRef honward.importing (hinterfaces ref hmem))
      fun imported last honward' himported => declares_interface honward'.importing himported
  · split
    · exact .pure hsecond.importing trivial
    · have hparams : setting.Declares second ((setting.start.defs.type type.definition).generics.mapM
          job.importer.importGenericParam) fun next params =>
            ∀ param ∈ params, setting.Admits (setting.New next) param.targets := by
        rw [hjob.importer]
        exact .mapM hsecond.importing
          (fun _ _ _ honward => Admits.mono fun _ => honward.still_new)
          fun param hmem next honward =>
            declares_importGenericParam honward.importing (hgenerics param hmem)
      refine .bind hparams fun params last honward hparams => ?_
      exact declares_updateType honward.importing fun record hrecord =>
        { hrecord with generics := admits_flatMap.mpr hparams }

omit hjob in
theorem declares_detailField {field : Imported .field} :
    setting.Declares world (ImportJob.detailField field) fun _ _ => True :=
  .get (declares_updateField h fun _ => ⟨rfl, rfl⟩)

/-- A body of the patch module is carried over as it is, by the importer. -/
theorem declares_detailMethod {method : Imported .method} (hplain : setting.Plain)
    (hmethod : setting.Takes .method .method world method) :
    setting.Declares world (job.detailMethod method) fun _ _ => True := by
  obtain ⟨hlisted, -⟩ := hmethod
  have hrecord := Definitions.record?_method (hplain.has hlisted)
  have hborrows := hplain.details hlisted hrecord
  unfold ImportJob.detailMethod
  refine .get ?_
  rw [h.defs]
  have hoverrides : ∀ override ∈ (setting.start.defs.method method.definition).overrides,
      setting.Borrows override.targets := by
    intro override hmem declaration hin
    refine hborrows declaration ?_
    simp only [Details.targets, MethodDef.record, List.mem_append, List.mem_flatMap]
    exact .inl (.inr ⟨override, hmem, hin⟩)
  refine .bind (declares_updateMethod h fun record hrecord => { hrecord with })
    fun _ first hfirst _ => ?_
  refine .bind (.forM hfirst.importing fun override hmem next honward => ?_)
    fun _ second hsecond _ => ?_
  · rw [hjob.importer]
    exact .bind (declares_importOverride honward.importing (hoverrides override hmem))
      fun imported last honward' himported => declares_override honward'.importing himported
  · split
    · rename_i body hbody _
      refine declares_updateMethod hsecond.importing fun record hsanctions =>
        { hsanctions with body := ?_ }
      rintro graft hgraft
      cases hgraft
      refine ⟨fun declaration hmem => ?_, _, congrArg (Transformer.importing · _) hjob.importer⟩
      refine hplain.borrows _ _ hlisted hrecord declaration (List.mem_append_right _ ?_)
      simpa [MethodDef.record, hbody] using hmem
    · exact .pure hsecond.importing trivial

/-- Accessors are taken over where they stand for declarations of methods. -/
theorem new_of_mem_declaredAccessors {accessors : Accessors} {entry : AccessorRole × DeclId .method}
    (hmem : entry ∈ job.declaredAccessors world accessors) :
    setting.New world (.method entry.2) := by
  obtain ⟨⟨role, method⟩, -, hbound⟩ := List.mem_filterMap.mp hmem
  obtain ⟨found, hget, rfl⟩ := Option.map_eq_some_iff.mp hbound
  rw [hjob.importer] at hget
  exact h.boundMethods _ found hget

omit h hjob in
theorem new_of_mem_addAccessors {added held : DeclaredAccessors}
    (hadded : ∀ entry ∈ added, setting.New world (.method entry.2))
    (hheld : ∀ entry ∈ held, setting.New world (.method entry.2)) :
    ∀ entry ∈ added.foldl (fun held (role, method) => held.add role method) held,
      setting.New world (.method entry.2) := by
  induction added generalizing held with
  | nil => exact hheld
  | cons entry added ih =>
      obtain ⟨hentry, hrest⟩ := List.forall_mem_cons.mp hadded
      obtain ⟨role, method⟩ := entry
      refine ih hrest ?_
      dsimp only
      unfold DeclaredAccessors.add
      split
      · exact hheld
      · exact List.forall_mem_append.mpr ⟨hheld, by simpa using hentry⟩

theorem declares_detailProperty {property : Imported .property} :
    setting.Declares world (job.detailProperty property) fun _ _ => True :=
  .get (declares_updateProperty h fun _ hrecord => { hrecord with
    accessors := new_of_mem_addAccessors
      (fun _ hmem => new_of_mem_declaredAccessors h hjob hmem) hrecord.accessors })

theorem declares_detailEvent {event : Imported .event} :
    setting.Declares world (job.detailEvent event) fun _ _ => True :=
  .get (declares_updateEvent h fun _ hrecord => { hrecord with
    accessors := new_of_mem_addAccessors
      (fun _ hmem => new_of_mem_declaredAccessors h hjob hmem) hrecord.accessors })

end Job

/-! ## Patches -/

theorem declares_requireModule {patch : Patch} {name : String} {policy : Policy} {readOnly : Bool}
    (h : setting.Importing world) (hname : name ∈ setting.required)
    (hpatch : ∀ id ∈ patch.modules, setting.New world (.module id)) :
    setting.Declares world (Task.requireModule patch name policy readOnly) fun next taken =>
      setting.New next (.module taken.1) ∧
        ∀ id ∈ taken.2.modules, setting.New next (.module id) := by
  unfold Task.requireModule
  refine .onDecls ?_
  dsimp only [id_eq]
  split
  · rename_i id hfound
    split
    · exact .throw
    · split
      · exact .throw
      · exact .pure h ⟨hpatch id (List.mem_of_find?_eq_some hfound), hpatch⟩
  · refine .bind (declares_module h hname) fun id next honward hnew =>
      .pure honward.importing ⟨hnew, ?_⟩
    refine List.forall_mem_append.mpr ⟨fun other hmem => honward.still_new (hpatch other hmem), ?_⟩
    simpa using hnew

theorem declares_requireModules {patch : Patch} {required : List (String × Bool)}
    (h : setting.Importing world) (hrequired : ∀ entry ∈ required, entry.1 ∈ setting.required)
    (hpatch : ∀ id ∈ patch.modules, setting.New world (.module id)) :
    setting.Declares world (Task.requireModules patch required) fun next taken =>
      (∀ id ∈ taken.1.modules, setting.New next (.module id)) ∧
        ∀ name id, taken.2.get? name = some id → setting.New next (.module id) := by
  unfold Task.requireModules
  refine .foldlM h ⟨hpatch, by simp [Dictionary.get?]⟩ fun entry hmem taken next honward htaken => ?_
  refine .bind (declares_requireModule honward.importing (hrequired entry hmem) htaken.1)
    fun made last honward' hmade => .pure honward'.importing ⟨hmade.2, fun name id hget => ?_⟩
  obtain ⟨-, rfl⟩ | hget := Dictionary.of_get?_insert hget
  · exact hmade.1
  · exact honward'.still_new (htaken.2 name id hget)

/-- What the import of a patch module is about. -/
def of (world : World) (module : DefId .module) (manifest : Manifest)
    (lent : Declaration → Prop) : ImportSetting where
  start := world
  patch := module
  required := manifest.required.map (·.1)
  importer := ⟨world.importers.next⟩
  lent

/-- An import begins with an importer for the patch module and nothing new. -/
theorem importing_begin (world : World) (module : DefId .module) (manifest : Manifest)
    (lent : Declaration → Prop) :
    (of world module manifest lent).Importing
      { world with importers := world.importers.push { scope := module } } where
  defs := rfl
  sources := rfl
  kept _ hhas := hhas
  scope := by simp [of, World.importer]
  boundTypes := by simp [of, World.importer, Dictionary.get?]
  boundFields := by simp [of, World.importer, Dictionary.get?]
  boundMethods := by simp [of, World.importer, Dictionary.get?]
  sanctions := by constructor <;> exact fun _ _ hsome hnone => by simp [of, hsome] at hnone

/-- Declaring the details of everything goes on as before. -/
theorem declares_details {job : ImportJob} {types : List (Imported .type)}
    {members : ImportJob.Members} {patch : Patch} {entry : LogEntry} (h : setting.Importing world)
    (hjob : setting.Carries world job) (hplain : setting.Plain)
    (htypes : ∀ type ∈ types, setting.Takes .type .type world type)
    (hmembers : setting.TakesMembers world members)
    (hpatch : ∀ id ∈ patch.modules, setting.New world (.module id)) :
    setting.Declares world (do
      types.forM job.detailType
      members.fields.forM ImportJob.detailField
      members.methods.forM job.detailMethod
      members.properties.forM job.detailProperty
      members.events.forM job.detailEvent
      Task.log entry
      return patch) fun next patch => ∀ id ∈ patch.modules, setting.New next (.module id) := by
  refine .bind (.forM h fun type hmem next honward => declares_detailType honward.importing
    (hjob.onward honward) hplain ((htypes type hmem).onward honward)) fun _ first hfirst _ => ?_
  refine .bind (.forM hfirst.importing fun field hmem next honward =>
    declares_detailField honward.importing) fun _ second hstep _ => ?_
  have hsecond := hfirst.trans hstep
  refine .bind (.forM hsecond.importing fun method hmem next honward =>
    declares_detailMethod honward.importing (hjob.onward (hsecond.trans honward)) hplain
      ((hmembers.methods method hmem).onward (hsecond.trans honward))) fun _ third hstep _ => ?_
  have hthird := hsecond.trans hstep
  refine .bind (.forM hthird.importing fun property _ next honward =>
    declares_detailProperty honward.importing (hjob.onward (hthird.trans honward)))
    fun _ fourth hstep _ => ?_
  have hfourth := hthird.trans hstep
  refine .bind (.forM hfourth.importing fun event _ next honward =>
    declares_detailEvent honward.importing (hjob.onward (hfourth.trans honward)))
    fun _ fifth hstep _ => ?_
  have hfifth := hfourth.trans hstep
  refine .bind (.quiet hfifth.importing Task.quiet_log) fun _ last hstep _ => ?_
  exact .pure hstep.importing fun id hmem => (hfifth.trans hstep).still_new (hpatch id hmem)

/-- Importing a patch module declares new things only, and the modules of the patch are new. -/
theorem importPatch_ok {module : DefId .module} {manifest : Manifest} {lent : Declaration → Prop}
    {patch : Patch} {next : World}
    (hplain : (of world module manifest lent).Plain)
    (hon : (Task.importPatch module manifest).on world = (.ok patch, next)) :
    (of world module manifest lent).Importing next ∧
      ∀ id ∈ patch.modules, (of world module manifest lent).New next (.module id) := by
  have hbegin := importing_begin world module manifest lent
  have hfinish {task : Task Patch}
      (htask : (of world module manifest lent).Declares
        { world with importers := world.importers.push { scope := module } } task
        fun next patch => ∀ id ∈ patch.modules,
          (of world module manifest lent).New next (.module id))
      (hon : task.on { world with importers := world.importers.push { scope := module } } =
        (.ok patch, next)) :
      (of world module manifest lent).Importing next ∧
        ∀ id ∈ patch.modules, (of world module manifest lent).New next (.module id) :=
    ⟨(htask patch next hon).1.importing, (htask patch next hon).2⟩
  unfold Task.importPatch at hon
  rw [Task.on_bind] at hon
  refine hfinish (.get (.bind (declares_requireModules hbegin (fun entry hmem =>
    List.mem_map_of_mem hmem) (by simp)) fun ⟨patch, targets⟩ required hrequired hmodules => ?_)) hon
  have hjob : (of world module manifest lent).Carries required
      { importer := ⟨world.importers.next⟩, module, manifest, targets } :=
    ⟨rfl, rfl, hmodules.2⟩
  refine .bind (declares_declareTypes hrequired.importing hjob) fun types typed htyped htypes => ?_
  have hmembers : (of world module manifest lent).Declares typed
      (types.foldlM (ImportJob.declareMembersOf
        { importer := ⟨world.importers.next⟩, module, manifest, targets }) {})
      (of world module manifest lent).TakesMembers :=
    .foldlM htyped.importing ⟨by simp, by simp, by simp, by simp⟩
      fun type hmem members next honward hmembers =>
        declares_declareMembersOf honward.importing (hjob.onward (htyped.trans honward)) hplain
          hmembers ((htypes type hmem).onward honward)
  refine .bind hmembers fun members full hfull hmembers => ?_
  exact declares_details hfull.importing (hjob.onward (htyped.trans hfull)) hplain
    (fun type hmem => (htypes type hmem).onward hfull) hmembers
    fun id hmem => (htyped.trans hfull).still_new (hmodules.1 id hmem)

end ImportSetting

end Graft
