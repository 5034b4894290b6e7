import Graft.Proofs.Import.Sourcing

/-!
# The details that an import adds

When everything is declared the details follow: flags, interfaces, generic parameters, overrides,
accessors and bodies. They move nothing and rename nothing (`World.Details`). A method has a body in
the end if a method with a body is mapped to it for more than a dependency, and accessors that are
mapped are declared as accessors.
-/

namespace Graft

namespace Declarations

variable {decls decls' decls'' : Declarations}

/-- Whether nothing but details of declarations has changed. -/
structure Details (decls decls' : Declarations) : Prop where
  keeps : decls.Keeps decls'
  members : ∀ holder kind, decls'.members holder kind = decls.members holder kind
  types : decls.SameTypes decls'

theorem Details.refl (decls : Declarations) : decls.Details decls :=
  ⟨.refl decls, fun _ _ => rfl, .of_eq rfl⟩

theorem Details.trans (h : decls.Details decls') (h' : decls'.Details decls'') :
    decls.Details decls'' :=
  ⟨h.keeps.trans h'.keeps, fun holder kind => (h'.members holder kind).trans (h.members holder kind),
    h.types.trans h'.types⟩

theorem Details.of_agrees (node : Declaration)
    (hhas : ∀ declaration, decls'.has declaration = decls.has declaration)
    (hagrees : ∀ declaration, declaration ≠ node → decls.AgreesAt decls' declaration)
    (hkeeps : decls.KeepsAt decls' node)
    (hmembers : ∀ kind, decls'.members node kind = decls.members node kind)
    (htypes : decls.SameTypes decls') : decls.Details decls' := by
  refine ⟨⟨fun declaration h => (hhas declaration).trans h, fun declaration _ => ?_⟩,
    fun holder kind => ?_, htypes⟩
  · by_cases heq : declaration = node
    · exact heq ▸ hkeeps
    · exact (hagrees declaration heq).keeps
  · by_cases heq : holder = node
    · exact heq ▸ hmembers kind
    · exact (hagrees holder heq).members kind

section Update

variable (decls)

theorem updateType_details {id : DeclId .type} {change : TypeDecl → TypeDecl}
    (hterms : ∀ record, (change record).terms = record.terms)
    (hplace : ∀ record, (change record).place = record.place)
    (hname : ∀ record, (change record).name = record.name)
    (hheld : ∀ record kind, held (change record) kind = held record kind) :
    decls.Details (decls.updateType id change) := by
  have hread : (decls.updateType id change).type id = change (decls.type id) ∨
      (decls.updateType id change).type id = decls.type id := by
    rw [type_updateType]
    exact ite_eq_or_eq _ _ _
  have hmembers (kind : SymbolKind) :
      (decls.updateType id change).members (.type id) kind = decls.members (.type id) kind := by
    rw [members_type, members_type]
    obtain h | h := hread <;> simp only [h, hheld]
  refine .of_agrees (.type id) (by simp) (fun declaration hne => ?_) ?_ hmembers
    (.updateType hplace hname)
  · cases declaration with
    | type other =>
        exact (type_updateType ..).trans (if_neg fun h => hne (congrArg _ h.1.symm))
    | _ => rfl
  · refine ⟨?_, ?_, ?_, rfl, fun kind => (hmembers kind).symm ▸ List.Subset.refl _,
      List.Subset.refl _⟩ <;>
      obtain h | h := hread <;>
      simp only [terms, statement, space?, TypeDecl.namespaceName?, h, hterms, hplace, hname]

theorem updateField_details {id : DeclId .field} {change : FieldDecl → FieldDecl}
    (hterms : ∀ record, (change record).terms = record.terms)
    (hname : ∀ record, (change record).name = record.name)
    (hsignature : ∀ record, (change record).signature = record.signature) :
    decls.Details (decls.updateField id change) := by
  have hread : (decls.updateField id change).field id = change (decls.field id) ∨
      (decls.updateField id change).field id = decls.field id := by
    rw [field_updateField]
    exact ite_eq_or_eq _ _ _
  refine .of_agrees (.field id) (by simp) (fun declaration hne => ?_) ?_ (fun _ => rfl)
    (.of_eq rfl)
  · cases declaration with
    | field other =>
        exact (field_updateField ..).trans (if_neg fun h => hne (congrArg _ h.1.symm))
    | _ => rfl
  · refine ⟨?_, ?_, rfl, ?_, fun _ => List.Subset.refl _, List.Subset.refl _⟩ <;>
      obtain h | h := hread <;> simp only [terms, statement, h, hterms, hname, hsignature]

theorem updateMethod_details {id : DeclId .method} {change : MethodDecl → MethodDecl}
    (hterms : ∀ record, (change record).terms = record.terms)
    (hname : ∀ record, (change record).name = record.name)
    (hsignature : ∀ record, (change record).signature = record.signature) :
    decls.Details (decls.updateMethod id change) := by
  have hread : (decls.updateMethod id change).method id = change (decls.method id) ∨
      (decls.updateMethod id change).method id = decls.method id := by
    rw [method_updateMethod]
    exact ite_eq_or_eq _ _ _
  refine .of_agrees (.method id) (by simp) (fun declaration hne => ?_) ?_ (fun _ => rfl)
    (.of_eq rfl)
  · cases declaration with
    | method other =>
        exact (method_updateMethod ..).trans (if_neg fun h => hne (congrArg _ h.1.symm))
    | _ => rfl
  · refine ⟨?_, ?_, rfl, ?_, fun _ => List.Subset.refl _, List.Subset.refl _⟩ <;>
      obtain h | h := hread <;> simp only [terms, statement, h, hterms, hname, hsignature]

theorem updateProperty_details {id : DeclId .property} {change : PropertyDecl → PropertyDecl}
    (hterms : ∀ record, (change record).terms = record.terms)
    (hname : ∀ record, (change record).name = record.name)
    (hsignature : ∀ record, (change record).signature = record.signature)
    (haccessors : ∀ record, record.accessors ⊆ (change record).accessors) :
    decls.Details (decls.updateProperty id change) := by
  have hread : (decls.updateProperty id change).property id = change (decls.property id) ∨
      (decls.updateProperty id change).property id = decls.property id := by
    rw [property_updateProperty]
    exact ite_eq_or_eq _ _ _
  refine .of_agrees (.property id) (by simp) (fun declaration hne => ?_) ?_ (fun _ => rfl)
    (.of_eq rfl)
  · cases declaration with
    | property other =>
        exact (property_updateProperty ..).trans (if_neg fun h => hne (congrArg _ h.1.symm))
    | _ => rfl
  · refine ⟨?_, ?_, rfl, ?_, fun _ => List.Subset.refl _, ?_⟩
    case refine_4 => obtain h | h := hread <;> simp [accessors, h, haccessors]
    all_goals obtain h | h := hread <;> simp only [terms, statement, h, hterms, hname, hsignature]

theorem updateEvent_details {id : DeclId .event} {change : EventDecl → EventDecl}
    (hterms : ∀ record, (change record).terms = record.terms)
    (hname : ∀ record, (change record).name = record.name)
    (htype : ∀ record, (change record).type = record.type)
    (haccessors : ∀ record, record.accessors ⊆ (change record).accessors) :
    decls.Details (decls.updateEvent id change) := by
  have hread : (decls.updateEvent id change).event id = change (decls.event id) ∨
      (decls.updateEvent id change).event id = decls.event id := by
    rw [event_updateEvent]
    exact ite_eq_or_eq _ _ _
  refine .of_agrees (.event id) (by simp) (fun declaration hne => ?_) ?_ (fun _ => rfl)
    (.of_eq rfl)
  · cases declaration with
    | event other =>
        exact (event_updateEvent ..).trans (if_neg fun h => hne (congrArg _ h.1.symm))
    | _ => rfl
  · refine ⟨?_, ?_, rfl, ?_, fun _ => List.Subset.refl _, ?_⟩
    case refine_4 => obtain h | h := hread <;> simp [accessors, h, haccessors]
    all_goals obtain h | h := hread <;> simp only [terms, statement, h, hterms, hname, htype]

end Update

end Declarations

/-- Whether a method that is mapped hands its body on. -/
def Imported.carriesBody (defs : Definitions) (method : Imported .method) : Bool :=
  (defs.method method.definition).body.isSome && method.intent.carriesBody

/-- Declaring one accessor after another. -/
theorem DeclaredAccessors.subset_foldl_add (added held : DeclaredAccessors) :
    held ⊆ added.foldl (fun held (role, method) => held.add role method) held ∧
      added ⊆ added.foldl (fun held (role, method) => held.add role method) held := by
  induction added generalizing held with
  | nil => simp
  | cons entry rest ih =>
      obtain ⟨role, method⟩ := entry
      obtain ⟨hheld, hrest⟩ := ih (held.add role method)
      have hadd : held ⊆ held.add role method ∧ (role, method) ∈ held.add role method := by
        unfold add
        split
        · exact ⟨List.Subset.refl _, List.contains_iff_mem.mp ‹_›⟩
        · simp
      rw [List.foldl_cons]
      exact ⟨List.Subset.trans hadd.1 hheld, List.cons_subset.mpr ⟨hheld hadd.2, hrest⟩⟩

/-- Whether a world differs from another in details of declarations and in what nobody looks at. -/
structure World.Details (world next : World) : Prop where
  defs : next.defs = world.defs
  decls : world.decls.Details next.decls
  scope : ∀ id, (next.importer id).scope = (world.importer id).scope
  types : ∀ id, (next.importer id).types = (world.importer id).types
  methods : ∀ id, (next.importer id).methods = (world.importer id).methods
  slots : ∀ slot method, world.slot? slot = some method → next.slot? slot = some method

/-- Whether no more than that has changed, and methods have the bodies that they had. -/
structure World.Adorns (world next : World) : Prop extends world.Details next where
  bodies : ∀ id, (next.decls.method id).body = (world.decls.method id).body

namespace World

variable {start world next : World}

/-- Changing details of declarations. -/
theorem Details.changeDecls {decls : Declarations} (h : world.decls.Details decls) :
    world.Details { world with decls } :=
  ⟨rfl, h, fun _ => rfl, fun _ => rfl, fun _ => rfl, fun _ _ h => h⟩

theorem Details.refl (world : World) : world.Details world :=
  .changeDecls (.refl _)

theorem Details.trans (h : start.Details world) (h' : world.Details next) : start.Details next where
  defs := h'.defs.trans h.defs
  decls := h.decls.trans h'.decls
  scope id := (h'.scope id).trans (h.scope id)
  types id := (h'.types id).trans (h.types id)
  methods id := (h'.methods id).trans (h.methods id)
  slots slot method hfilled := h'.slots slot method (h.slots slot method hfilled)

theorem Adorns.refl (world : World) : world.Adorns world :=
  ⟨.refl world, fun _ => rfl⟩

theorem Adorns.trans (h : start.Adorns world) (h' : world.Adorns next) : start.Adorns next :=
  ⟨h.toDetails.trans h'.toDetails, fun id => (h'.bodies id).trans (h.bodies id)⟩

theorem Quiet.adorns (h : world.Quiet next) : world.Adorns next :=
  ⟨⟨h.defs, h.decls ▸ .refl _, h.scope, h.types, h.methods, h.slots⟩, fun _ => by rw [h.decls]⟩

end World

namespace ImportJob

open Graft.Task

variable {job : ImportJob} {start world : World}

/-- Importing and changing details of declarations, bodies aside. -/
theorem yields_adorn {change : Declarations → Declarations} (h : start.Adorns world)
    (hdetails : world.decls.Details (change world.decls))
    (hbodies : ∀ id, ((change world.decls).method id).body = (world.decls.method id).body) :
    Yields world (changeDecls change) fun _ => start.Adorns :=
  .changeDecls (h.trans ⟨.changeDecls hdetails, hbodies⟩)

theorem yields_adornType {id : DeclId .type} {change : TypeDecl → TypeDecl} (h : start.Adorns world)
    (hchange : ∀ record, change record =
      { record with
        flags := (change record).flags
        interfaces := (change record).interfaces
        generics := (change record).generics }) :
    Yields world (changeDecls (·.updateType id change)) fun _ => start.Adorns := by
  refine yields_adorn h (world.decls.updateType_details ?_ ?_ ?_ fun record kind => ?_) fun _ => rfl
  · intro record; rw [hchange]
  · intro record; rw [hchange]
  · intro record; rw [hchange]
  · rw [hchange]
    cases kind <;> rfl

/-- The details of a type. -/
theorem yields_detailType {type : Imported .type} :
    Yields world (job.detailType type) fun _ => world.Adorns := by
  unfold detailType
  refine .get (.bind (yields_adornType (.refl world) fun _ => rfl) fun _ flagged hflagged => ?_)
  refine .bind (.forM (fun _ => world.Adorns) hflagged ?_) fun _ next hnext => ?_
  · intro done interface rest _ next hnext
    refine .bind (.quiet (ImporterId.quiet_importTypeRef interface)) fun _ last ⟨hquiet, _⟩ => ?_
    have hlast := hnext.trans hquiet.adorns
    unfold declareInterface
    refine .get ?_
    dsimp only
    split
    · exact .pure hlast
    · exact yields_adornType hlast fun _ => rfl
  · split
    · exact .pure hnext
    · refine .bind (.quiet (.mapM fun _ _ => ImporterId.quiet_importGenericParam))
        fun _ last ⟨hquiet, _⟩ => ?_
      exact yields_adornType (hnext.trans hquiet.adorns) fun _ => rfl

/-- The details of a field. -/
theorem yields_detailField {field : Imported .field} :
    Yields world (detailField field) fun _ => world.Adorns :=
  .get (yields_adorn (.refl world)
    (world.decls.updateField_details (fun _ => rfl) (fun _ => rfl) fun _ => rfl) fun _ => rfl)

/-- The details of a method. Its body is handed on unless it is a mere dependency. -/
theorem yields_detailMethod {method : Imported .method}
    (hhas : world.decls.has (.method method.declaration) = true) :
    Yields world (job.detailMethod method) fun _ next => world.Details next ∧
      ∀ id, (next.decls.method id).body.isSome = true ↔
        (world.decls.method id).body.isSome = true ∨
          id = method.declaration ∧ method.carriesBody world.defs = true := by
  unfold detailMethod
  refine .get (.bind (yields_adorn (.refl world) (world.decls.updateMethod_details
    (fun _ => rfl) (fun _ => rfl) fun _ => rfl) fun id => ?_) fun _ flagged hflagged => ?_)
  · rw [Declarations.method_updateMethod]
    split <;> rfl
  refine .bind (.forM (fun _ => world.Adorns) hflagged ?_) fun _ next hnext => ?_
  · intro done override rest _ next hnext
    refine .bind (.quiet ImporterId.quiet_importOverride) fun _ last ⟨hquiet, _⟩ => ?_
    refine yields_adorn (hnext.trans hquiet.adorns) (Declarations.updateMethod_details _
      (fun _ => rfl) (fun _ => rfl) fun _ => rfl) fun id => ?_
    rw [Declarations.method_updateMethod]
    split <;> rfl
  · have hbody (id : DeclId .method) : (next.decls.method id).body = (world.decls.method id).body :=
      hnext.bodies id
    split
    · rename_i body hsome hcarries
      refine .changeDecls ⟨hnext.toDetails.trans (.changeDecls (Declarations.updateMethod_details _
        (fun _ => rfl) (fun _ => rfl) fun _ => rfl)), fun id => ?_⟩
      have hcarries : method.carriesBody world.defs = true := by
        simp [Imported.carriesBody, hsome, hcarries]
      rw [Declarations.method_updateMethod]
      split
      · simp_all
      · rename_i hne
        have hne : id ≠ method.declaration := by
          rintro rfl
          exact hne ⟨rfl, hnext.decls.keeps.has _ hhas⟩
        simp [hbody, hne]
    · rename_i hnone
      refine .pure ⟨hnext.toDetails, fun id => ?_⟩
      have hcarries : method.carriesBody world.defs = false := by
        cases hbody : (world.defs.method method.definition).body with
        | none => simp [Imported.carriesBody, hbody]
        | some body => simpa [Imported.carriesBody, hbody] using hnone body
      simp [hbody, hcarries]

variable (job) in
/-- The details of a property. -/
theorem yields_detailProperty {property : Imported .property}
    (hhas : world.decls.has (.property property.declaration) = true) :
    Yields world (job.detailProperty property) fun _ next => world.Adorns next ∧
      job.declaredAccessors world (world.defs.property property.definition).accessors ⊆
        next.decls.accessors (.property property.declaration) := by
  unfold detailProperty
  refine .get (.changeDecls ⟨⟨.changeDecls ?_, fun _ => rfl⟩, ?_⟩)
  · exact world.decls.updateProperty_details (fun _ => rfl) (fun _ => rfl) (fun _ => rfl)
      fun record => (DeclaredAccessors.subset_foldl_add _ _).1
  · simp only [Declarations.accessors, Declarations.property_updateProperty, hhas, and_self, if_true]
    exact (DeclaredAccessors.subset_foldl_add _ _).2

variable (job) in
/-- The details of an event. -/
theorem yields_detailEvent {event : Imported .event}
    (hhas : world.decls.has (.event event.declaration) = true) :
    Yields world (job.detailEvent event) fun _ next => world.Adorns next ∧
      job.declaredAccessors world (world.defs.event event.definition).accessors ⊆
        next.decls.accessors (.event event.declaration) := by
  unfold detailEvent
  refine .get (.changeDecls ⟨⟨.changeDecls ?_, fun _ => rfl⟩, ?_⟩)
  · exact world.decls.updateEvent_details (fun _ => rfl) (fun _ => rfl) (fun _ => rfl)
      fun record => (DeclaredAccessors.subset_foldl_add _ _).1
  · simp only [Declarations.accessors, Declarations.event_updateEvent, hhas, and_self, if_true]
    exact (DeclaredAccessors.subset_foldl_add _ _).2

/-- Whether all details have been added. -/
structure Detailed (job : ImportJob) (members : Members) (world next : World) : Prop extends
    world.Details next where
  bodies : ∀ id, (next.decls.method id).body.isSome = true ↔
    (world.decls.method id).body.isSome = true ∨
      ∃ method ∈ members.methods, id = method.declaration ∧ method.carriesBody world.defs = true
  properties : ∀ property ∈ members.properties,
    job.declaredAccessors world (world.defs.property property.definition).accessors ⊆
      next.decls.accessors (.property property.declaration)
  events : ∀ event ∈ members.events,
    job.declaredAccessors world (world.defs.event event.definition).accessors ⊆
      next.decls.accessors (.event event.declaration)

theorem declaredAccessors_eq {next : World} (h : world.Details next) (accessors : Accessors) :
    job.declaredAccessors next accessors = job.declaredAccessors world accessors := by
  simp only [declaredAccessors, h.defs, h.methods]

/-- The methods are given their bodies one after another. -/
theorem yields_detailMethods {methods : List (Imported .method)} (h : start.Adorns world)
    (hhas : ∀ method ∈ methods, start.decls.has (.method method.declaration) = true) :
    Yields world (methods.forM job.detailMethod) fun _ next => start.Details next ∧
      ∀ id, (next.decls.method id).body.isSome = true ↔
        (start.decls.method id).body.isSome = true ∨
          ∃ method ∈ methods, id = method.declaration ∧ method.carriesBody start.defs = true := by
  refine .forM (fun (done : List (Imported .method)) next => start.Details next ∧
    ∀ id, (next.decls.method id).body.isSome = true ↔
      (start.decls.method id).body.isSome = true ∨
        ∃ method ∈ done, id = method.declaration ∧ method.carriesBody start.defs = true)
    ⟨h.toDetails, fun id => by simp [h.bodies]⟩ ?_
  rintro done method rest heq next ⟨hnext, hbodies⟩
  refine (yields_detailMethod (hnext.decls.keeps.has _ (hhas method (by simp [heq])))).mono ?_
  rintro _ last ⟨hlast, hlastBodies⟩
  refine ⟨hnext.trans hlast, fun id => ?_⟩
  rw [hlastBodies, hbodies, hnext.defs, or_assoc]
  simp only [List.mem_append, List.mem_singleton, or_and_right, exists_or, exists_eq_left]

/-- Properties or events are given their accessors one after another. -/
theorem yields_linkAll {kind : SymbolKind} {members : List (Imported kind)}
    {toDeclaration : DeclId kind → Declaration} {detail : Imported kind → Task Unit}
    (accessorsOf : Definitions → DefId kind → Accessors) (h : start.Details world)
    (hhas : ∀ member ∈ members, start.decls.has (toDeclaration member.declaration) = true)
    (hdetail : ∀ member world, world.decls.has (toDeclaration member.declaration) = true →
      Yields world (detail member) fun _ next => world.Adorns next ∧
        job.declaredAccessors world (accessorsOf world.defs member.definition) ⊆
          next.decls.accessors (toDeclaration member.declaration)) :
    Yields world (members.forM detail) fun _ next => world.Adorns next ∧ ∀ member ∈ members,
      job.declaredAccessors start (accessorsOf start.defs member.definition) ⊆
        next.decls.accessors (toDeclaration member.declaration) := by
  refine .forM (fun (done : List (Imported kind)) next => world.Adorns next ∧ ∀ member ∈ done,
    job.declaredAccessors start (accessorsOf start.defs member.definition) ⊆
      next.decls.accessors (toDeclaration member.declaration)) ⟨.refl world, nofun⟩ ?_
  rintro done member rest heq next ⟨hnext, hdone⟩
  have hlater := h.trans hnext.toDetails
  have hthere (other : Imported kind) (hmem : other ∈ members) :
      next.decls.has (toDeclaration other.declaration) = true :=
    hlater.decls.keeps.has _ (hhas other hmem)
  refine (hdetail member next (hthere member (by simp [heq]))).mono ?_
  rintro _ last ⟨hlast, haccessors⟩
  refine ⟨hnext.trans hlast, fun other hmem => ?_⟩
  obtain hmem | hmem := List.mem_append.mp hmem
  · have hstays := hlast.decls.keeps.stays _ (hthere other (by simp [heq, hmem]))
    exact List.Subset.trans (hdone other hmem) hstays.accessors
  · rw [List.mem_singleton.mp hmem]
    rwa [declaredAccessors_eq hlater, hlater.defs] at haccessors

/-- All details are added once everything has been declared. -/
theorem yields_details {α : Type} {types : List (Imported .type)} {members : Members}
    {rest : Task α} {post : α → World → Prop}
    (hhas : ∀ item ∈ members.counterparts, world.decls.has item.declaration = true)
    (hrest : ∀ next, Detailed job members world next → Yields next rest post) :
    Yields world (do
      types.forM job.detailType
      members.fields.forM detailField
      members.methods.forM job.detailMethod
      members.properties.forM job.detailProperty
      members.events.forM job.detailEvent
      rest) post := by
  have hmethods (method : Imported .method) (hmem : method ∈ members.methods) :
      world.decls.has (.method method.declaration) = true :=
    hhas _ (Members.mem_counterparts.mpr (.inr (.inl ⟨method, hmem, rfl⟩)))
  have hproperties (property : Imported .property) (hmem : property ∈ members.properties) :
      world.decls.has (.property property.declaration) = true :=
    hhas _ (Members.mem_counterparts.mpr (.inr (.inr (.inl ⟨property, hmem, rfl⟩))))
  have hevents (event : Imported .event) (hmem : event ∈ members.events) :
      world.decls.has (.event event.declaration) = true :=
    hhas _ (Members.mem_counterparts.mpr (.inr (.inr (.inr ⟨event, hmem, rfl⟩))))
  refine .bind (.forM (fun _ => world.Adorns) (.refl world) ?_) fun _ typed htyped => ?_
  · exact fun _ _ _ _ next hnext => yields_detailType.mono fun _ _ => hnext.trans
  refine .bind (.forM (fun _ => world.Adorns) htyped ?_) fun _ flagged hflagged => ?_
  · exact fun _ _ _ _ next hnext => yields_detailField.mono fun _ _ => hnext.trans
  refine .bind (yields_detailMethods hflagged hmethods) fun _ bodied ⟨hbodied, hbodies⟩ => ?_
  refine .bind (yields_linkAll (fun defs id => (defs.property id).accessors) hbodied hproperties
    fun _ _ => yields_detailProperty job)
    fun _ linked ⟨hlinked, haccessors⟩ => ?_
  refine .bind (yields_linkAll (fun defs id => (defs.event id).accessors)
    (hbodied.trans hlinked.toDetails) hevents fun _ _ => yields_detailEvent job)
    fun _ last ⟨hlast, haccessors'⟩ => hrest last ?_
  refine
    { hbodied.trans (hlinked.toDetails.trans hlast.toDetails) with
      bodies := fun id => ?_
      properties := fun property hmem => ?_
      events := haccessors' }
  · rw [hlast.bodies, hlinked.bodies, hbodies]
  · have hthere := hlinked.decls.keeps.has _ (hbodied.decls.keeps.has _ (hproperties property hmem))
    exact List.Subset.trans (haccessors property hmem) (hlast.decls.keeps.stays _ hthere).accessors

/-- Whether an import from a world has come to its end: the types that have an intent and the
members of them that have one are mapped, and the details of what they stand for are added. -/
structure Ended (job : ImportJob) (world : World) (patch : Patch) (types : List (Imported .type))
    (members : Members) (typed declared next : World) : Prop where
  importer : job.importer = ⟨world.importers.next⟩
  views : types.map (fun type => (type.definition, type.intent)) =
    (job.typesToDeclare world.defs).filterMap fun (id, outer) =>
      (job.manifest.intentOf (world.defs.token (.type id)) outer).map (id, ·)
  joined : Joined typed job world.defs patch.modules (fun item =>
    item ∈ types.map (·.counterpart .type .type) ∨ item ∈ members.counterparts) declared
  sourced : job.Sourced world.defs (fun item =>
    item ∈ types.map (·.counterpart .type .type) ∨ item ∈ members.counterparts) declared
  listed : (members.counterparts.map Counterpart.view).Perm
    (types.flatMap (job.membersIn world.defs))
  scope : (declared.importer job.importer).scope = job.module
  detailed : Detailed job members declared next

end ImportJob

/-- An import comes to its end if it succeeds. -/
theorem Task.importItems_ended {module : DefId .module} {manifest : Manifest} {world next : World}
    {patch : Patch} {items : List Counterpart}
    (hon : (importItems module manifest).on world = (.ok (patch, items), next)) :
    ∃ (job : ImportJob) (types : List (Imported .type)) (members : ImportJob.Members)
      (typed declared : World), job.module = module ∧ job.manifest = manifest ∧
        items = types.map (·.counterpart .type .type) ++ members.counterparts ∧
        job.Ended world patch types members typed declared next := by
  have hyields : Yields world (importItems module manifest) fun answer next =>
      ∃ (job : ImportJob) (types : List (Imported .type)) (members : ImportJob.Members)
        (typed declared : World), job.module = module ∧ job.manifest = manifest ∧
          answer.2 = types.map (·.counterpart .type .type) ++ members.counterparts ∧
          job.Ended world answer.1 types members typed declared next := by
    unfold importItems
    refine .bind (?_ : Yields world _ fun importer next => importer = ⟨world.importers.next⟩ ∧
      next = { world with importers := world.importers.push { scope := module } }) ?_
    · intro _ _ hon
      cases hon
      exact ⟨rfl, rfl⟩
    rintro importer _ ⟨rfl, rfl⟩
    refine .get (.bind (yields_requireModules rfl) ?_)
    rintro ⟨patch, targets⟩ required ⟨hsame, hrequires⟩
    -- The import runs in three passes: types, then members, then what both refer to.
    let job : ImportJob := { importer := ⟨world.importers.next⟩, module, manifest, targets }
    have hbegin : job.Progress world.defs patch.modules (fun _ => False) required :=
      ImportJob.progress_begin rfl hsame hrequires
    let history : ImportHistory := { origin := world, scope := module, events := [] }
    have hfresh : (history.world 0).Slotted job.importer := history.slotted 0
    refine .bind (ImportJob.yields_declareTypes hbegin)
      fun types typed ⟨htyped, hstill, hviews⟩ => ?_
    replace hstill : (history.world 0).SameMethods job.importer typed :=
      (hsame.sameMethods hfresh.live).trans hstill
    have htypes : ∀ item ∈ types.map (·.counterpart .type .type),
        ∃ id, item.definition = .type id := by
      intro item hitem
      obtain ⟨type, -, rfl⟩ := List.mem_map.mp hitem
      exact ⟨type.definition, rfl⟩
    refine .bind (ImportJob.yields_members ImportJob.preserves_sourced
      ⟨htyped.joined htypes, htyped.sourced (hstill.slotted hfresh) htypes⟩)
      fun members declared ⟨⟨hjoined, hsourced⟩, hmembers⟩ => ?_
    refine ImportJob.yields_details (fun item hmem => ?_) fun next hdetailed => ?_
    · exact hjoined.progress.mapped.there item (.inr hmem)
    · intro _ last hon
      cases hon
      have hscope : (declared.importer job.importer).scope = module :=
        hjoined.scope.trans (hstill.scope.trans
          (congrArg Importer.scope (@ImportHistory.importer_start history)))
      exact ⟨job, types, members, typed, declared, rfl, rfl, rfl, rfl, hviews, hjoined, hsourced,
        hmembers, hscope, { hdetailed with }⟩
  exact hyields (patch, items) next hon

end Graft
