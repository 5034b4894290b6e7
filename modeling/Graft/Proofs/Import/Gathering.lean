import Graft.Proofs.Import.Passing

/-!
# The members that an import maps

The members of the types that have been mapped are declared type by type, and within each type kind
by kind. What has been mapped in the end are the types and, of each of them, the members that have
an intent (`yields_members`).
-/

namespace Graft

namespace ImportJob

open Graft.Task

variable {job : ImportJob} {defs : Definitions} {roots : List (DeclId .module)}
  {items : Counterpart → Prop} {inv : (Counterpart → Prop) → World → Prop} {typed world : World}
  {kind : SymbolKind}

/-- The members of one kind that are mapped in a type, and what each is for. -/
def mappedIn (job : ImportJob) (defs : Definitions) (type : Imported .type) (kind : SymbolKind) :
    List (Definition × Intent) :=
  (defs.members (.type type.definition) kind).filterMap fun definition =>
    (job.manifest.intentOf (defs.token definition) (some type.intent)).map (definition, ·)

/-- The members that are mapped in a type, and what each is for. -/
def membersIn (job : ImportJob) (defs : Definitions) (type : Imported .type) :
    List (Definition × Intent) :=
  [.field, .method, .property, .event].flatMap (job.mappedIn defs type)

/-- Whether something about what is mapped and about the world stays true when a member of a mapped
type is declared. -/
structure Preserves (job : ImportJob) (defs : Definitions)
    (inv : (Counterpart → Prop) → World → Prop) : Prop where
  unchanged : ∀ {items world}, inv items world → world.defs = defs
  field : ∀ (type : Imported .type) (id : DefId .field) (intent : Intent) {items world},
    inv items world → items (type.counterpart .type .type) →
    id ∈ (defs.type type.definition).fields →
    Yields world (job.declareField type.declaration id (defs.token (.field id)) intent)
      fun declaration => inv fun item =>
        items item ∨ item = ⟨.field id, intent, .field declaration⟩
  method : ∀ (type : Imported .type) (id : DefId .method) (intent : Intent) {items world},
    inv items world → items (type.counterpart .type .type) →
    id ∈ (defs.type type.definition).methods →
    Yields world (job.declareMethod type.declaration id (defs.token (.method id)) intent)
      fun declaration => inv fun item =>
        items item ∨ item = ⟨.method id, intent, .method declaration⟩
  property : ∀ (type : Imported .type) (id : DefId .property) (intent : Intent) {items world},
    inv items world → items (type.counterpart .type .type) →
    id ∈ (defs.type type.definition).properties →
    Yields world (job.declareProperty type.declaration id (defs.token (.property id)) intent)
      fun declaration => inv fun item =>
        items item ∨ item = ⟨.property id, intent, .property declaration⟩
  event : ∀ (type : Imported .type) (id : DefId .event) (intent : Intent) {items world},
    inv items world → items (type.counterpart .type .type) →
    id ∈ (defs.type type.definition).events →
    Yields world (job.declareEvent type.declaration id (defs.token (.event id)) intent)
      fun declaration => inv fun item =>
        items item ∨ item = ⟨.event id, intent, .event declaration⟩

/-- Members of one kind are mapped if they have an intent. -/
theorem yields_declareMembers {toDefinition : DefId kind → Definition}
    {toDeclaration : DeclId kind → Declaration} {members : List (DefId kind)}
    {type : Imported .type} {declare : DefId kind → Token → Intent → Task (DeclId kind)} (h : inv items world)
    (hmembers : defs.members (.type type.definition) kind = members.map toDefinition)
    (hunchanged : ∀ {items world}, inv items world → world.defs = defs)
    (hdeclare : ∀ id ∈ members, ∀ intent items' next, (∀ item, items item → items' item) →
      inv items' next →
      Yields next (declare id (defs.token (toDefinition id)) intent) fun declaration last =>
        inv (fun item => items' item ∨ item = ⟨toDefinition id, intent, toDeclaration declaration⟩)
          last) :
    Yields world (job.declareMembers members toDefinition type.intent declare) fun found next =>
      inv (Collected toDefinition toDeclaration items found) next ∧
        (found.map (·.counterpart toDefinition toDeclaration)).map Counterpart.view =
          job.mappedIn defs type kind := by
  have hcongr {items items' : Counterpart → Prop} {world : World} (h : inv items world)
      (hitems : ∀ item, items item ↔ items' item) : inv items' world := by
    rwa [show items' = items from funext fun item => propext (hitems item).symm]
  unfold declareMembers mappedIn
  rw [hmembers, List.filterMap_map]
  simp only [List.map_map]
  refine .collect (fun found => inv (Collected toDefinition toDeclaration items found)) ?_ ?_
  · exact hcongr h fun item => by simp [Collected]
  · intro id hmem found next hfound
    refine .get ?_
    rw [hunchanged hfound]
    split
    · rename_i hnone
      exact .pure ⟨by simp [hnone], by simpa using hfound⟩
    · rename_i intent hintent
      refine .bind (hdeclare id hmem intent _ next (fun _ => .inl) hfound)
        fun declaration last h => ?_
      refine .pure ⟨by simp [hintent, Imported.counterpart, Counterpart.view], ?_⟩
      exact hcongr h (collected_append ⟨id, intent, declaration⟩)

/-- The members of the types that the import has come to are mapped, and no other ones. -/
structure Gathered (inv : (Counterpart → Prop) → World → Prop) (job : ImportJob)
    (defs : Definitions) (types done : List (Imported .type)) (members : Members) (world : World) :
    Prop where
  holds : inv (fun item =>
    item ∈ types.map (·.counterpart .type .type) ∨ item ∈ members.counterparts) world
  views : (members.counterparts.map Counterpart.view).Perm (done.flatMap (job.membersIn defs))

/-- The members of one more type are mapped. -/
theorem yields_declareMembersOf {types done : List (Imported .type)} {members : Members}
    {type : Imported .type} (hpreserves : job.Preserves defs inv) (hmem : type ∈ types)
    (h : Gathered inv job defs types done members world) :
    Yields world (job.declareMembersOf members type) fun members next =>
      Gathered inv job defs types (done ++ [type]) members next := by
  have htype : type.counterpart .type .type ∈ types.map (·.counterpart .type .type) :=
    List.mem_map_of_mem hmem
  unfold declareMembersOf
  refine .get ?_
  rw [hpreserves.unchanged h.holds]
  refine .bind (yields_declareMembers h.holds rfl hpreserves.unchanged
    fun id hmem intent items' next hitems h =>
      hpreserves.field type id intent h (hitems _ (.inl htype)) hmem)
    fun fields next ⟨hheld, hfields⟩ => ?_
  refine .bind (yields_declareMembers hheld rfl hpreserves.unchanged
    fun id hmem intent items' next hitems h =>
      hpreserves.method type id intent h (hitems _ (.inl (.inl htype))) hmem)
    fun methods next ⟨hheld, hmethods⟩ => ?_
  refine .bind (yields_declareMembers hheld rfl hpreserves.unchanged
    fun id hmem intent items' next hitems h =>
      hpreserves.property type id intent h (hitems _ (.inl (.inl (.inl htype)))) hmem)
    fun properties next ⟨hheld, hproperties⟩ => ?_
  refine .bind (yields_declareMembers hheld rfl hpreserves.unchanged
    fun id hmem intent items' next hitems h =>
      hpreserves.event type id intent h (hitems _ (.inl (.inl (.inl (.inl htype))))) hmem)
    fun events last ⟨hheld, hevents⟩ => .pure ⟨?_, ?_⟩
  · convert hheld using 2 with item
    simp only [Collected, Members.counterparts, List.mem_append, List.map_append, List.mem_map]
    grind
  · have hmembers : job.membersIn defs type = job.mappedIn defs type .field ++
        (job.mappedIn defs type .method ++
          (job.mappedIn defs type .property ++ job.mappedIn defs type .event)) := by
      simp [membersIn]
    rw [List.flatMap_append, List.flatMap_singleton, hmembers, ← hfields, ← hmethods, ← hproperties,
      ← hevents]
    refine .trans (List.perm_iff_count.mpr fun view => ?_) (h.views.append_right _)
    simp only [Members.counterparts, List.map_append, List.count_append]
    omega

/-- What has been mapped once all members are declared. -/
theorem yields_members {types : List (Imported .type)} (hpreserves : job.Preserves defs inv)
    (h : inv (fun item => item ∈ types.map (·.counterpart .type .type)) world) :
    Yields world (types.foldlM job.declareMembersOf {}) fun members next =>
      Gathered inv job defs types types members next := by
  refine .foldlM (Gathered inv job defs types) ⟨?_, ?_⟩ ?_
  · convert h using 2 with item
    simp [Members.counterparts]
  · simp [Members.counterparts]
  · rintro done type rest heq members next h
    exact yields_declareMembersOf hpreserves (by simp [heq]) h

/-- What is declared stays what has been mapped. -/
theorem preserves_joined : job.Preserves defs (Joined typed job defs roots) where
  unchanged h := h.progress.unchanged
  field _ _ _ _ _ h howner hmem := yields_declareField h howner hmem
  method _ _ _ _ _ h howner hmem := yields_declareMethod h howner hmem
  property _ _ _ _ _ h howner hmem := yields_declareProperty h howner hmem
  event _ _ _ _ _ h howner hmem := yields_declareEvent h howner hmem

end ImportJob

end Graft
