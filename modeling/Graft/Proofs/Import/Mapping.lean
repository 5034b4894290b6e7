import Graft.Proofs.Import.Patching
import Graft.Proofs.Import.Placing

/-!
# What an import maps

`importItems` is an import that also answers which definitions it has mapped, and to what
(`importPatch_eq`). However far it has come, what is declared is what has been mapped (`Mapped`):
every mapped definition stands for a declaration with its name and policy in the scope where it
lands, and what is listed in a scope of the patch is some of it.
-/

namespace Graft

/-- A definition of a patch module, what it is for, and the declaration that it stands for. -/
structure Counterpart where
  definition : Definition
  intent : Intent
  declaration : Declaration
  deriving DecidableEq

/-- The definition of a counterpart and what it is for. -/
def Counterpart.view (item : Counterpart) : Definition × Intent :=
  (item.definition, item.intent)

/-- What an import knows of a definition of any kind. -/
def Imported.counterpart {kind : SymbolKind} (toDefinition : DefId kind → Definition)
    (toDeclaration : DeclId kind → Declaration) (item : Imported kind) : Counterpart :=
  ⟨toDefinition item.definition, item.intent, toDeclaration item.declaration⟩

/-- Everything that is mapped among the members of types. -/
def ImportJob.Members.counterparts (members : ImportJob.Members) : List Counterpart :=
  members.fields.map (·.counterpart .field .field)
    ++ members.methods.map (·.counterpart .method .method)
    ++ members.properties.map (·.counterpart .property .property)
    ++ members.events.map (·.counterpart .event .event)

theorem ImportJob.Members.mem_counterparts {members : ImportJob.Members} {item : Counterpart} :
    item ∈ members.counterparts ↔
      (∃ field ∈ members.fields, field.counterpart .field .field = item) ∨
      (∃ method ∈ members.methods, method.counterpart .method .method = item) ∨
      (∃ property ∈ members.properties, property.counterpart .property .property = item) ∨
      ∃ event ∈ members.events, event.counterpart .event .event = item := by
  simp only [counterparts, List.mem_append, List.mem_map, or_assoc]

/-- The patch that a patch module and its manifest describe, and everything that is mapped. -/
def Task.importItems (module : DefId .module) (manifest : Manifest) :
    Task (Patch × List Counterpart) := do
  let importer ← makeImporter module
  let moduleName := ((← get).defs.module module).name
  let (patch, targets) ←
    requireModules { name := manifest.name.getD moduleName } manifest.required
  let job : ImportJob := { importer, module, manifest, targets }
  let types ← job.declareTypes
  let members ← types.foldlM job.declareMembersOf {}
  types.forM job.detailType
  members.fields.forM ImportJob.detailField
  members.methods.forM job.detailMethod
  members.properties.forM job.detailProperty
  members.events.forM job.detailEvent
  log (.patchImported types.length members.methods.length moduleName)
  return (patch, types.map (·.counterpart .type .type) ++ members.counterparts)

theorem Task.importPatch_eq (module : DefId .module) (manifest : Manifest) :
    importPatch module manifest = Prod.fst <$> importItems module manifest := by
  simp only [importPatch, importItems, map_bind, map_pure]

/-- What an import answers and leaves behind it answers and leaves behind with what is mapped. -/
theorem Task.importItems_ok {module : DefId .module} {manifest : Manifest} {world next : World}
    {patch : Patch} (hon : (importPatch module manifest).on world = (.ok patch, next)) :
    ∃ items, (importItems module manifest).on world = (.ok (patch, items), next) := by
  rw [importPatch_eq, on_map] at hon
  cases hitems : (importItems module manifest).on world with
  | mk outcome last =>
      rw [hitems] at hon
      cases outcome with
      | error error => cases hon
      | ok answer =>
          obtain ⟨found, items⟩ := answer
          cases hon
          exact ⟨items, rfl⟩

namespace Manifest

variable (manifest : Manifest) (defs : Definitions)

/-- The name of the module that the top-level type with a token lands in: the one that its mapping
names, or else the only one that is required. -/
def targetModule? (token : Token) : Option String :=
  ((manifest.mappings.get? token).bind (·.targetModule)).or <|
    match manifest.required with
    | [(name, _)] => some name
    | _ => none

/-- The name under which a definition is declared, with the namespace of a top-level type: the one
that its mapping names, or else its own. Full names are cut at the last dot. -/
def nameIn : Definition → Option String × String
  | .type id =>
    match defs.outer? id with
    | some _ => (none, manifest.targetName (defs.token (.type id)) (defs.type id).name)
    | none =>
      let (space, name) :=
        Text.unqualify (manifest.targetName (defs.token (.type id)) (defs.typeName id))
      (some space, name)
  | definition =>
    (none, manifest.targetName (defs.token definition) (defs.simpleName definition))

end Manifest

namespace Declarations

/-- Whether a declaration is held by another one, directly or indirectly, or is that one. -/
inductive Below (decls : Declarations) (top : Declaration) : Declaration → Prop where
  | top : Below decls top top
  | member {holder node : Declaration} {kind : SymbolKind} (hholder : Below decls top holder)
      (hmem : node ∈ decls.members holder kind) : Below decls top node

/-- Whether modules are those that a patch needs, each once and with the access that is asked for,
and are known by their names. -/
structure Required (required : List (String × Bool)) (modules : List (DeclId .module))
    (targets : Dictionary String (DeclId .module)) (decls : Declarations) : Prop where
  nodup : (modules.map fun id => (decls.module id).name).Nodup
  required : ∀ name readOnly, (name, readOnly) ∈ required ↔ ∃ id ∈ modules,
    (decls.module id).name = name ∧ (decls.module id).terms = ⟨.failIfMissing, readOnly⟩
  targets : ∀ name id, targets.get? name = some id → id ∈ modules ∧ (decls.module id).name = name

theorem Required.keeps {required : List (String × Bool)} {modules : List (DeclId .module)}
    {targets : Dictionary String (DeclId .module)} {decls decls' : Declarations}
    (h : Required required modules targets decls) (hkeeps : decls.Keeps decls')
    (hliving : ∀ id ∈ modules, decls.has (.module id) = true) :
    Required required modules targets decls' := by
  have hname (id : DeclId .module) (hmem : id ∈ modules) :
      (decls'.module id).name = (decls.module id).name := (hkeeps.stays _ (hliving id hmem)).name
  have hterms (id : DeclId .module) (hmem : id ∈ modules) :
      (decls'.module id).terms = (decls.module id).terms := (hkeeps.stays _ (hliving id hmem)).terms
  refine ⟨?_, fun name readOnly => (h.required name readOnly).trans ?_, fun name id hget => ?_⟩
  · rw [List.map_congr_left hname]
    exact h.nodup
  · refine exists_congr fun id => and_congr_right fun hmem => ?_
    rw [hname id hmem, hterms id hmem]
  · obtain ⟨hmem, heq⟩ := h.targets name id hget
    exact ⟨hmem, (hname id hmem).trans heq⟩

end Declarations

namespace ImportJob

variable (job : ImportJob) (defs : Definitions) (roots : List (DeclId .module))
  (items : Counterpart → Prop)

/-- The scopes in which a mapped definition may be declared: what the type around it stands for, or
the module that a top-level type lands in. -/
inductive Lands : Definition → Declaration → Prop
  | top {id : DefId .type} {name : String} {target : DeclId .module} (houter : defs.outer? id = none)
      (hname : job.manifest.targetModule? (defs.token (.type id)) = some name)
      (htarget : job.targets.get? name = some target) : Lands (.type id) (.module target)
  | nested {id outer around : DefId .type} {item : Counterpart} (houter : defs.outer? id = some outer)
      (hitem : items item) (hdefinition : item.definition = .type around)
      (htoken : defs.token (.type around) = defs.token (.type outer)) :
      Lands (.type id) item.declaration
  | member {owner : DefId .type} {definition : Definition} {item : Counterpart}
      (hkind : definition.kind ≠ .type) (hitem : items item)
      (hdefinition : item.definition = .type owner)
      (hmem : definition ∈ defs.members (.type owner) definition.kind) :
      Lands definition item.declaration

/-- Whether a scope is part of what is declared: a module of the patch, or something mapped. -/
def Holds (holder : Declaration) : Prop :=
  (∃ id ∈ roots, holder = .module id) ∨ ∃ item, items item ∧ item.declaration = holder

/-- Whether what is declared is what has been mapped. -/
structure Mapped (decls : Declarations) : Prop where
  living : ∀ id ∈ roots, decls.has (.module id) = true
  there : ∀ item, items item → decls.has item.declaration = true
  kinds : ∀ item, items item → item.declaration.kind = item.definition.kind
  policies : ∀ item, items item → (decls.terms item.declaration).policy = item.intent.policy
  named : ∀ item, items item → decls.Named (job.manifest.nameIn defs item.definition).1
    (job.manifest.nameIn defs item.definition).2 item.declaration
  lands : ∀ item, items item → ∃ holder, Holds roots items holder ∧
    job.Lands defs items item.definition holder ∧
    item.declaration ∈ decls.members holder item.definition.kind
  within : ∀ item, items item → ∃ id ∈ roots, decls.Below (.module id) item.declaration
  only : ∀ holder kind node, Holds roots items holder → node ∈ decls.members holder kind →
    node.kind = kind ∧ (∃ item, items item ∧ item.declaration = node) ∧
      (decls.terms node).readOnly = (decls.terms holder).readOnly
  apart : ∀ holder kind left right, Holds roots items holder → kind ≠ .method →
    left ∈ decls.members holder kind → right ∈ decls.members holder kind →
    (decls.statement left).name = (decls.statement right).name →
    decls.space? left = decls.space? right → left = right

/-- Whether the importer binds the types and methods that have been mapped, and no other ones. -/
structure Binds (state : Importer) : Prop where
  types : ∀ token id, state.types.get? token = some id → ∃ item around, items item ∧
    item.definition = .type around ∧ defs.token (.type around) = token ∧
    item.declaration = .type id
  methods : ∀ token id, state.methods.get? token = some id → ∃ item method, items item ∧
    item.definition = .method method ∧ defs.token (.method method) = token ∧
    item.declaration = .method id
  bound : ∀ item method, items item → item.definition = .method method →
    (state.methods.get? (defs.token (.method method))).isSome = true

variable {job defs roots items} {decls decls' : Declarations} {holder declaration : Declaration}
  {definition : Definition} {intent : Intent} {items' : Counterpart → Prop} {state : Importer}

theorem Lands.mono (hitems : ∀ item, items item → items' item)
    (h : job.Lands defs items definition holder) : job.Lands defs items' definition holder := by
  cases h with
  | top houter hname htarget => exact .top houter hname htarget
  | nested houter hitem hdefinition htoken =>
      exact .nested houter (hitems _ hitem) hdefinition htoken
  | member hkind hitem hdefinition hmem => exact .member hkind (hitems _ hitem) hdefinition hmem

theorem Holds.mono (hitems : ∀ item, items item → items' item) (h : Holds roots items holder) :
    Holds roots items' holder :=
  h.imp_right fun ⟨item, hitem, heq⟩ => ⟨item, hitems item hitem, heq⟩

section Mapped

variable (h : job.Mapped defs roots items decls)

include h

theorem Mapped.has (hholder : Holds roots items holder) : decls.has holder = true := by
  obtain ⟨id, hmem, rfl⟩ | ⟨item, hitem, rfl⟩ := hholder
  · exact h.living id hmem
  · exact h.there item hitem

theorem Mapped.has_member {kind : SymbolKind} {node : Declaration}
    (hholder : Holds roots items holder) (hmem : node ∈ decls.members holder kind) :
    decls.has node = true := by
  obtain ⟨-, ⟨item, hitem, rfl⟩, -⟩ := h.only holder kind node hholder hmem
  exact h.there item hitem

/-- What is below a module of the patch is part of what is declared. -/
theorem Mapped.holds_below {id : DeclId .module} {node : Declaration} (hmem : id ∈ roots)
    (hbelow : decls.Below (.module id) node) : Holds roots items node := by
  induction hbelow with
  | top => exact .inl ⟨id, hmem, rfl⟩
  | member _ hnode ih => exact .inr (h.only _ _ _ ih hnode).2.1

/-- What is part of what is declared is below a module of the patch. -/
theorem Mapped.below (hholder : Holds roots items holder) :
    ∃ id ∈ roots, decls.Below (.module id) holder := by
  obtain ⟨id, hmem, rfl⟩ | ⟨item, hitem, rfl⟩ := hholder
  · exact ⟨id, hmem, .top⟩
  · exact h.within item hitem

theorem Mapped.below_keeps {id : DeclId .module} {node : Declaration} (hkeeps : decls.Keeps decls')
    (hmem : id ∈ roots) (hbelow : decls.Below (.module id) node) :
    decls'.Below (.module id) node := by
  induction hbelow with
  | top => exact .top
  | member hholder hnode ih =>
      have hhas := h.has (h.holds_below hmem hholder)
      exact .member ih ((hkeeps.stays _ hhas).members _ hnode)

theorem Mapped.congr (hitems : ∀ item, items item ↔ items' item) :
    job.Mapped defs roots items' decls := by
  rwa [show items' = items from funext fun item => propext (hitems item).symm]

/-- What is mapped still is when declarations keep what they say and nothing new is listed. -/
theorem Mapped.keeps (hkeeps : decls.Keeps decls')
    (hmembers : ∀ holder kind node, node ∈ decls'.members holder kind →
      node ∈ decls.members holder kind) :
    job.Mapped defs roots items decls' where
  living id hmem := hkeeps.has _ (h.living id hmem)
  there item hitem := hkeeps.has _ (h.there item hitem)
  kinds := h.kinds
  policies item hitem := by
    rw [(hkeeps.stays _ (h.there item hitem)).terms, h.policies item hitem]
  named item hitem := (h.named item hitem).keeps (hkeeps.stays _ (h.there item hitem))
  lands item hitem := by
    obtain ⟨holder, hholder, hlands, hmem⟩ := h.lands item hitem
    exact ⟨holder, hholder, hlands, (hkeeps.stays _ (h.has hholder)).members _ hmem⟩
  within item hitem := by
    obtain ⟨id, hmem, hbelow⟩ := h.within item hitem
    exact ⟨id, hmem, h.below_keeps hkeeps hmem hbelow⟩
  only holder kind node hholder hmem := by
    have hmem := hmembers _ _ _ hmem
    rw [(hkeeps.stays _ (h.has hholder)).terms, (hkeeps.stays _ (h.has_member hholder hmem)).terms]
    exact h.only holder kind node hholder hmem
  apart holder kind left right hholder hkind hleft hright hname hspace := by
    have hleft := hmembers _ _ _ hleft
    have hright := hmembers _ _ _ hright
    have hstays := hkeeps.stays _ (h.has_member hholder hleft)
    have hstays' := hkeeps.stays _ (h.has_member hholder hright)
    rw [hstays.name, hstays'.name] at hname
    rw [hstays.space, hstays'.space] at hspace
    exact h.apart holder kind left right hholder hkind hleft hright hname hspace

section Plant

variable {space? : Option String} {name : String}
  (hplants : decls.Plants decls' holder declaration intent.policy space? name)
  (hholder : Holds roots items holder)

include hplants hholder

/-- A scope is one of those before, or a new one that holds nothing. -/
theorem Mapped.holds_planted {other : Declaration}
    (hother : Holds roots (fun item => items item ∨ item = ⟨definition, intent, declaration⟩) other) :
    Holds roots items other ∨ ∀ kind, decls'.members other kind = [] := by
  obtain hroot | ⟨item, hitem | rfl, rfl⟩ := hother
  · exact .inl (.inl hroot)
  · exact .inl (.inr ⟨item, hitem, rfl⟩)
  · obtain hmem | hfresh := hplants.fresh
    · exact .inl (.inr (h.only holder _ _ hholder hmem).2.1)
    · exact .inr hfresh.members

/-- Where something is listed under the name that is declared, it is what answers for it. -/
theorem Mapped.mem_of_named {node : Declaration} (hmethod : declaration.kind ≠ .method)
    (hmem : node ∈ decls.members holder declaration.kind)
    (hsame : (decls'.statement node).name = (decls'.statement declaration).name)
    (hspace : decls'.space? node = decls'.space? declaration) :
    declaration ∈ decls.members holder declaration.kind := by
  obtain hlisted | hkind | hnone := hplants.apart
  · exact hlisted
  · exact absurd hkind hmethod
  · have hstays := hplants.keeps.stays _ (h.has_member hholder hmem)
    refine absurd ⟨?_, fun space hmem => ?_⟩ (hnone node hmem)
    · rw [← hstays.name, hsame, hplants.named.1]
    · rw [← hstays.space, hspace, hplants.named.2 space hmem]

/-- What is declared anew is mapped as well. -/
theorem Mapped.plant (hkind : declaration.kind = definition.kind)
    (hname : job.manifest.nameIn defs definition = (space?, name))
    (hlands : job.Lands defs items definition holder) :
    job.Mapped defs roots (fun item => items item ∨ item = ⟨definition, intent, declaration⟩)
      decls' := by
  have hkeeps := hplants.keeps
  have hold : ∀ item, items item → items item ∨ item = ⟨definition, intent, declaration⟩ :=
    fun _ => .inl
  refine
    { living := fun id hmem => hkeeps.has _ (h.living id hmem)
      there := ?_
      kinds := ?_
      policies := ?_
      named := ?_
      lands := ?_
      within := ?_
      only := ?_
      apart := ?_ }
  · rintro item (hitem | rfl)
    · exact hkeeps.has _ (h.there item hitem)
    · exact hplants.has
  · rintro item (hitem | rfl)
    · exact h.kinds item hitem
    · exact hkind
  · rintro item (hitem | rfl)
    · rw [(hkeeps.stays _ (h.there item hitem)).terms, h.policies item hitem]
    · exact hplants.terms
  · rintro item (hitem | rfl)
    · exact (h.named item hitem).keeps (hkeeps.stays _ (h.there item hitem))
    · rw [hname]
      exact hplants.named
  · rintro item (hitem | rfl)
    · obtain ⟨around, haround, hlands, hmem⟩ := h.lands item hitem
      exact ⟨around, haround.mono hold, hlands.mono hold,
        (hkeeps.stays _ (h.has haround)).members _ hmem⟩
    · exact ⟨holder, hholder.mono hold, hlands.mono hold, hkind ▸ hplants.listed⟩
  · rintro item (hitem | rfl)
    · obtain ⟨id, hmem, hbelow⟩ := h.within item hitem
      exact ⟨id, hmem, h.below_keeps hkeeps hmem hbelow⟩
    · obtain ⟨id, hmem, hbelow⟩ := h.below hholder
      exact ⟨id, hmem, .member (h.below_keeps hkeeps hmem hbelow) hplants.listed⟩
  · intro other kind node hother hmem
    -- Scopes that were there gain at most the new declaration; the new one is empty.
    obtain hother | hnone := h.holds_planted hplants hholder hother
    · rw [(hkeeps.stays _ (h.has hother)).terms]
      have hlisted (hmem : node ∈ decls.members other kind) : node.kind = kind ∧
          (∃ item, (items item ∨ item = ⟨definition, intent, declaration⟩) ∧
            item.declaration = node) ∧
          (decls'.terms node).readOnly = (decls.terms other).readOnly := by
        obtain ⟨hnode, ⟨item, hitem, heq⟩, hreadOnly⟩ := h.only other kind node hother hmem
        rw [(hkeeps.stays _ (h.has_member hother hmem)).terms]
        exact ⟨hnode, ⟨item, .inl hitem, heq⟩, hreadOnly⟩
      obtain hmem | ⟨rfl, rfl, rfl⟩ := hplants.only other kind node hmem
      · exact hlisted hmem
      · obtain hmem | hfresh := hplants.fresh
        · exact hlisted hmem
        · exact ⟨rfl, ⟨_, .inr rfl, rfl⟩, hfresh.readOnly⟩
    · simp [hnone] at hmem
  · intro other kind left right hother hmethod hleft hright hsame hspace
    obtain hother | hnone := h.holds_planted hplants hholder hother
    · -- A sibling of the same name would have been found instead of planting another one.
      have hold (hleft : left ∈ decls.members other kind) (hright : right ∈ decls.members other kind) :
          left = right := by
        have hstays := hkeeps.stays _ (h.has_member hother hleft)
        have hstays' := hkeeps.stays _ (h.has_member hother hright)
        rw [hstays.name, hstays'.name] at hsame
        rw [hstays.space, hstays'.space] at hspace
        exact h.apart other kind left right hother hmethod hleft hright hsame hspace
      obtain hleft | ⟨rfl, rfl, rfl⟩ := hplants.only other kind left hleft
      · obtain hright | ⟨rfl, rfl, rfl⟩ := hplants.only other kind right hright
        · exact hold hleft hright
        · exact hold hleft (h.mem_of_named hplants hholder hmethod hleft hsame hspace)
      · obtain hright | ⟨-, -, rfl⟩ := hplants.only _ _ right hright
        · exact hold (h.mem_of_named hplants hholder hmethod hright hsame.symm hspace.symm) hright
        · rfl
    · simp [hnone] at hleft

/-- A method that is declared has no body yet. -/
theorem Mapped.plant_bare
    (hbare : ∀ item id, items item → item.declaration = .method id → (decls.method id).body = none)
    {item : Counterpart} {id : DeclId .method}
    (hitem : items item ∨ item = ⟨definition, intent, declaration⟩)
    (heq : item.declaration = .method id) : (decls'.method id).body = none := by
  rw [hplants.bodies]
  obtain hitem | rfl := hitem
  · exact hbare item id hitem heq
  · subst heq
    obtain hmem | hfresh := hplants.fresh
    · obtain ⟨-, ⟨item, hitem, heq⟩, -⟩ := h.only holder _ _ hholder hmem
      exact hbare item id hitem heq
    · exact Declarations.body_of_absent hfresh.absent

end Plant

end Mapped

/-! ## Binding -/

section Binds

variable (h : Binds defs items state) {token : Token}

include h

theorem Binds.congr {state' : Importer} (htypes : state'.types = state.types)
    (hmethods : state'.methods = state.methods) : Binds defs items state' where
  types token id hget := h.types token id (htypes ▸ hget)
  methods token id hget := h.methods token id (hmethods ▸ hget)
  bound item method hitem heq := hmethods ▸ h.bound item method hitem heq

/-- Mapping something that is neither a type nor a method binds nothing that matters. -/
theorem Binds.other (hmethod : ∀ method, definition ≠ .method method) :
    Binds defs (fun item => items item ∨ item = ⟨definition, intent, declaration⟩) state where
  types token id hget := by
    obtain ⟨item, around, hitem, hrest⟩ := h.types token id hget
    exact ⟨item, around, .inl hitem, hrest⟩
  methods token id hget := by
    obtain ⟨item, method, hitem, hrest⟩ := h.methods token id hget
    exact ⟨item, method, .inl hitem, hrest⟩
  bound := by
    rintro item method (hitem | rfl) heq
    · exact h.bound item method hitem heq
    · exact absurd heq (hmethod method)

theorem Binds.type {id : DefId .type} {found : DeclId .type} {state' : Importer}
    (htypes : state'.types = state.types.insert (defs.token (.type id)) found)
    (hmethods : state'.methods = state.methods) :
    Binds defs (fun item => items item ∨ item = ⟨.type id, intent, .type found⟩) state' where
  types token other hget := by
    rw [htypes] at hget
    obtain ⟨rfl, rfl⟩ | hget := Dictionary.of_get?_insert hget
    · exact ⟨_, id, .inr rfl, rfl, rfl, rfl⟩
    · obtain ⟨item, around, hitem, hrest⟩ := h.types token other hget
      exact ⟨item, around, .inl hitem, hrest⟩
  methods token other hget := by
    obtain ⟨item, method, hitem, hrest⟩ := h.methods token other (hmethods ▸ hget)
    exact ⟨item, method, .inl hitem, hrest⟩
  bound := by
    rintro item method (hitem | rfl) heq
    · exact hmethods ▸ h.bound item method hitem heq
    · cases heq

theorem Binds.method {id : DefId .method} {found : DeclId .method} {state' : Importer}
    (htypes : state'.types = state.types)
    (hmethods : state'.methods = state.methods.insert (defs.token (.method id)) found) :
    Binds defs (fun item => items item ∨ item = ⟨.method id, intent, .method found⟩) state' where
  types token other hget := by
    obtain ⟨item, around, hitem, hrest⟩ := h.types token other (htypes ▸ hget)
    exact ⟨item, around, .inl hitem, hrest⟩
  methods token other hget := by
    rw [hmethods] at hget
    obtain ⟨rfl, rfl⟩ | hget := Dictionary.of_get?_insert hget
    · exact ⟨_, id, .inr rfl, rfl, rfl, rfl⟩
    · obtain ⟨item, method, hitem, hrest⟩ := h.methods token other hget
      exact ⟨item, method, .inl hitem, hrest⟩
  bound := by
    rintro item method hitem heq
    rw [hmethods, Dictionary.get?_insert]
    split
    · rfl
    · obtain hitem | rfl := hitem
      · exact h.bound item method hitem heq
      · cases heq
        exact absurd rfl ‹_›

end Binds

/-- How far an import has come: the definitions are as they were, and what is declared and bound is
what has been mapped. -/
structure Progress (job : ImportJob) (defs : Definitions) (roots : List (DeclId .module))
    (items : Counterpart → Prop) (world : World) : Prop where
  unchanged : world.defs = defs
  live : world.importers.has job.importer.index = true
  required : Declarations.Required job.manifest.required roots job.targets world.decls
  mapped : job.Mapped defs roots items world.decls
  bare : ∀ item id, items item → item.declaration = .method id →
    (world.decls.method id).body = none
  binds : Binds defs items (world.importer job.importer)

section Progress

variable {world next : World} (h : job.Progress defs roots items world)

include h

theorem Progress.congr (hitems : ∀ item, items item ↔ items' item) :
    job.Progress defs roots items' world := by
  rwa [show items' = items from funext fun item => propext (hitems item).symm]

/-- Importing references maps nothing. -/
theorem Progress.quiet (hquiet : world.Quiet next) : job.Progress defs roots items next where
  unchanged := hquiet.defs.trans h.unchanged
  live := hquiet.importers _ h.live
  required := hquiet.decls ▸ h.required
  mapped := hquiet.decls ▸ h.mapped
  bare := hquiet.decls ▸ h.bare
  binds := h.binds.congr (hquiet.types _) (hquiet.methods _)

end Progress

end ImportJob

/-- An importer that exists is changed as it should be. -/
theorem World.importer_update_self {world : World} {id : ImporterId}
    (hlive : world.importers.has id.index = true) (change : Importer → Importer) :
    World.importer { world with importers := world.importers.update id.index change } id =
      change (world.importer id) := by
  obtain ⟨state, hstate⟩ := Option.isSome_iff_exists.mp hlive
  simp [World.importer, hstate]

end Graft
