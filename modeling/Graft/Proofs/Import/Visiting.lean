import Graft.Import.Patch
import Graft.Proofs.Definition.Apart
import Graft.Proofs.Definition.Nesting
import Graft.Proofs.Definition.WellFormed

/-!
# Visiting the types of a patch module

What a definition of a patch module is for is said by its mapping or, inside a generated type, by
that of the type (`Manifest.Means`), and a definition stands for a declaration if it is a type or a
member of a type that is for anything (`Manifest.Maps`). The types to declare are listed as all types
of the patch module are (`map_typesToDeclare`), in preorder if the types form a forest
(`preorder_typesToDeclare`). In a patch module that is in order (`Definitions.Tidy`) they do, so every
type is listed with what it is for (`mem_typesToDeclare`).
-/

namespace Graft

namespace Manifest

variable (manifest : Manifest) (defs : Definitions) (module : DefId .module)

/-- What a definition of a patch module is for, if for anything. -/
inductive Means : Definition → Option Intent → Prop
  | top {id : DefId .type} (hmem : id ∈ (defs.module module).types) :
      Means (.type id) (manifest.intentOf (defs.token (.type id)) none)
  | inside {outer : DefId .type} {intent : Option Intent} {definition : Definition}
      {kind : SymbolKind} (houter : Means (.type outer) intent)
      (hmem : definition ∈ defs.members (.type outer) kind) :
      Means definition (manifest.intentOf (defs.token definition) intent)

/-- Whether a definition of a patch module stands for a declaration, and with what intent: types,
and members of such types. -/
inductive Maps : Definition → Intent → Prop
  | type {id : DefId .type} {intent : Intent}
      (hmeans : manifest.Means defs module (.type id) (some intent)) : Maps (.type id) intent
  | member {owner : DefId .type} {outer intent : Intent} {definition : Definition}
      {kind : SymbolKind} (howner : manifest.Means defs module (.type owner) (some outer))
      (hkind : kind ≠ .type) (hmem : definition ∈ defs.members (.type owner) kind)
      (hintent : manifest.intentOf (defs.token definition) (some outer) = some intent) :
      Maps definition intent

end Manifest

namespace Definitions

/-- Whether all that a module holds is listed once, in the scope that it names as the one around it,
and has a token of its own. -/
structure Tidy (defs : Definitions) (module : DefId .module) : Prop where
  nodup : ∀ holder kind, defs.Below (.module module) holder → (defs.members holder kind).Nodup
  linked : ∀ holder kind definition, defs.Below (.module module) holder →
    definition ∈ defs.members holder kind →
    ∃ record, defs.record? definition = some record ∧ record.LiesIn holder
  tokens : ∀ left right, defs.Below (.module module) left → defs.Below (.module module) right →
    left.kind = right.kind → defs.token left = defs.token right → left = right

/-- Whether a module is tidy can be checked on a list with it and all that is held in it. -/
theorem tidy_of_closed {defs : Definitions} {module : DefId .module} (nodes : List Definition)
    (htop : .module module ∈ nodes) (hclosed : ∀ holder ∈ nodes, ∀ kind ∈ SymbolKind.all,
      ∀ definition ∈ defs.members holder kind, definition ∈ nodes)
    (hnodup : ∀ holder ∈ nodes, ∀ kind ∈ SymbolKind.all, (defs.members holder kind).Nodup)
    (hlinked : ∀ holder ∈ nodes, ∀ kind ∈ SymbolKind.all, ∀ definition ∈ defs.members holder kind,
      ∃ record ∈ defs.record? definition, record.LiesIn holder)
    (htokens : ∀ left ∈ nodes, ∀ right ∈ nodes, left.kind = right.kind →
      defs.token left = defs.token right → left = right) : defs.Tidy module where
  nodup holder kind hbelow :=
    hnodup holder (hbelow.mem_of_closed htop hclosed) kind kind.mem_all
  linked holder kind definition hbelow hmem :=
    hlinked holder (hbelow.mem_of_closed htop hclosed) kind kind.mem_all definition hmem
  tokens left right hleft hright :=
    htokens left (hleft.mem_of_closed htop hclosed) right (hright.mem_of_closed htop hclosed)

variable {defs : Definitions} {module : DefId .module} {holder holder' definition : Definition}
  {kind kind' : SymbolKind} {id outer : DefId .type}

theorem Tidy.has (h : defs.Tidy module) (hholder : defs.Below (.module module) holder)
    (hmem : definition ∈ defs.members holder kind) : defs.has definition = true := by
  obtain ⟨record, hrecord, -⟩ := h.linked holder kind definition hholder hmem
  exact has_iff.mpr ⟨record, hrecord⟩

/-- What a tidy module holds is listed in one place only. -/
theorem Tidy.holder_eq (h : defs.Tidy module) (hholder : defs.Below (.module module) holder)
    (hholder' : defs.Below (.module module) holder') (hmem : definition ∈ defs.members holder kind)
    (hmem' : definition ∈ defs.members holder' kind') : holder = holder' := by
  obtain ⟨record, hrecord, hlies⟩ := h.linked holder kind definition hholder hmem
  obtain ⟨record', hrecord', hlies'⟩ := h.linked holder' kind' definition hholder' hmem'
  cases hrecord.symm.trans hrecord'
  cases holder <;> cases holder' <;> simp_all [Record.LiesIn]

/-- A type that a module lists is in no other type. -/
theorem Tidy.outer?_top (h : defs.Tidy module) (hmem : id ∈ (defs.module module).types) :
    defs.outer? id = none := by
  obtain ⟨record, hrecord, howner, -⟩ := h.linked (.module module) .type (.type id) .top
    (List.mem_map_of_mem hmem)
  simp [Definitions.outer?_eq, hrecord, howner]

/-- A type that a type lists is in that type. -/
theorem Tidy.outer?_nested (h : defs.Tidy module)
    (houter : defs.Below (.module module) (.type outer))
    (hmem : .type id ∈ defs.members (.type outer) kind) : defs.outer? id = some outer := by
  obtain ⟨record, hrecord, hlies⟩ := h.linked _ _ _ houter hmem
  obtain ⟨_, hfound, -⟩ := exists_of_mem_members hmem
  rw [Definitions.outer?_eq, hrecord, Option.bind_some, hlies, Option.filter_some,
    if_pos (has_iff.mpr ⟨_, hfound⟩)]

/-- A tidy module lists its types once. -/
theorem Tidy.listsOnce (h : defs.Tidy module) : defs.ListsOnce module where
  nodup := List.Nodup.of_map _ (h.nodup (.module module) .type .top)
  top id hmem outer hbelow hnested := by
    cases h.holder_eq .top hbelow (type_mem_module.mpr hmem) (type_mem_type.mpr hnested)

/-- The types of a tidy module form a forest. -/
theorem Tidy.nests (h : defs.Tidy module) : defs.Nests module := by
  refine h.listsOnce.nests (fun id hbelow => ?_)
    (fun outer hbelow => List.Nodup.of_map _ (h.nodup (.type outer) .type hbelow))
    fun outer other id hbelow hbelow' hmem hmem' => ?_
  · cases hbelow with
    | member hholder hmem => exact h.has hholder hmem
  · exact Definition.type.inj
      (h.holder_eq hbelow hbelow' (type_mem_type.mpr hmem) (type_mem_type.mpr hmem'))

end Definitions

section Means

variable {manifest : Manifest} {defs : Definitions} {module : DefId .module}
  {definition : Definition} {intent : Option Intent} {id : DefId .type}

theorem Manifest.Means.within (h : manifest.Means defs module definition intent) :
    defs.Below (.module module) definition := by
  induction h with
  | top hmem => exact Definitions.below_of_listed hmem
  | inside _ hmem ih => exact .member ih hmem

end Means

namespace ImportJob

variable {job : ImportJob} {defs : Definitions} {id : DefId .type} {intent : Option Intent}

/-- The types of a patch module are declared in the order in which they are listed. -/
theorem map_typesToDeclare (job : ImportJob) (defs : Definitions) :
    (job.typesToDeclare defs).map Prod.fst = defs.allTypes job.module := by
  rw [typesToDeclare, Forest.map_visit (fun id => (defs.type id).nested) Prod.fst]
  · simp [Definitions.allTypes, Function.comp_def]
  · simp [Function.comp_def]

/-- So they are declared in preorder, each with what the type around it is for. -/
theorem preorder_typesToDeclare (hnests : defs.Nests job.module) :
    Forest.Preorder (fun type => [type]) (fun (id, outer) => (defs.type id).nested.map
        (·, job.manifest.intentOf (defs.token (.type id)) outer))
      ((defs.module job.module).types.map (·, none)) (job.typesToDeclare defs) := by
  have hroots : ((defs.module job.module).types.map (·, (none : Option Intent))).map Prod.fst =
      (defs.module job.module).types := by
    simp [Function.comp_def]
  obtain ⟨types, htypes, hmap⟩ := Forest.Preorder.of_map
    (fun ((id, outer) : DefId .type × Option Intent) => (defs.type id).nested.map
      (·, job.manifest.intentOf (defs.token (.type id)) outer))
    (fun _ => by simp [Function.comp_def]) (hroots.symm ▸ hnests.preorder)
  have hlength : types.length ≤
      ((defs.module job.module).types.map (·, (none : Option Intent))).length * defs.types.next := by
    rw [← List.length_map Prod.fst, hmap, List.length_map]
    exact Forest.length_visit_le _ _ _
  rw [typesToDeclare, htypes.visit_eq hlength]
  exact htypes

/-- The types to declare, with what the types around them are for. -/
theorem mem_typesToDeclare (htidy : defs.Tidy job.module) :
    job.manifest.Means defs job.module (.type id) intent ↔ ∃ outer,
      (id, outer) ∈ job.typesToDeclare defs ∧
        intent = job.manifest.intentOf (defs.token (.type id)) outer := by
  have hpreorder := preorder_typesToDeclare htidy.nests
  constructor
  · generalize hdefinition : Definition.type id = definition
    intro hmeans
    induction hmeans generalizing id with
    | top hmem =>
        cases hdefinition
        exact ⟨none, hpreorder.subset (List.mem_map_of_mem hmem), rfl⟩
    | inside _ hmem ih =>
        subst hdefinition
        obtain ⟨outer, houter, rfl⟩ := ih rfl
        cases ‹SymbolKind› <;> simp [Definitions.members] at hmem
        have hsublist := hpreorder.sublist _ houter _ (List.mem_map_of_mem hmem)
        exact ⟨_, hsublist.subset (by simp), rfl⟩
  · rintro ⟨outer, hmem, rfl⟩
    refine Forest.forall_mem_visit (P := fun (id, outer) => job.manifest.Means defs job.module
      (.type id) (job.manifest.intentOf (defs.token (.type id)) outer)) ?_ ?_ (id, outer) hmem
    · intro node hnode
      obtain ⟨root, hroot, rfl⟩ := List.mem_map.mp hnode
      exact .top hroot
    · rintro ⟨id, outer⟩ hmeans child hchild
      obtain ⟨nested, hnested, rfl⟩ := List.mem_map.mp hchild
      exact .inside hmeans (Definitions.type_mem_type.mpr hnested)

end ImportJob

end Graft
