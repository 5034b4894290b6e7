import Graft.Proofs.Definition.Filing

/-!
# Adoption

What is adopted by something that a module holds gets its tokens from that module, with all that it
holds; what is adopted by something that no module holds gets none (`Filing.adopt`). Whatever is
done to definitions, each module has therefore given tokens to what it holds and to nothing else
(`Filing.builds`).
-/

namespace Graft.Definitions

variable {defs defs' : Definitions} {module : DefId .module}
  {definition parent child : Definition}

/-- Whether a definition may be listed by another one: types by modules, and everything but modules by
types. -/
def Takes : Definition → Definition → Prop
  | .module _, .type _ => True
  | .type _, child => child.kind ≠ .module
  | _, _ => False

/-- What a definition learns from the one that adopts it. A module adopts types, and they learn which
module it is only when they get their tokens. -/
def own (defs : Definitions) : Definition → Definition → Definitions
  | .type owner, .type id =>
    defs.updateType id fun record => { record with owner := record.owner.or (some owner) }
  | .type owner, .field id =>
    defs.updateField id fun record => { record with owner := record.owner.or (some owner) }
  | .type owner, .method id =>
    defs.updateMethod id fun record => { record with owner := record.owner.or (some owner) }
  | .type owner, .property id =>
    defs.updateProperty id fun record => { record with owner := record.owner.or (some owner) }
  | .type owner, .event id =>
    defs.updateEvent id fun record => { record with owner := record.owner.or (some owner) }
  | _, _ => defs

/-- A definition entered, with all that it holds, in the module that holds what adopts it. -/
def settle (defs : Definitions) (parent child : Definition) : Definitions :=
  match defs.host? parent with
  | some module => defs.enterAll module (defs.subtreeWithin (defs.types.next + 1) child)
  | none => defs

/-- What is attached learns what it is attached to and gets its tokens. -/
theorem attach_eq (htakes : Takes parent child) :
    defs.attach parent child = (defs.own parent child).settle parent child := by
  have hleaf (leaf : Definition) (hleaf : leaf.kind ≠ .module ∧ leaf.kind ≠ .type)
      (defs : Definitions) (module : DefId .module) : defs.enter module leaf =
        defs.enterAll module (defs.subtreeWithin (defs.types.next + 1) leaf) := by
    rw [subtreeWithin_leaf hleaf.1 hleaf.2]
    rfl
  -- Whatever the owner's module is, both sides enter the same definitions in it, or none.
  have hmodule {host : Option (DefId .module)} {kept : Definitions}
      {left right : DefId .module → Definitions} (h : ∀ module, left module = right module) :
      (match host with | some module => left module | none => kept) =
        match host with | some module => right module | none => kept := by
    cases host with
    | none => rfl
    | some module => exact h module
  cases parent with
  | module module =>
      cases child with
      | type id => exact enterTypeWithin_eq ..
      | module | field | method | property | event => exact htakes.elim
  | type owner =>
      cases child with
      | module => exact absurd rfl htakes
      | type id => exact hmodule fun module => enterTypeWithin_eq ..
      | field id => exact hmodule (hleaf (.field id) (by simp [Definition.kind]) _)
      | method id => exact hmodule (hleaf (.method id) (by simp [Definition.kind]) _)
      | property id => exact hmodule (hleaf (.property id) (by simp [Definition.kind]) _)
      | event id => exact hmodule (hleaf (.event id) (by simp [Definition.kind]) _)
  | field | method | property | event => exact htakes.elim

/-- What does not go together is not adopted. -/
theorem adopt_of_not_takes (htakes : ¬ Takes parent child) : defs.adopt parent child = defs := by
  cases parent with
  | module => cases child <;> first | rfl | exact absurd trivial htakes
  | type =>
      cases child with
      | module => rfl
      | type | field | method | property | event => exact absurd (fun h => nomatch h) htakes
  | field | method | property | event => rfl

/-- What adopts something has no part in its token. -/
theorem own_alike (defs : Definitions) (parent child : Definition) :
    defs.Alike (defs.own parent child) := by
  have hrefl : defs.Alike defs := ⟨fun _ _ => rfl, fun _ => rfl, fun _ => rfl⟩
  have howned {defs' : Definitions} (owner : DefId .type)
      (h : defs.Changes defs' child (ownRecord owner))
      (hledger : ∀ module, defs'.ledger module = defs.ledger module) : defs.Alike defs' :=
    .of_changes h (fun _ => rfl) (fun _ => rfl) (fun _ => rfl) hledger
  cases parent with
  | module | field | method | property | event => exact hrefl
  | type owner =>
      cases child with
      | module => exact hrefl
      | type => exact howned owner (updateType_changes fun _ => rfl) fun _ => rfl
      | field => exact howned owner (updateField_changes fun _ => rfl) fun _ => rfl
      | method => exact howned owner (updateMethod_changes fun _ => rfl) fun _ => rfl
      | property => exact howned owner (updateProperty_changes fun _ => rfl) fun _ => rfl
      | event => exact howned owner (updateEvent_changes fun _ => rfl) fun _ => rfl

/-- Listing a definition makes one list longer. -/
theorem list_changes (htakes : Takes parent child) :
    defs.Changes (defs.list parent child) parent (Record.add child) := by
  cases parent with
  | module module =>
      cases child with
      | type id =>
          exact updateModule_changes fun record => Record.eq_add rfl fun kind => by
            cases kind <;> simp [ModuleDef.record, Record.add, Definition.kind]
      | module | field | method | property | event => exact htakes.elim
  | type owner =>
      cases child with
      | module => exact absurd rfl htakes
      | type | field | method | property | event =>
          exact updateType_changes fun record => Record.eq_add rfl fun kind => by
            cases kind <;> simp [TypeDef.record, Record.add, Definition.kind]
  | field | method | property | event => exact htakes.elim

theorem ledger_list (defs : Definitions) (parent child : Definition) (module : DefId .module) :
    (defs.list parent child).ledger module = defs.ledger module := by
  cases parent with
  | module id =>
      cases child with
      | type =>
          by_cases heq : id.index = module.index
          · cases hmodule : defs.modules.get? module.index <;>
              simp [list, ledger, Definitions.module, updateModule, heq, hmodule]
          · simp [list, ledger, Definitions.module, updateModule, heq]
      | module | field | method | property | event => rfl
  | type => cases child <;> rfl
  | field | method | property | event => rfl

theorem numbers_list (htakes : Takes parent child) (definition : Definition) :
    (defs.list parent child).numbers definition = defs.numbers definition := by
  rw [numbers, (list_changes htakes).record?, numbers]
  split
  · cases defs.record? definition <;> rfl
  · rfl

theorem members_list (htakes : Takes parent child) (hhas : defs.has parent = true)
    (holder : Definition) (kind : SymbolKind) :
    (defs.list parent child).members holder kind = defs.members holder kind ++
      if holder = parent ∧ kind = child.kind then [child] else [] := by
  rw [members_eq, members_eq, (list_changes htakes).record?]
  by_cases hholder : holder = parent
  · subst hholder
    obtain ⟨record, hrecord⟩ := has_iff.mp hhas
    by_cases hkind : kind = child.kind <;> simp [hrecord, Record.add, hkind]
  · simp [hholder]

@[simp] theorem has_list (htakes : Takes parent child) (definition : Definition) :
    (defs.list parent child).has definition = defs.has definition := by
  rw [has_eq_numbers, numbers_list htakes, ← has_eq_numbers]

/-- What is below something once a definition is listed was below it before, or is below what was
listed. -/
theorem below_list (htakes : Takes parent child) (hhas : defs.has parent = true) {top : Definition} :
    (defs.list parent child).Below top definition ↔
      defs.Below top definition ∨ defs.Below top parent ∧ defs.Below child definition := by
  have hold {top definition : Definition} (hbelow : defs.Below top definition) :
      (defs.list parent child).Below top definition := by
    induction hbelow with
    | top => exact .top
    | member _ hmem ih =>
        exact .member ih (members_list htakes hhas _ _ ▸ List.mem_append_left _ hmem)
  constructor
  · -- A way down stays where it was until it comes to what was listed, and is below that then.
    intro hbelow
    induction hbelow with
    | top => exact .inl .top
    | @member holder definition kind _ hmem ih =>
        rw [members_list htakes hhas, List.mem_append] at hmem
        obtain hmem | hmem := hmem
        · exact ih.imp (.member · hmem) fun h => ⟨h.1, .member h.2 hmem⟩
        · split at hmem
          · obtain rfl := List.mem_singleton.mp hmem
            rename_i hhere
            obtain ⟨rfl, -⟩ := hhere
            exact .inr ⟨ih.elim id And.left, .top⟩
          · cases hmem
  · rintro (hbelow | ⟨hparent, hbelow⟩)
    · exact hold hbelow
    · have hchild : child ∈ (defs.list parent child).members parent child.kind := by
        simp [members_list htakes hhas]
      exact (Below.member (hold hparent) hchild).trans (hold hbelow)

/-- What is held by something that is no module is no module either. -/
theorem Below.kind_ne_module {top : Definition} (h : defs.Below top definition)
    (htop : top.kind ≠ .module) : definition.kind ≠ .module := by
  cases h with
  | top => exact htop
  | member _ hmem =>
      cases definition with
      | module id => exact absurd hmem (unlisted_module defs id _ _)
      | type | field | method | property | event => simp [Definition.kind]

theorem Takes.kind_child (h : Takes parent child) : child.kind ≠ .module := by
  cases parent <;> cases child <;> first | exact h.elim | simp_all [Takes, Definition.kind]

theorem Takes.kind_parent (h : Takes parent child) :
    parent.kind = .module ∨ parent.kind = .type := by
  cases parent <;> first | exact h.elim | simp [Definition.kind]

/-- What is below something detached is below no module. -/
theorem Below.not_below_module (h : defs.Below child definition) (hplanted : defs.Planted)
    (hchild : defs.Detached child) (hkind : child.kind ≠ .module) (module : DefId .module) :
    ¬ defs.Below (.module module) definition := by
  intro hmodule
  have heq := h.root_unique hplanted hchild.unlisted (unlisted_module defs module) hmodule
  exact hkind (heq ▸ rfl)

theorem Planted.has_below {top : Definition} (hplanted : defs.Planted)
    (hhas : defs.has top = true) (hbelow : defs.Below top definition) :
    defs.has definition = true := by
  cases hbelow with
  | top => exact hhas
  | member _ hmem => exact hplanted.held _ _ _ hmem

theorem Detached.congr (h : defs.Detached child)
    (hmembers : ∀ holder kind, defs'.members holder kind = defs.members holder kind)
    (hhas : defs'.has child = defs.has child) : defs'.Detached child :=
  ⟨hhas.trans h.has, fun holder kind => hmembers holder kind ▸ h.unlisted holder kind⟩

/-- Where everything is listed once, so it is when something detached is listed. -/
theorem Planted.list (h : defs.Planted) (htakes : Takes parent child)
    (hparent : defs.has parent = true) (hchild : defs.Detached child) :
    (defs.list parent child).Planted := by
  have hlisted {holder definition : Definition} {kind : SymbolKind}
      (hmem : definition ∈ (defs.list parent child).members holder kind) :
      definition ∈ defs.members holder kind ∨ holder = parent ∧ definition = child := by
    rw [members_list htakes hparent, List.mem_append] at hmem
    refine hmem.imp_right fun hmem => ?_
    split at hmem
    · rename_i hhere
      exact ⟨hhere.1, List.mem_singleton.mp hmem⟩
    · cases hmem
  refine ⟨fun holder kind definition hmem => ?held, fun holder kind => ?nodup,
    fun hmem hmem' => ?once⟩
  case held =>
    rw [has_list htakes]
    obtain hold | ⟨-, rfl⟩ := hlisted hmem
    · exact h.held holder kind definition hold
    · exact hchild.has
  case nodup =>
    rw [members_list htakes hparent]
    split
    · exact List.concat_eq_append ▸ (h.nodup holder kind).concat (hchild.unlisted holder kind)
    · simpa using h.nodup holder kind
  case once =>
    obtain hold | ⟨rfl, rfl⟩ := hlisted hmem <;> obtain hold' | ⟨rfl, heq⟩ := hlisted hmem'
    · exact h.once hold hold'
    · exact absurd (heq ▸ hold) (hchild.unlisted _ _)
    · exact absurd hold' (hchild.unlisted _ _)
    · rfl

/-- What is settled gets its tokens from the module that holds what adopts it, if there is one, and
nothing else gets any. -/
structure Settles (defs settled : Definitions) (parent child : Definition) : Prop where
  members : ∀ holder kind, settled.members holder kind = defs.members holder kind
  filed : ∀ module, defs.has (.module module) = true → ∃ filed, settled.Files module filed ∧
    ∀ definition, definition ∈ filed ↔
      definition ≠ .module module ∧ defs.Below (.module module) definition ∨
        defs.Below (.module module) parent ∧ defs.Below child definition
  blank : ∀ definition, defs.has definition = true →
    (∀ module, ¬ (defs.Below (.module module) definition ∨
      defs.Below (.module module) parent ∧ defs.Below child definition)) →
    settled.numbers definition = some (none, none)

@[simp] theorem has_settle (defs : Definitions) (parent child definition : Definition) :
    (defs.settle parent child).has definition = defs.has definition := by
  unfold settle
  split
  · exact has_enterAll _ definition
  · rfl

/-- Nothing comes or goes when something is adopted. -/
theorem has_adopt (defs : Definitions) (parent child definition : Definition) :
    (defs.adopt parent child).has definition = defs.has definition := by
  by_cases htakes : Takes parent child
  · rw [adopt, attach_eq htakes, has_list htakes, has_settle, (own_alike defs parent child).has]
  · rw [adopt_of_not_takes htakes]

/-- What is detached settles in the module that holds what adopts it. -/
theorem Filing.settle (h : defs.Filing) (htakes : Takes parent child)
    (hparent : defs.has parent = true) (hchild : defs.Detached child) :
    defs.Settles (defs.settle parent child) parent child := by
  have hhost (module : DefId .module) :
      defs.host? parent = some module ↔ defs.Below (.module module) parent :=
    h.host?_iff hparent htakes.kind_parent
  -- Nothing below the child has a token yet, for no module holds it.
  have hapart {definition : Definition} (hbelow : defs.Below child definition) :=
    hbelow.not_below_module h.planted hchild htakes.kind_child
  cases hcase : defs.host? parent with
  | none =>
      have hnone (module : DefId .module) : ¬ defs.Below (.module module) parent := fun hbelow =>
        nomatch hcase.symm.trans ((hhost module).mpr hbelow)
      have hsettle : defs.settle parent child = defs := by simp [Definitions.settle, hcase]
      rw [hsettle]
      refine ⟨fun _ _ => rfl, fun module hmodule => ?_, fun definition hhas hnot => ?_⟩
      · obtain ⟨filed, hfiles, hmem⟩ := h.filed module hmodule
        exact ⟨filed, hfiles, fun definition => by simp [hmem, hnone]⟩
      · exact h.blank definition hhas fun module hbelow => hnot module (.inl hbelow)
  | some host =>
      have hsettle : defs.settle parent child =
          defs.enterAll host (defs.subtreeWithin (defs.types.next + 1) child) := by
        simp [Definitions.settle, hcase]
      have hbelow := (hhost host).mp hcase
      have hhas : defs.has (.module host) = true := by
        obtain heq | hhas := hbelow.has_top
        · exact heq ▸ hparent
        · exact hhas
      have hmem (definition : Definition) :
          definition ∈ defs.subtreeWithin (defs.types.next + 1) child ↔ defs.Below child definition :=
        mem_subtreeWithin_iff h.planted hchild.unlisted htakes.kind_child
      have hkinds (definition : Definition)
          (hdefinition : definition ∈ defs.subtreeWithin (defs.types.next + 1) child) :
          definition.kind ≠ .module :=
        ((hmem definition).mp hdefinition).kind_ne_module htakes.kind_child
      rw [hsettle]
      refine ⟨members_enterAll defs _, fun module hmodule => ?_,
        fun definition hdefinition hnot => ?_⟩
      · obtain ⟨filed, hfiles, hfiled⟩ := h.filed module hmodule
        -- The host goes on with its list; what is entered there is in no other list.
        by_cases heq : module = host
        · subst heq
          refine ⟨_, hfiles.enterAll hhas hkinds ?_ fun definition hdefinition => ?_,
            fun definition => by simp [hfiled, hmem, hbelow]⟩
          · refine List.nodup_append'.mpr ⟨hfiles.nodup,
              Trail.root.nodup_subtreeWithin h.planted hchild.unlisted _, ?_⟩
            intro definition hold hnew
            exact hapart ((hmem definition).mp hnew) module ((hfiled definition).mp hold).2
          · have hdefinition := (hmem definition).mp hdefinition
            exact h.blank definition (h.planted.has_below hchild.has hdefinition) (hapart hdefinition)
        · refine ⟨filed, hfiles.enterAll_other hhas hkinds heq fun definition hnew hold =>
            hapart ((hmem definition).mp hnew) module ((hfiled definition).mp hold).2, ?_⟩
          have hnot : ¬ defs.Below (.module module) parent := fun hother =>
            heq (Option.some.inj (((hhost module).mpr hother).symm.trans hcase))
          exact fun definition => by simp [hfiled, hnot]
      · rw [numbers_enterAll hkinds fun hin => hnot host (.inr ⟨hbelow, (hmem definition).mp hin⟩)]
        exact h.blank definition hdefinition fun module hbelow => hnot module (.inl hbelow)

/-- What has settled is filed where it is listed. -/
theorem Settles.filing {settled : Definitions} (h : defs.Settles settled parent child)
    (hplanted : defs.Planted) (hsame : ∀ definition, settled.has definition = defs.has definition)
    (htakes : Takes parent child) (hparent : defs.has parent = true) (hchild : defs.Detached child) :
    (settled.list parent child).Filing := by
  have hparent' : settled.has parent = true := (hsame parent).trans hparent
  have hchild' := hchild.congr h.members (hsame child)
  have hplanted' : settled.Planted :=
    hplanted.congr h.members fun definition => (hsame definition).trans
  have hbelow {top definition : Definition} : (settled.list parent child).Below top definition ↔
      defs.Below top definition ∨ defs.Below top parent ∧ defs.Below child definition := by
    simp only [below_list htakes hparent', below_congr h.members]
  have hhas (definition : Definition) :
      (settled.list parent child).has definition = defs.has definition := by
    rw [has_list htakes, hsame]
  refine ⟨hplanted'.list htakes hparent' hchild', fun module hmodule => ?filed,
    fun definition hdefinition hnone => ?blank⟩
  case filed =>
    obtain ⟨filed, hfiles, hmem⟩ := h.filed module ((hhas _).symm.trans hmodule)
    refine ⟨filed, hfiles.congr (ledger_list _ _ _ _) fun definition _ =>
      numbers_list htakes definition, fun definition => ?_⟩
    rw [hmem, hbelow, and_or_left]
    -- No module is among what has been adopted.
    refine or_congr Iff.rfl ⟨fun hnew => ⟨?_, hnew⟩, And.right⟩
    rintro rfl
    exact hnew.2.kind_ne_module htakes.kind_child rfl
  case blank =>
    rw [numbers_list htakes]
    exact h.blank definition ((hhas _).symm.trans hdefinition) fun module =>
      hbelow.not.mp (hnone module)

/-- What is adopted is filed where it is adopted. -/
theorem Filing.adopt (h : defs.Filing) (hparent : defs.has parent = true)
    (hchild : defs.Detached child) : (defs.adopt parent child).Filing := by
  by_cases htakes : Takes parent child
  · have halike := own_alike defs parent child
    have hfiling := halike.filing h
    have hparent' := (halike.has parent).trans hparent
    have hchild' := hchild.congr halike.members (halike.has child)
    rw [Definitions.adopt, attach_eq htakes]
    exact (hfiling.settle htakes hparent' hchild').filing hfiling.planted (has_settle _ _ _) htakes
      hparent' hchild'
  · exact adopt_of_not_takes htakes ▸ h

/-! ## Building -/

section Building

variable {made : Definition} {record : Record}

theorem Makes.has (h : defs.Makes defs' made record) (hhas : defs.has definition = true) :
    defs'.has definition = true := by
  obtain ⟨old, hold⟩ := has_iff.mp hhas
  rw [has_iff, h.record?, if_neg (ne_of_has_of_fresh hhas h.fresh)]
  exact ⟨old, hold⟩

/-- What is made is detached. -/
theorem Sprouts.detached (h : defs.Sprouts defs' made record) (hheld : defs.Held) :
    defs'.Detached made where
  has := has_iff.mpr ⟨record, h.makes.record_made⟩
  unlisted holder kind hmem := by
    rw [h.makes.members_eq h.blank.members] at hmem
    exact Bool.eq_false_iff.mp (not_has_iff.mpr (record?_eq_none_of_fresh h.makes.fresh))
      (hheld holder kind made hmem)

/-- A module that is made has given no token. -/
theorem makeModule_sprouts (defs : Definitions) (name : String) :
    defs.Sprouts (defs.makeModule { name }).2 (.module (defs.makeModule { name }).1)
      (ModuleDef.record { name }) where
  makes := makeModule_makes defs { name }
  blank := ⟨funext fun kind => by cases kind <;> rfl, rfl, rfl, rfl⟩
  ledger module hmodule := by
    have hne : Definition.module module ≠ .module (defs.makeModule { name }).1 :=
      ne_of_has_of_fresh hmodule rfl
    have hindex : module.index ≠ defs.modules.next := fun heq =>
      hne (congrArg Definition.module (DefId.eq_mk_iff.mpr heq))
    simp [ledger, Definitions.module, makeModule, hindex]
  empty module heq := by
    cases heq
    simp [ledger, Definitions.module, makeModule]

/-- All that is ever done to definitions: something is made, which may then be adopted, something
detached is adopted, or something is altered that has no part in tokens. -/
theorem Builds.cases (h : defs.Builds defs') :
    (∃ made record, defs.Sprouts defs' made record) ∨
      (∃ between parent made record, defs.Sprouts between made record ∧ defs.has parent = true ∧
        defs' = between.adopt parent made) ∨
      (∃ parent child, defs.has parent = true ∧ defs.Detached child ∧
        defs' = defs.adopt parent child) ∨
      defs.Alike defs' := by
  -- Adding something is making it and adopting it at once: both are the same by definition.
  cases h with
  | makeModule name => exact .inl ⟨_, _, makeModule_sprouts defs name⟩
  | makeType hblank => exact .inl ⟨_, _, (makeType_makes ..).sprouts nofun hblank fun _ => rfl⟩
  | makeField hblank => exact .inl ⟨_, _, (makeField_makes ..).sprouts nofun hblank fun _ => rfl⟩
  | makeMethod hblank => exact .inl ⟨_, _, (makeMethod_makes ..).sprouts nofun hblank fun _ => rfl⟩
  | makeProperty hblank =>
      exact .inl ⟨_, _, (makeProperty_makes ..).sprouts nofun hblank fun _ => rfl⟩
  | makeEvent hblank => exact .inl ⟨_, _, (makeEvent_makes ..).sprouts nofun hblank fun _ => rfl⟩
  | addType hmodule hblank =>
      exact .inr (.inl ⟨_, _, _, _, (makeType_makes ..).sprouts nofun hblank fun _ => rfl,
        hmodule, rfl⟩)
  | addNested howner hblank =>
      exact .inr (.inl ⟨_, _, _, _, (makeType_makes ..).sprouts nofun hblank fun _ => rfl,
        howner, rfl⟩)
  | addField howner hblank =>
      exact .inr (.inl ⟨_, _, _, _, (makeField_makes ..).sprouts nofun hblank fun _ => rfl,
        howner, rfl⟩)
  | addMethod howner hblank =>
      exact .inr (.inl ⟨_, _, _, _, (makeMethod_makes ..).sprouts nofun hblank fun _ => rfl,
        howner, rfl⟩)
  | addProperty howner hblank =>
      exact .inr (.inl ⟨_, _, _, _, (makeProperty_makes ..).sprouts nofun hblank fun _ => rfl,
        howner, rfl⟩)
  | addEvent howner hblank =>
      exact .inr (.inl ⟨_, _, _, _, (makeEvent_makes ..).sprouts nofun hblank fun _ => rfl,
        howner, rfl⟩)
  | adopt hparent hchild => exact .inr (.inr (.inl ⟨_, _, hparent, hchild, rfl⟩))
  | alter hchanges hnature hmembers hledgers =>
      exact .inr (.inr (.inr (.of_changes hchanges hmembers (fun record => by rw [hnature])
        (fun record => by rw [hnature]) hledgers)))

/-- Whatever is done to definitions, each module has given tokens to what it holds and to nothing
else. -/
theorem Filing.builds (h : defs.Filing) (hbuilds : defs.Builds defs') : defs'.Filing := by
  obtain ⟨made, record, hsprouts⟩ | ⟨between, parent, made, record, hsprouts, hparent, rfl⟩ |
    ⟨parent, child, hparent, hchild, rfl⟩ | halike := hbuilds.cases
  · exact h.sprouts hsprouts
  · exact (h.sprouts hsprouts).adopt (hsprouts.makes.has hparent)
      (hsprouts.detached h.planted.held)
  · exact h.adopt hparent hchild
  · exact halike.filing h

/-- What exists still does, whatever is done to definitions. -/
theorem Builds.has (hbuilds : defs.Builds defs') (hhas : defs.has definition = true) :
    defs'.has definition = true := by
  obtain ⟨made, record, hsprouts⟩ | ⟨between, parent, made, record, hsprouts, -, rfl⟩ |
    ⟨parent, child, -, -, rfl⟩ | halike := hbuilds.cases
  · exact hsprouts.makes.has hhas
  · exact (has_adopt ..).trans (hsprouts.makes.has hhas)
  · exact (has_adopt ..).trans hhas
  · exact (halike.has definition).trans hhas

/-- Where nothing is defined, nothing is filed. -/
theorem Filing.empty : Filing {} := by
  have hhas (definition : Definition) : has {} definition = false := by
    cases definition <;> rfl
  refine ⟨⟨held_empty, fun holder kind => ?_, fun {holder} _ _ _ _ hmem => ?_⟩, fun module hmodule => ?_,
    fun definition hdefinition => ?_⟩
  · cases holder <;> cases kind <;> exact .nil
  · cases (hhas holder).symm.trans (has_of_mem_members hmem)
  · cases (hhas _).symm.trans hmodule
  · cases (hhas _).symm.trans hdefinition

end Building

end Graft.Definitions
