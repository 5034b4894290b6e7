import Graft.Proofs.Declaration.Naming
import Graft.Proofs.Definition.Belonging
import Graft.Proofs.Definition.WellFormed
import Graft.Proofs.Session.Standing

/-!
# Modules that are left alone

Where nothing that may be changed is declared inside what is read-only, a session changes modules
only that are themselves declared and may be changed (`Run.spares`): whatever it writes stands for a
declaration, and the module around that declaration may be changed as well (`Touches.of_stands`).
-/

namespace Graft

/-- Whether what is declared inside something read-only is read-only, too. -/
def Declarations.Inherits (decls : Declarations) (asked : Declaration → Prop) : Prop :=
  ∀ declaration parent, asked declaration → decls.parent? declaration = some parent →
    decls.Writable declaration → decls.Writable parent

/-- Whether a list of declarations inherits can be checked one declaration after another. -/
theorem Declarations.inherits_iff {decls : Declarations} {nodes : List Declaration} :
    decls.Inherits (· ∈ nodes) ↔ ∀ node ∈ nodes, ∀ parent ∈ decls.parent? node,
      (decls.terms node).readOnly = false → (decls.terms parent).readOnly = false :=
  ⟨fun h node hnode parent hparent => h node parent hnode hparent,
    fun h node parent hnode hparent => h node hnode parent hparent⟩

instance (decls : Declarations) (nodes : List Declaration) :
    Decidable (decls.Inherits (· ∈ nodes)) :=
  decidable_of_iff' _ Declarations.inherits_iff

namespace Moment

open SessionState

variable {asked : Declaration → Prop} {mode : Mode} {start : Definitions} {now next : Moment}
  {declaration : Declaration} {definition : Definition} {module : DefId .module}

/-- Whether a module is the one of a declaration that may be changed. -/
def Touches (asked : Declaration → Prop) (now : Moment) (module : DefId .module) : Prop :=
  ∃ id, asked (.module id) ∧ now.decls.Writable (.module id) ∧
    now.session.modules.get? (now.decls.module id).name = some module

/-- Whether no module has changed but those of declarations that may be changed. -/
structure Spares (asked : Declaration → Prop) (start : Definitions) (now : Moment) : Prop where
  atHome : now.defs.AtHome
  spared : ∀ module, now.defs.has (.module module) = true → now.Touches asked module ∨
    start.has (.module module) = true ∧ start.SameModule now.defs module

theorem Later.touches (h : now.Later next) (htouches : now.Touches asked module) :
    next.Touches asked module := by
  obtain ⟨id, hasked, hwritable, hmodule⟩ := htouches
  rw [← h.decls] at hwritable hmodule
  exact ⟨id, hasked, hwritable, h.modules _ _ hmodule⟩

/-- What stands for a declaration that may be changed is held by a module of which the same is
true: by induction on the declarations around it. -/
theorem Touches.of_stands (hclosed : now.decls.Closed asked) (hinherits : now.decls.Inherits asked)
    (hstands : Stands now.state declaration definition) (hasked : asked declaration)
    (hwritable : now.decls.Writable declaration) :
    ∃ module, now.Touches asked module ∧ now.defs.Below (.module module) definition := by
  induction hstands with
  | @module id found hmodule => exact ⟨found, ⟨id, hasked, hwritable, hmodule⟩, .top⟩
  | member hparent _ _ hmem _ _ _ ih =>
      obtain ⟨module, htouches, hbelow⟩ :=
        ih (hclosed.parent _ _ hasked hparent) (hinherits _ _ hasked hparent hwritable)
      exact ⟨module, htouches, .member hbelow hmem⟩
  | method hparent _ _ hmem _ _ _ _ _ ih =>
      obtain ⟨module, htouches, hbelow⟩ :=
        ih (hclosed.parent _ _ hasked hparent) (hinherits _ _ hasked hparent hwritable)
      exact ⟨module, htouches, .member hbelow hmem⟩

/-- A definition that something may be written for belongs to a module of which the same is true. -/
theorem Spares.home (h : now.Spares asked start) (hsound : now.Sound)
    (hclosed : now.decls.Closed asked) (hinherits : now.decls.Inherits asked)
    (hstands : Stands now.state declaration definition) (hasked : asked declaration)
    (hwritable : now.decls.Writable declaration) :
    ∃ module, now.Touches asked module ∧ now.defs.home? definition = some module := by
  obtain ⟨module, htouches, hbelow⟩ := Touches.of_stands hclosed hinherits hstands hasked hwritable
  obtain ⟨id, -, -, hmodule⟩ := id htouches
  exact ⟨module, htouches, h.atHome module definition (hsound.modules _ _ hmodule) hbelow⟩

/-! ## Every step -/

/-- Where definitions stay as they are, nothing is touched. -/
theorem Spares.same (h : now.Spares asked start) (hlater : now.Later next)
    (hdefs : next.defs = now.defs) : next.Spares asked start := by
  refine ⟨hdefs ▸ h.atHome, fun module hhas => ?_⟩
  rw [hdefs] at hhas ⊢
  exact (h.spared module hhas).imp_left hlater.touches

/-- Where only one module changes, of which that may be so, all others are left alone. -/
theorem Spares.step (h : now.Spares asked start) (hlater : now.Later next)
    (htouches : next.Touches asked module) (hhome : next.defs.AtHome)
    (hsame : ∀ other, next.defs.has (.module other) = true → other ≠ module →
      now.defs.has (.module other) = true ∧ now.defs.SameModule next.defs other) :
    next.Spares asked start := by
  refine ⟨hhome, fun other hhas => ?_⟩
  by_cases heq : other = module
  · exact .inl (heq ▸ htouches)
  · obtain ⟨hbefore, hkept⟩ := hsame other hhas heq
    refine (h.spared other hbefore).imp hlater.touches fun ⟨hstart, hsame⟩ => ?_
    exact ⟨hstart, hsame.trans hkept⟩

/-- An addition to a definition of a module of which that may be so. -/
theorem Spares.adds (h : now.Spares asked start) (hsound : now.Sound)
    {holder made : Definition} {record : Record} {defs : Definitions}
    (htouches : now.Touches asked module) (hholder : now.defs.home? holder = some module)
    (hadds : now.defs.Adds defs holder made record) (hempty : record.members = fun _ => [])
    (hkind : made.kind ≠ .module) (hmade : defs.home? made = some module)
    (hlater : now.Later next) (hdefs : next.defs = defs) : next.Spares asked start := by
  subst hdefs
  refine h.step hlater (hlater.touches htouches) (hadds.atHome hempty hkind ?_ h.atHome) ?_
  · intro other hother
    cases hholder.symm.trans hother
    exact hmade
  · intro other hhas hne
    have hbefore : now.defs.has (.module other) = true := by
      obtain hold | heq := hadds.has_iff.mp hhas
      · exact hold
      · exact absurd (congrArg Definition.kind heq).symm hkind
    exact ⟨hbefore, hadds.sameModule h.atHome hholder hbefore hsound.held hne⟩

/-- A change of a definition of a module of which that may be so. -/
theorem Spares.changes (h : now.Spares asked start) {changed : Definition}
    {change : Record → Record} {defs : Definitions} (htouches : now.Touches asked module)
    (hchanged : now.defs.home? changed = some module)
    (hchanges : now.defs.Changes defs changed change)
    (hnature : ∀ record, (change record).nature = record.nature)
    (hmembers : ∀ record, (change record).members = record.members) :
    (now.withDefs defs).Spares asked start := by
  have hlater : now.Later (now.withDefs defs) :=
    Later.withDefs (hchanges.grows hnature hmembers)
  refine h.step hlater (hlater.touches htouches) (hchanges.atHome hnature hmembers h.atHome) ?_
  intro other hhas hne
  have hbefore : now.defs.has (.module other) = true := by
    rwa [withDefs_defs, hchanges.has_eq] at hhas
  exact ⟨hbefore, hchanges.sameModule h.atHome hchanged hbefore hne⟩

/-- What a declaration renders belongs where the definition around it does. -/
theorem Renders.home {parent : Declaration} {holder made : Definition} {record : Record}
    {defs : Definitions} (hrenders : now.Renders declaration holder record)
    (hparent : now.decls.parent? declaration = some parent) (hinside : holder.kind = parent.kind)
    (hkind : made.kind = declaration.kind) (hadds : now.defs.Adds defs holder made record)
    (hholder : now.defs.home? holder = some module) : defs.home? made = some module := by
  have hgrows := hadds.grows
  obtain ⟨outer, houter, hhome⟩ := Definitions.home?_eq_some.mp hholder
  have hnot := Declarations.kind_ne_module_of_parent? hparent
  rw [← hkind] at hnot
  refine Definitions.home?_eq_some.mpr ⟨record, hadds.record_made, ?_⟩
  obtain hnested | ⟨hmodule, htop⟩ := Declarations.kind_of_parent? hparent
  · -- Inside a type: a nested type is in the module of that type, a member in the type itself.
    cases holder with
    | module | field | method | property | event => cases hinside.trans hnested
    | type id =>
        cases made with
        | module => exact absurd rfl hnot
        | type made =>
            dsimp only
            rw [hrenders.module, if_pos (show declaration.kind = .type from hkind.symm), moduleIn,
              Definitions.moduleOf?_eq, houter, Option.bind_some, hhome.1, Option.filter_some,
              if_pos hhome.2]
            exact ⟨rfl, hgrows.has hhome.2⟩
        | field | method | property | event =>
            exact ⟨id, hrenders.owner, hgrows.home? hholder⟩
  · cases holder with
    | type | field | method | property | event => cases hinside.trans hmodule
    | module id =>
        subst hhome
        cases made with
        | type made =>
            dsimp only
            rw [hrenders.module, if_pos htop]
            exact ⟨rfl, hgrows.has (Definitions.has_iff.mpr ⟨outer, houter⟩)⟩
        | module | field | method | property | event => cases hkind.trans htop

theorem Step.spares (hstep : Step asked mode now next) (hsound : now.Sound)
    (hstanding : now.Standing) (hclosed : now.decls.Closed asked)
    (hinherits : now.decls.Inherits asked) {modules : Dictionary String (DefId .module)}
    {saves : Dictionary String Nat}
    (hmemory : now.world.source now.session.source = .memory modules saves)
    (h : now.Spares asked start) : next.Spares asked start := by
  have hlater := hstep.later hsound
  -- A step that changes something does so at home in one module, and this one is touched.
  cases hstep with
  | quiet hquiet => exact h.same hlater hquiet.defs
  | load hstack hasked hname hnone hload =>
      rw [Task.load_memory hmemory] at hload
      exact h.same hlater (congrArg World.defs (congrArg Prod.snd hload).symm)
  | enter | locate | confirm | remember | abandon => exact h.same hlater rfl
  | @makeModule id rest name hstack hasked hwritable hname =>
      have hmakes := Definitions.makeModule_makes now.defs { name }
      refine h.step hlater (show Touches asked _ ⟨now.defs.modules.next⟩ from
        ⟨id, hasked, hwritable, ?_⟩) (Definitions.makeModule_atHome h.atHome)
        fun other hhas hne => ?_
      · subst hname
        exact (Dictionary.get?_insert ..).trans (if_pos rfl)
      · have hnew : Definition.module other ≠ .module (now.defs.makeModule { name }).1 :=
          fun heq => hne (Definition.module.inj heq)
        have hbefore : now.defs.has (.module other) = true := by
          replace hhas : (now.defs.makeModule { name }).2.has (.module other) = true := hhas
          rwa [Definitions.has_eq_isSome, hmakes.record?, if_neg hnew,
            ← Definitions.has_eq_isSome] at hhas
        exact ⟨hbefore, Definitions.makeModule_sameModule hsound.held hbefore⟩
  | create hstack hasked hwritable _ _ hparent hholder hkind hrenders hadds =>
      obtain ⟨module, htouches, hhome⟩ := h.home hsound hclosed hinherits
        (hstanding.answer hholder) (hclosed.parent _ _ hasked hparent)
        (hinherits _ _ hasked hparent hwritable)
      have hmade := hrenders.home hparent (hsound.kinds _ _ hholder) hkind hadds hhome
      refine h.adds hsound htouches hhome hadds hrenders.members ?_ hmade hlater rfl
      intro hmodule
      exact Declarations.kind_ne_module_of_parent? hparent (hkind.symm.trans hmodule)
  | amend hstack hasked hwritable _ hchanges =>
      have hstands := hstanding.located _ _ (hstack ▸ List.mem_cons_self)
      obtain ⟨module, htouches, hhome⟩ := h.home hsound hclosed hinherits hstands hasked hwritable
      exact h.changes htouches hhome hchanges (fun _ => rfl) fun _ => rfl
  | @hide id method hidden owner record made defs _ hasked hwritable hmemo hrecord howner _ hnature _
      _ hmembers hadds =>
      obtain ⟨module, htouches, hhome⟩ := h.home hsound hclosed hinherits
        (hstanding.remembered _ _ hmemo) hasked hwritable
      obtain ⟨record', hrecord', owner', howner', hhome'⟩ := Definitions.home?_eq_some.mp hhome
      cases hrecord.symm.trans hrecord'
      cases howner.symm.trans howner'
      refine h.adds hsound htouches hhome' hadds hmembers (by simp [Definition.kind]) ?_ hlater rfl
      refine Definitions.home?_eq_some.mpr ⟨made, hadds.record_made, owner, ?_, ?_⟩
      · rw [hnature]
      · exact hadds.grows.home? hhome'
  | graft hgrafts hasked hwritable hmemo hchanges =>
      obtain ⟨module, htouches, hhome⟩ := h.home hsound hclosed hinherits
        (hstanding.remembered _ _ hmemo) hasked hwritable
      exact h.changes htouches hhome hchanges (fun _ => rfl) fun _ => rfl

theorem Run.spares (hrun : Run asked mode now next) (hsound : now.Sound)
    (hstanding : now.Standing) (hclosed : now.decls.Closed asked)
    (hinherits : now.decls.Inherits asked) {modules : Dictionary String (DefId .module)}
    {saves : Dictionary String Nat}
    (hmemory : now.world.source now.session.source = .memory modules saves)
    (h : now.Spares asked start) : next.Spares asked start := by
  suffices now.Later next ∧ next.Standing ∧ next.Spares asked start from this.2.2
  refine hrun.keeps (P := fun next => now.Later next ∧ next.Standing ∧ next.Spares asked start)
    hsound ?_ ⟨.refl now, hstanding, h⟩
  rintro middle next hstep hsound ⟨hlater, hstanding, h⟩
  have hmemory : middle.world.source middle.session.source = .memory modules saves := by
    rw [World.source, hlater.sources, hlater.source]
    exact hmemory
  exact ⟨hlater.trans (hstep.later hsound), hstep.standing hsound hstanding,
    hstep.spares hsound hstanding (hlater.decls ▸ hclosed) (hlater.decls ▸ hinherits) hmemory h⟩

/-! ## Names of modules -/

/-- Whether a session knows every module by the module's own name. -/
def Named (now : Moment) : Prop :=
  ∀ name module, now.session.modules.get? name = some module →
    (now.defs.module module).name = name

theorem Named.same (h : now.Named) (hsound : now.Sound) (hlater : now.Later next)
    (hmodules : next.session.modules = now.session.modules) : next.Named := by
  intro name module hmodule
  rw [hmodules] at hmodule
  rw [hlater.grows.module_name (hsound.modules name module hmodule)]
  exact h name module hmodule

theorem Step.named (hstep : Step asked mode now next) (hsound : now.Sound)
    {modules : Dictionary String (DefId .module)} {saves : Dictionary String Nat}
    (hmemory : now.world.source now.session.source = .memory modules saves)
    (hkept : ∀ name module, modules.get? name = some module →
      (now.defs.module module).name = name) (h : now.Named) : next.Named := by
  have hlater := hstep.later hsound
  cases hstep with
  | quiet | enter | create | locate | confirm | amend | remember | abandon | hide | graft =>
      exact h.same hsound hlater rfl
  | @load id rest name found world hstack hasked hname hnone hload =>
      rw [Task.load_memory hmemory] at hload
      obtain ⟨hmodule, rfl⟩ := Prod.ext_iff.mp hload
      intro other module hother
      obtain ⟨rfl, rfl⟩ | hother := Dictionary.of_get?_insert hother
      · refine hkept _ _ ?_
        cases hget : modules.get? _ with
        | none => simp [hget] at hmodule
        | some module => simpa [hget] using hmodule
      · exact h other module hother
  | @makeModule id rest name =>
      have hmakes := Definitions.makeModule_makes now.defs { name }
      intro other module hother
      obtain ⟨rfl, rfl⟩ | hother := Dictionary.of_get?_insert hother
      · have hrecord := Definitions.record?_module
          (Definitions.has_iff.mpr ⟨_, hmakes.record_made⟩)
        exact congrArg (·.nature.name)
          (Option.some.inj (hrecord.symm.trans hmakes.record_made))
      · refine (hmakes.grows.module_name (hsound.modules other module hother)).trans ?_
        exact h other module hother

theorem Run.named (hrun : Run asked mode now next) (hsound : now.Sound)
    {modules : Dictionary String (DefId .module)} {saves : Dictionary String Nat}
    (hmemory : now.world.source now.session.source = .memory modules saves)
    (hfaithful : ∀ name module, modules.get? name = some module →
      now.defs.has (.module module) = true ∧ (now.defs.module module).name = name)
    (h : now.Named) : next.Named := by
  suffices now.Later next ∧ next.Named from this.2
  refine hrun.keeps (P := fun next => now.Later next ∧ next.Named) hsound ?_ ⟨.refl now, h⟩
  rintro middle next hstep hsound ⟨hlater, h⟩
  have hmemory : middle.world.source middle.session.source = .memory modules saves := by
    rw [World.source, hlater.sources, hlater.source]
    exact hmemory
  refine ⟨hlater.trans (hstep.later hsound), hstep.named hsound hmemory ?_ h⟩
  intro name module hmodule
  obtain ⟨hhas, hname⟩ := hfaithful name module hmodule
  exact (hlater.grows.module_name hhas).trans hname

end Moment

end Graft
