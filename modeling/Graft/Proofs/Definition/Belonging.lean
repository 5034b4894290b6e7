import Graft.Proofs.Definition.Apart

/-!
# What belongs to a module

Everything that a module holds belongs to it by its links upwards, too (`AtHome`). What is made or
changed inside one module then leaves every other module as it was (`SameModule`): no record of what
that holds changes, and it gives out no token.
-/

namespace Graft.Definitions

/-- Whether everything that a module holds belongs to it. -/
def AtHome (defs : Definitions) : Prop :=
  ∀ module definition, defs.has (.module module) = true →
    defs.Below (.module module) definition → defs.home? definition = some module

/-- Whether a module and everything that it holds is as it was. -/
structure SameModule (defs defs' : Definitions) (module : DefId .module) : Prop where
  ledger : defs'.ledger module = defs.ledger module
  record? : ∀ definition, defs.Below (.module module) definition →
    defs'.record? definition = defs.record? definition

variable {defs defs' defs'' : Definitions} {module other : DefId .module}
  {made parent changed definition : Definition} {record : Record} {change : Record → Record}

/-! ## Modules that stay as they were -/

theorem SameModule.refl (defs : Definitions) (module : DefId .module) :
    defs.SameModule defs module :=
  ⟨rfl, fun _ _ => rfl⟩

/-- A module that is as it was holds what it held. -/
theorem SameModule.below (h : defs.SameModule defs' module)
    (hbelow : defs.Below (.module module) definition) :
    defs'.Below (.module module) definition := by
  induction hbelow with
  | top => exact .top
  | @member holder definition kind hholder hmem ih =>
      have hmem' : definition ∈ defs'.members holder kind := by
        rwa [members_eq, h.record? _ hholder, ← members_eq]
      exact .member ih hmem'

theorem SameModule.trans (h : defs.SameModule defs' module)
    (h' : defs'.SameModule defs'' module) : defs.SameModule defs'' module where
  ledger := h'.ledger.trans h.ledger
  record? definition hbelow :=
    (h'.record? definition (h.below hbelow)).trans (h.record? definition hbelow)

/-! ## Making and changing definitions -/

theorem home?_module (hhas : defs.has (.module module) = true) :
    defs.home? (.module module) = some module := by
  obtain ⟨record, hrecord⟩ := has_iff.mp hhas
  exact home?_eq_some.mpr ⟨record, hrecord, rfl⟩

/-- What is made inside a definition gets its token from the module that the definition belongs
to. -/
theorem host?_eq_some (hhome : defs.home? parent = some module)
    (hhost : defs.host? parent = some other) : other = module := by
  unfold home? at hhome
  obtain ⟨record, -, hhome⟩ := Option.bind_eq_some_iff.mp hhome
  cases parent with
  | module | type => exact Option.some.inj (hhost.symm.trans hhome)
  | field | method | property | event => cases hhost

/-- A new member is below a module only if what it was added to is. -/
theorem Adds.below_module (h : defs.Adds defs' parent made record)
    (hempty : record.members = fun _ => [])
    (hbelow : defs'.Below (.module module) definition) :
    defs.Below (.module module) definition ∨
      definition = made ∧ defs.Below (.module module) parent := by
  have hfresh : defs.has made = false := not_has_iff.mpr (record?_eq_none_of_fresh h.fresh)
  induction hbelow with
  | top => exact .inl .top
  | @member holder definition kind _ hmem ih =>
      rcases (h.mem_members hempty).mp hmem with hmem | ⟨rfl, -, rfl, hparent⟩
      · obtain hholder | ⟨rfl, -⟩ := ih
        · exact .inl (.member hholder hmem)
        · simp [has_of_mem_members hmem] at hfresh
      · obtain hholder | ⟨rfl, -⟩ := ih
        · exact .inr ⟨rfl, hholder⟩
        · simp [hparent] at hfresh

/-- What is added where its parent belongs keeps everything at home. -/
theorem Adds.atHome (h : defs.Adds defs' parent made record)
    (hempty : record.members = fun _ => []) (hkind : made.kind ≠ .module)
    (hplace : ∀ module, defs.home? parent = some module → defs'.home? made = some module)
    (hhome : defs.AtHome) : defs'.AtHome := by
  intro module definition hhas hbelow
  have hhas : defs.has (.module module) = true := by
    rw [has_eq_isSome, h.record?, if_neg (by rintro rfl; exact hkind rfl)] at hhas
    rw [has_eq_isSome]
    split at hhas <;> simpa using hhas
  obtain hbelow | ⟨rfl, hparent⟩ := h.below_module hempty hbelow
  · exact h.grows.home? (hhome module definition hhas hbelow)
  · exact hplace module (hhome module parent hhas hparent)

/-- What is added to one module leaves the others alone. -/
theorem Adds.sameModule (h : defs.Adds defs' parent made record) (hhome : defs.AtHome)
    (hparent : defs.home? parent = some module) (hhas : defs.has (.module other) = true)
    (hheld : defs.Held) (hne : other ≠ module) : defs.SameModule defs' other where
  ledger := h.ledger other fun hhost => hne (host?_eq_some hparent hhost)
  record? definition hbelow := by
    have hexists : defs.has definition = true := by
      cases hbelow with
      | top => exact hhas
      | member _ hmem => exact hheld _ _ _ hmem
    have hmade := ne_of_has_of_fresh hexists h.fresh
    have hother : definition ≠ parent := by
      rintro rfl
      exact hne (Option.some.inj ((hhome other _ hhas hbelow).symm.trans hparent))
    rw [h.record?, if_neg hmade, if_neg hother]

theorem Changes.atHome (h : defs.Changes defs' changed change)
    (hnature : ∀ record, (change record).nature = record.nature)
    (hmembers : ∀ record, (change record).members = record.members) (hhome : defs.AtHome) :
    defs'.AtHome := by
  intro module definition hhas hbelow
  have hlisted (holder : Definition) (kind : SymbolKind) :
      defs'.members holder kind = defs.members holder kind := by
    rw [members_eq, members_eq, h.record?]
    split
    · cases defs.record? holder <;> simp [hmembers]
    · rfl
  have hbefore : defs.Below (.module module) definition := by
    induction hbelow with
    | top => exact .top
    | member _ hmem ih => exact .member ih (hlisted _ _ ▸ hmem)
  have hhas : defs.has (.module module) = true := by
    rw [has_eq_isSome, h.record?] at hhas
    rw [has_eq_isSome]
    split at hhas <;> simpa using hhas
  exact (h.grows hnature hmembers).home? (hhome module definition hhas hbefore)

/-- What changes in one module leaves the others alone. -/
theorem Changes.sameModule (h : defs.Changes defs' changed change) (hhome : defs.AtHome)
    (hchanged : defs.home? changed = some module) (hhas : defs.has (.module other) = true)
    (hne : other ≠ module) : defs.SameModule defs' other := by
  have hother {definition : Definition} (hbelow : defs.Below (.module other) definition) :
      definition ≠ changed := by
    rintro rfl
    exact hne (Option.some.inj ((hhome other _ hhas hbelow).symm.trans hchanged))
  refine ⟨h.ledger other fun heq => hother .top heq.symm, fun definition hbelow => ?_⟩
  rw [h.record?, if_neg (hother hbelow)]

/-- A new module holds nothing but itself. -/
theorem makeModule_below {name : String}
    (hbelow : (defs.makeModule { name }).2.Below (.module module) definition) :
    defs.Below (.module module) definition := by
  have h := makeModule_makes defs { name }
  induction hbelow with
  | top => exact .top
  | @member holder definition kind _ hmem ih =>
      have hbefore : definition ∈ defs.members holder kind := by
        rw [members_eq, h.record?] at hmem
        rw [members_eq]
        split at hmem
        · cases kind <;> simp [ModuleDef.record] at hmem
        · exact hmem
      exact .member ih hbefore

theorem makeModule_atHome {name : String} (hhome : defs.AtHome) :
    (defs.makeModule { name }).2.AtHome := by
  have h := makeModule_makes defs { name }
  intro module definition hhas hbelow
  by_cases hmade : Definition.module module = .module (defs.makeModule { name }).1
  · have hsame : definition = .module module := by
      cases makeModule_below hbelow with
      | top => rfl
      | member hholder hmem =>
          have hfresh : defs.record? (.module module) = none :=
            hmade ▸ record?_eq_none_of_fresh h.fresh
          have hlists (holder : Definition) (hholder : defs.Below (.module module) holder) :
              holder = .module module := by
            induction hholder with
            | top => rfl
            | member _ hmem ih => simp [ih, members_eq, hfresh] at hmem
          rw [hlists _ hholder, members_eq, hfresh] at hmem
          cases hmem
    exact hsame ▸ home?_module hhas
  · have hbefore : defs.has (.module module) = true := by
      rwa [has_eq_isSome, h.record?, if_neg hmade, ← has_eq_isSome] at hhas
    exact h.grows.home? (hhome module definition hbefore (makeModule_below hbelow))

theorem makeModule_sameModule {name : String} (hheld : defs.Held)
    (hhas : defs.has (.module other) = true) :
    defs.SameModule (defs.makeModule { name }).2 other := by
  have h := makeModule_makes defs { name }
  have hother {definition : Definition} (hbelow : defs.Below (.module other) definition) :
      definition ≠ .module (defs.makeModule { name }).1 := by
    have hexists : defs.has definition = true := by
      cases hbelow with
      | top => exact hhas
      | member _ hmem => exact hheld _ _ _ hmem
    exact ne_of_has_of_fresh hexists h.fresh
  refine ⟨?_, fun definition hbelow => by rw [h.record?, if_neg (hother hbelow)]⟩
  have hindex : other.index ≠ defs.modules.next := fun heq =>
    hother .top (congrArg Definition.module (DefId.eq_mk_iff.mpr heq))
  simp [ledger, Definitions.module, makeModule, Table.get?_push, hindex]

theorem atHome_empty : ({} : Definitions).AtHome :=
  fun _ _ hhas => nomatch hhas

/-- A type that is added to a module is at home there. -/
theorem atHome_addType (h : defs.AtHome) (hmodule : defs.has (.module module) = true)
    (namespaceName name : String) (flags : UInt32) :
    (defs.addType module { namespaceName, name, flags }).2.AtHome := by
  have hempty : (TypeDef.record { namespaceName, name, flags }).members = fun _ => [] :=
    TypeDef.members_eq_nil rfl rfl rfl rfl rfl
  obtain ⟨token, hadds⟩ := addType_adds { namespaceName, name, flags } hmodule hempty
  refine hadds.atHome hempty nofun (fun other hother => ?_) h
  obtain rfl := Option.some.inj ((home?_module hmodule).symm.trans hother)
  exact home?_eq_some.mpr ⟨_, hadds.record_made, rfl, hadds.grows.has hmodule⟩

end Graft.Definitions
