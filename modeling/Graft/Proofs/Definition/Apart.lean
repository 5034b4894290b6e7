import Graft.Proofs.Declaration.Statement
import Graft.Proofs.Definition.Growth
import Mathlib.Tactic.ByContra

/-!
# Parts that refer to nothing of a set

`Below top definition`: the definition is held by `top`, directly or indirectly. A part of the graph
is `Apart` from a set when nothing in it is in the set or refers into it. This is kept when
definitions are made or changed, as long as what is new refers to nothing of the set either.
`home?` is the module that a definition belongs to by its links upwards.
-/

namespace Graft

/-- Whether a target is a type, a field or a method of a set. Nothing else can be referred to. -/
def Target.Into (set : Definition → Prop) : Target → Prop
  | .definition (.type id) => set (.type id)
  | .definition (.field id) => set (.field id)
  | .definition (.method id) => set (.method id)
  | _ => False

theorem Target.Into.mem {set : Definition → Prop} {target : Target} (h : target.Into set) :
    ∃ definition, target = .definition definition ∧ set definition := by
  cases target with
  | definition definition => cases definition <;> first | exact ⟨_, rfl, h⟩ | exact h.elim
  | declaration | unknown => exact h.elim

instance (set : Definition → Prop) [DecidablePred set] : DecidablePred (Target.Into set)
  | .definition (.type id) => inferInstanceAs (Decidable (set (.type id)))
  | .definition (.field id) => inferInstanceAs (Decidable (set (.field id)))
  | .definition (.method id) => inferInstanceAs (Decidable (set (.method id)))
  | .definition (.module _) | .definition (.property _) | .definition (.event _) => .isFalse id
  | .declaration _ | .unknown => .isFalse id

/-- What the details of a definition refer to. -/
def Details.targets (details : Details) : List Target :=
  details.base.elim [] TypeRef.targets ++ details.interfaces.flatMap TypeRef.targets
    ++ details.generics.flatMap GenericParam.targets
    ++ details.overrides.flatMap Override.targets
    ++ details.accessors.map fun (_, method) => .definition (.method method)

/-- What is linked as an accessor was there before, or is the one linked. -/
theorem Accessors.mem_link {accessors : Accessors} {role : AccessorRole} {method : DefId .method}
    {entry : AccessorRole × DefId .method} (h : entry ∈ accessors.link role method) :
    entry ∈ accessors ∨ entry = (role, method) := by
  unfold link at h
  split at h
  · exact .inl h
  · simpa using h

/-- All that a definition refers to: in its signature, its details and its body. -/
def Record.targets (record : Record) : List Target :=
  record.nature.shape.targets ++ record.details.targets ++ record.body.elim [] Body.targets

namespace Definitions

/-- Whether a definition is held by another one, directly or indirectly, or is that one. -/
inductive Below (defs : Definitions) (top : Definition) : Definition → Prop where
  | top : Below defs top top
  | member {holder definition : Definition} {kind : SymbolKind} (hholder : Below defs top holder)
      (hmem : definition ∈ defs.members holder kind) : Below defs top definition

/-- Whether nothing that a definition holds is in a set or refers into it. -/
def Apart (defs : Definitions) (set : Definition → Prop) (top : Definition) : Prop :=
  ∀ definition, defs.Below top definition → ¬ set definition ∧
    ∀ record, defs.record? definition = some record → ∀ target ∈ record.targets, ¬ target.Into set

/-- The module that a definition belongs to, if it and what is around it exist: a type to the one
it was entered in, a member to that of its type. -/
def home? (defs : Definitions) (definition : Definition) : Option (DefId .module) :=
  (defs.record? definition).bind fun record =>
    match definition with
    | .module id => some id
    | .type id => defs.moduleOf? id
    | _ => (defs.living? record.nature.owner).bind defs.moduleOf?

variable {defs defs' : Definitions} {set : Definition → Prop}
  {top made parent changed definition : Definition} {record : Record} {change : Record → Record}

theorem Below.trans {middle : Definition} (h : defs.Below top middle)
    (h' : defs.Below middle definition) : defs.Below top definition := by
  induction h' with
  | top => exact h
  | member _ hmem ih => exact .member ih hmem

/-- What an apart definition holds is apart. -/
theorem Apart.below (h : defs.Apart set top) (hbelow : defs.Below top definition) :
    defs.Apart set definition :=
  fun _ hother => h _ (hbelow.trans hother)

theorem Apart.member {kind : SymbolKind} (h : defs.Apart set top)
    (hmem : definition ∈ defs.members top kind) : defs.Apart set definition :=
  h.below (.member .top hmem)

theorem Apart.not_mem (h : defs.Apart set top) : ¬ set top :=
  (h top .top).1

theorem Apart.not_into (h : defs.Apart set top) (hrecord : defs.record? top = some record)
    {target : Target} (hmem : target ∈ record.targets) : ¬ target.Into set :=
  (h top .top).2 record hrecord target hmem

/-- What is below a definition is in every list with the definition and all that is held in it. -/
theorem Below.mem_of_closed {nodes : List Definition} (h : defs.Below top definition)
    (htop : top ∈ nodes) (hclosed : ∀ holder ∈ nodes, ∀ kind ∈ SymbolKind.all,
      ∀ definition ∈ defs.members holder kind, definition ∈ nodes) : definition ∈ nodes := by
  induction h with
  | top => exact htop
  | @member holder definition kind _ hmem ih =>
      exact hclosed holder ih kind kind.mem_all definition hmem

/-- Whether a definition is apart can be checked on a list with it and all that is held in it. -/
theorem apart_of_closed (nodes : List Definition) (htop : top ∈ nodes)
    (hclosed : ∀ holder ∈ nodes, ∀ kind ∈ SymbolKind.all,
      ∀ definition ∈ defs.members holder kind, definition ∈ nodes)
    (hnodes : ∀ definition ∈ nodes, ¬ set definition ∧ ∀ record ∈ defs.record? definition,
      ∀ target ∈ record.targets, ¬ target.Into set) : defs.Apart set top := by
  intro definition hbelow
  exact hnodes definition (hbelow.mem_of_closed htop hclosed)

/-! ## Making and changing definitions -/

/-- What is held after an addition was held before, or is what was added. -/
theorem Adds.below (h : defs.Adds defs' parent made record)
    (hempty : record.members = fun _ => []) (hbelow : defs'.Below top definition) :
    defs.Below top definition ∨ definition = made := by
  induction hbelow with
  | top => exact .inl .top
  | @member holder other kind _ hmem ih =>
      rcases (h.mem_members hempty).mp hmem with hmem | ⟨-, -, rfl, -⟩
      · rcases ih with ih | rfl
        · exact .inl (.member ih hmem)
        · obtain ⟨record, hrecord, -⟩ := exists_of_mem_members hmem
          rw [record?_eq_none_of_fresh h.fresh] at hrecord
          cases hrecord
      · exact .inr rfl

theorem Adds.apart (h : defs.Adds defs' parent made record)
    (hempty : record.members = fun _ => []) (hset : ¬ set made)
    (htargets : ∀ target ∈ record.targets, ¬ target.Into set) (hapart : defs.Apart set top) :
    defs'.Apart set top := by
  intro definition hbelow
  by_cases hmade : definition = made
  · subst hmade
    refine ⟨hset, fun other hother => ?_⟩
    cases h.record_made.symm.trans hother
    exact htargets
  · obtain ⟨hnot, hrefs⟩ := hapart definition ((h.below hempty hbelow).resolve_right hmade)
    refine ⟨hnot, fun other hother => ?_⟩
    rw [h.record?, if_neg hmade] at hother
    split at hother
    · obtain ⟨before, hbefore, rfl⟩ := Option.map_eq_some_iff.mp hother
      exact hrefs before hbefore
    · exact hrefs other hother

theorem Makes.apart (h : defs.Makes defs' made record) (hempty : record.members = fun _ => [])
    (htargets : ∀ target ∈ record.targets, ¬ target.Into set)
    (hapart : defs.Apart set top) : defs'.Apart set top := by
  intro definition hbelow
  have hmembers {holder : Definition} {kind : SymbolKind} {other : Definition}
      (hmem : other ∈ defs'.members holder kind) : other ∈ defs.members holder kind := by
    rw [members_eq, h.record?] at hmem
    split at hmem
    · simp [hempty] at hmem
    · rwa [members_eq]
  have hbefore : defs.Below top definition := by
    induction hbelow with
    | top => exact .top
    | member _ hmem ih => exact .member ih (hmembers hmem)
  obtain ⟨hnot, hrefs⟩ := hapart definition hbefore
  refine ⟨hnot, fun other hother => ?_⟩
  rw [h.record?] at hother
  split at hother
  · cases hother
    exact htargets
  · exact hrefs other hother

/-- What a definition by itself refers to, after it was made. -/
theorem Makes.apart_made (h : defs.Makes defs' made record) (hempty : record.members = fun _ => [])
    (hset : ¬ set made) (htargets : ∀ target ∈ record.targets, ¬ target.Into set) :
    defs'.Apart set made := by
  intro definition hbelow
  have hsame : definition = made := by
    induction hbelow with
    | top => rfl
    | member _ hmem ih =>
        subst ih
        simp [members_eq, h.record_made, hempty] at hmem
  subst hsame
  refine ⟨hset, fun other hother => ?_⟩
  cases h.record_made.symm.trans hother
  exact htargets

theorem Changes.apart (h : defs.Changes defs' changed change)
    (hmembers : ∀ record, (change record).members = record.members)
    (htargets : ∀ record, defs.record? changed = some record →
      (∀ target ∈ record.targets, ¬ target.Into set) →
      ∀ target ∈ (change record).targets, ¬ target.Into set)
    (hapart : defs.Apart set top) : defs'.Apart set top := by
  intro definition hbelow
  have hlisted (holder : Definition) (kind : SymbolKind) :
      defs'.members holder kind = defs.members holder kind := by
    rw [members_eq, members_eq, h.record?]
    split
    · cases defs.record? holder <;> simp [hmembers]
    · rfl
  have hbefore : defs.Below top definition := by
    induction hbelow with
    | top => exact .top
    | member _ hmem ih => exact .member ih (hlisted _ _ ▸ hmem)
  obtain ⟨hnot, hrefs⟩ := hapart definition hbefore
  refine ⟨hnot, fun other hother => ?_⟩
  rw [h.record?] at hother
  split at hother
  · obtain ⟨before, hrecord, rfl⟩ := Option.map_eq_some_iff.mp hother
    subst definition
    exact htargets before hrecord (hrefs before hrecord)
  · exact hrefs other hother

theorem Extends.apart (h : defs.Extends defs') (hheld : defs.Held) (hhas : defs.has top = true)
    (hapart : defs.Apart set top) : defs'.Apart set top := by
  intro definition hbelow
  have hbefore : defs.Below top definition ∧ defs.has definition = true := by
    induction hbelow with
    | top => exact ⟨.top, hhas⟩
    | member _ hmem ih =>
        rw [members_eq, h.record? _ ih.2, ← members_eq] at hmem
        exact ⟨.member ih.1 hmem, hheld _ _ _ hmem⟩
  obtain ⟨hnot, hrefs⟩ := hapart definition hbefore.1
  exact ⟨hnot, fun other hother => hrefs other (h.record? _ hbefore.2 ▸ hother)⟩

/-! ## Homes -/

/-- The home of a definition by what the definitions around it are. -/
theorem home?_eq_some {module : DefId .module} :
    defs.home? definition = some module ↔ ∃ record, defs.record? definition = some record ∧
      match definition with
      | .module id => id = module
      | .type _ => record.nature.module = some module ∧ defs.has (.module module) = true
      | _ => ∃ owner, record.nature.owner = some owner ∧ defs.home? (.type owner) = some module := by
  cases hrecord : defs.record? definition with
  | none => simp [home?, hrecord]
  | some record =>
      simp only [home?, hrecord, Option.bind_some, Option.some.injEq, exists_eq_left']
      cases definition with
      | module id => simp
      | type id => simp only [moduleOf?_eq, hrecord, Option.bind_some, Option.filter_eq_some_iff]
      | field | method | property | event =>
          simp only [living?, Option.bind_eq_some_iff, Option.filter_eq_some_iff]
          constructor
          · rintro ⟨owner, ⟨howner, hhas⟩, hmodule⟩
            obtain ⟨type, htype⟩ := has_iff.mp (show defs.has (.type owner) = true from hhas)
            exact ⟨owner, howner, type, htype, hmodule⟩
          · rintro ⟨owner, howner, type, htype, hmodule⟩
            exact ⟨owner, ⟨howner, has_iff.mpr ⟨type, htype⟩⟩, hmodule⟩

/-- A definition stays at home. -/
theorem Grows.home? (h : defs.Grows defs') {module : DefId .module}
    (hhome : defs.home? definition = some module) : defs'.home? definition = some module := by
  have htype {id : DefId .type} (hhome : defs.home? (.type id) = some module) :
      defs'.home? (.type id) = some module := by
    obtain ⟨record, hrecord, hmodule, hhas⟩ := home?_eq_some.mp hhome
    obtain ⟨record', hrecord', hnature, -⟩ := h.kept _ _ hrecord
    exact home?_eq_some.mpr ⟨record', hrecord', by rw [hnature, hmodule], h.has hhas⟩
  obtain ⟨record, hrecord, hplace⟩ := home?_eq_some.mp hhome
  obtain ⟨record', hrecord', hnature, -⟩ := h.kept _ _ hrecord
  refine home?_eq_some.mpr ⟨record', hrecord', ?_⟩
  rw [hnature]
  cases definition with
  | module id => exact hplace
  | type id => exact ⟨hplace.1, h.has hplace.2⟩
  | field | method | property | event =>
      obtain ⟨owner, howner, hhome⟩ := hplace
      exact ⟨owner, howner, htype hhome⟩

/-- What grows by other definitions than those of a module adds nothing to the module. -/
theorem Grows.home?_back (h : defs.Grows defs') {module : DefId .module}
    (hmodule : defs'.has (.module module) = true → defs.has (.module module) = true)
    (hnew : ∀ definition record, defs.record? definition = none →
      defs'.record? definition = some record → record.nature.module ≠ some module ∧
        ∀ owner, record.nature.owner = some owner → defs.home? (.type owner) ≠ some module)
    (hhome : defs'.home? definition = some module) : defs.home? definition = some module := by
  have htype {id : DefId .type} (hhome : defs'.home? (.type id) = some module) :
      defs.home? (.type id) = some module := by
    obtain ⟨record', hrecord', hin, hhas⟩ := home?_eq_some.mp hhome
    cases hrecord : defs.record? (.type id) with
    | none => exact absurd hin (hnew _ _ hrecord hrecord').1
    | some record =>
        have hnature := h.nature_eq hrecord hrecord'
        exact home?_eq_some.mpr ⟨record, hrecord, by rw [← hnature, hin], hmodule hhas⟩
  obtain ⟨record', hrecord', hplace⟩ := home?_eq_some.mp hhome
  cases hrecord : defs.record? definition with
  | none =>
      obtain ⟨hin, howner⟩ := hnew _ _ hrecord hrecord'
      cases definition with
      | module id =>
          subst hplace
          have hhas := hmodule (has_iff.mpr ⟨record', hrecord'⟩)
          simp [has_eq_isSome, hrecord] at hhas
      | type id => exact absurd hplace.1 hin
      | field | method | property | event =>
          obtain ⟨owner, hown, hhome⟩ := hplace
          exact absurd (htype hhome) (howner owner hown)
  | some record =>
      have hnature := h.nature_eq hrecord hrecord'
      refine home?_eq_some.mpr ⟨record, hrecord, ?_⟩
      rw [← hnature]
      cases definition with
      | module id => exact hplace
      | type id => exact ⟨hplace.1, hmodule hplace.2⟩
      | field | method | property | event =>
          obtain ⟨owner, hown, hhome⟩ := hplace
          exact ⟨owner, hown, htype hhome⟩

/-- Changes move nothing into a module. -/
theorem Changes.home?_back (h : defs.Changes defs' changed change)
    (hnature : ∀ record, (change record).nature = record.nature)
    (hmembers : ∀ record, (change record).members = record.members) {module : DefId .module}
    (hhome : defs'.home? definition = some module) : defs.home? definition = some module := by
  have hnone {other : Definition} (hnone : defs.record? other = none) :
      defs'.record? other = none := by
    rw [h.record?, hnone]
    split <;> rfl
  refine (h.grows hnature hmembers).home?_back (fun hhas => ?_) (fun other record hold hnew => ?_)
    hhome
  · by_contra hnot
    rw [Bool.not_eq_true, not_has_iff] at hnot
    rw [has_eq_isSome, hnone hnot] at hhas
    cases hhas
  · cases (hnone hold).symm.trans hnew

/-- An addition outside a module adds nothing to the module. -/
theorem Adds.home?_back (h : defs.Adds defs' parent made record) (hkind : made.kind ≠ .module)
    {module : DefId .module} (hmodule : record.nature.module ≠ some module)
    (howner : ∀ owner, record.nature.owner = some owner → defs.home? (.type owner) ≠ some module)
    (hhome : defs'.home? definition = some module) : defs.home? definition = some module := by
  have hold {other : Definition} (hne : other ≠ made) (hhas : defs'.has other = true) :
      defs.has other = true := by
    rw [has_eq_isSome, h.record?, if_neg hne] at hhas
    rw [has_eq_isSome]
    split at hhas <;> simpa using hhas
  refine h.grows.home?_back (hold (by rintro rfl; exact hkind rfl)) ?_ hhome
  intro other found hnone hfound
  by_cases hmade : other = made
  · subst hmade
    cases h.record_made.symm.trans hfound
    exact ⟨hmodule, howner⟩
  · have hhas := hold hmade (has_iff.mpr ⟨found, hfound⟩)
    rw [has_eq_isSome, hnone] at hhas
    cases hhas

/-- A module that is made adds nothing to another one. -/
theorem makeModule_home?_back {name : String} {module : DefId .module}
    (hhas : defs.has (.module module) = true)
    (hhome : (defs.makeModule { name }).2.home? definition = some module) :
    defs.home? definition = some module := by
  have h := makeModule_makes defs { name }
  refine h.grows.home?_back (fun _ => hhas) ?_ hhome
  intro other found hnone hfound
  rw [h.record?] at hfound
  split at hfound
  · cases hfound
    simp [ModuleDef.record]
  · cases hnone.symm.trans hfound

end Definitions

end Graft
