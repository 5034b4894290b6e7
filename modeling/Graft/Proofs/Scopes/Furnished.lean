import Graft.Proofs.Scopes.Furnishing

/-!
# What becomes of definitions while modules and types are resolved

While modules and types are resolved the details of a type are changed by the one declaration that
it stands for, and by nothing else, and what is made is made as its declaration says (`Furnished`).
-/

namespace Graft

/-- Of modules and types only types are inside something else. -/
theorem Declarations.exists_type_of_parent? {decls : Declarations} {declaration parent : Declaration}
    (hparent : decls.parent? declaration = some parent) (hscope : declaration.kind.isScope = true) :
    ∃ id, declaration = .type id := by
  cases declaration with
  | type id => exact ⟨id, rfl⟩
  | module => cases hparent
  | field | method | property | event => cases hscope

namespace Moment

variable {world : World} {source : SourceId} {names : List String} {asked : Declaration → Prop}
  {now next : Moment} {declaration : Declaration} {definition holder : Definition}

/-- What a type is from the moment that it is made for its declaration inside a holder. -/
def typeNature (now : Moment) (id : DeclId .type) (holder : Definition) (token : Option Token) :
    Nature where
  name := (now.decls.statement (.type id)).name
  namespaceName := (now.decls.statement (.type id)).namespaceName
  token
  owner := ownerIn holder
  module := now.moduleIn holder

/-- A record is what is made for a type if it is what is made for its declaration. -/
theorem Renders.typeNature_eq {id : DeclId .type} {record : Record}
    (h : now.Renders (.type id) holder record) :
    record.nature = now.typeNature id holder record.nature.token := by
  obtain ⟨⟨name, namespaceName, shape, token, owner, module⟩, details, body, members⟩ := record
  obtain ⟨rfl, rfl, -, rfl, rfl, rfl, -⟩ := h
  rfl

/-- Of modules and types only the details of types are changed. -/
theorem exists_type_of_stated {amendment : Amendment}
    (hstated : amendment.Stated now declaration definition)
    (hscope : declaration.kind.isScope = true) : ∃ id, declaration = .type id := by
  cases declaration with
  | type id => exact ⟨id, rfl⟩
  | module =>
      cases amendment <;>
        simp [Amendment.Stated, Declarations.statement, Declaration.kind, SymbolKind.scheme?] at hstated
  | field | method | property | event => cases hscope

/-- Whether a record is one of what was made for a module or a type, as it is declared. -/
def Provides (now : Moment) : Declaration → Record → Prop
  | .module id, record =>
    record.nature = { name := (now.decls.module id).name } ∧ record.details = {}
  | .type id, record => ∃ parent holder, now.decls.parent? (.type id) = some parent ∧
    now.answer parent = some holder ∧ record.nature = now.typeNature id holder record.nature.token
  | _, _ => False

/-- Whether definitions have been changed by the types that they stand for, and by these only as they
say; what is new was made as it is declared. -/
structure Furnished (start : SessionState) (now : Moment) : Prop where
  types : ∀ id type, now.answer (.type id) = some (.type type) →
    ∃ record, now.defs.record? (.type type) = some record ∧
      now.Furnishes id type record.nature.owner.isSome (start.original (.type id) (.type type))
        record.details
  touched : ∀ definition before after, start.world.defs.record? definition = some before →
    now.defs.record? definition = some after → after.details = before.details ∨
      ∃ id, now.answer (.type id) = some definition ∧ now.decls.Writable (.type id)
  bodies : start.world.defs.KeepsBodies now.defs
  made : ∀ declaration definition, (declaration, definition) ∈ now.made →
    ∃ record, now.defs.record? definition = some record ∧ record.body = none ∧
      now.Provides declaration record
  linked : ∀ definition record module, now.defs.record? definition = some record →
    record.nature.module = some module → now.defs.Issued (.module module)

/-- The module around a definition that exists exists. -/
theorem has_moduleIn {module : DefId .module} (hhas : now.defs.has holder = true)
    (hmodule : now.moduleIn holder = some module) : now.defs.has (.module module) = true := by
  cases holder with
  | module =>
      cases hmodule
      exact hhas
  | type => exact (Option.filter_eq_some_iff.mp hmodule).2
  | field | method | property | event => cases hmodule

/-- The module around a definition does not change. -/
theorem Later.moduleIn_eq (h : now.Later next) (hhas : now.defs.has holder = true)
    (hlinked : ∀ definition record module, now.defs.record? definition = some record →
      record.nature.module = some module → now.defs.Issued (.module module)) :
    next.moduleIn holder = now.moduleIn holder := by
  cases holder with
  | module | field | method | property | event => rfl
  | type id =>
      obtain ⟨record, hrecord⟩ := Definitions.has_iff.mp hhas
      obtain ⟨record', hrecord', hnature, -⟩ := h.grows.kept _ _ hrecord
      simp only [moduleIn, Definitions.moduleOf?_eq, hrecord, hrecord', Option.bind_some, hnature]
      cases hmodule : record.nature.module with
      | none => rfl
      | some module =>
          have hissued := hlinked _ _ _ hrecord hmodule
          have hsame : next.defs.has (.module module) = now.defs.has (.module module) :=
            Bool.eq_iff_iff.mpr ⟨h.grows.has_of_issued hissued, h.grows.has⟩
          simp [Option.filter_some, hsame]

/-- What was made as it is declared stays so. -/
theorem Provides.later {record record' : Record} (h : now.Provides declaration record)
    (hlater : now.Later next) (hsound : now.Sound) (hanswers : now.answer.Extends next.answer)
    (hlinked : ∀ definition record module, now.defs.record? definition = some record →
      record.nature.module = some module → now.defs.Issued (.module module))
    (hnature : record'.nature = record.nature)
    (hdetails : declaration.kind = .module → record'.details = record.details) :
    next.Provides declaration record' := by
  have hdecls : next.decls = now.decls := hlater.decls
  cases declaration with
  | module id => exact ⟨by rw [hnature, hdecls]; exact h.1, (hdetails rfl).trans h.2⟩
  | type id =>
      obtain ⟨parent, holder, hparent, hholder, hsame⟩ := h
      refine ⟨parent, holder, hdecls ▸ hparent, hanswers _ _ hholder, ?_⟩
      rw [hnature, hsame, typeNature, typeNature, hdecls,
        hlater.moduleIn_eq (hsound.has_answer hholder) hlinked]
  | field | method | property | event => exact h.elim

section Steps

variable (hscoping : world.Scoping source names asked) (h : now.Underway world source names asked)
  (hfurnished : now.Furnished (world.opened source names))

include hscoping h hfurnished

omit hfurnished in
/-- What a declaration refers to has been made at some time. -/
theorem Underway.knows_stated (hanswer : now.answer declaration = some definition) :
    now.defs.Knows (now.decls.statement declaration).targets := by
  rw [h.orderly.decls]
  exact (hscoping.opened.known _ (h.orderly.asked _ _ hanswer)).mono h.orderly.grows

omit hfurnished in
/-- What a definition referred to at first has been made at some time. -/
theorem Underway.knows_original (declaration : Declaration) (definition : Definition) :
    now.defs.Knows (((world.opened source names).original declaration definition).interfaces.flatMap
      TypeRef.targets) := by
  unfold SessionState.original
  split
  · have hnamed := hscoping.opened.wellFormed.named _ _ ‹_›
    simp only [Record.named, Definitions.knows_append] at hnamed
    exact hnamed.2.mono h.orderly.grows
  · simp [Definitions.Knows]

/-- What a declaration finds has not been changed before, and was there from the beginning. -/
theorem Furnished.found (hnext : next.Underway world source names asked)
    (hstate : next.state = now.state) (hanswers : now.answer.Extends next.answer)
    (hnone : now.answer declaration = none) (hanswer : next.answer declaration = some definition) :
    (world.opened source names).Old definition ∧ ∀ before after,
      (world.opened source names).world.defs.record? definition = some before →
      now.defs.record? definition = some after → after.details = before.details := by
  have hprepared := hscoping.opened
  have hsole {other : Declaration} (hother : now.answer other = some definition) : False := by
    cases hnext.orderly.injective hprepared (hanswers _ _ hother) hanswer
    simp [hnone] at hother
  have hdefs : next.defs = now.defs := congrArg (·.world.defs) hstate
  constructor
  · obtain hold | ⟨other, hmade⟩ | ⟨hidden, hmem, -⟩ :=
      h.census.new definition (hdefs ▸ hnext.orderly.sound.has_answer hanswer)
    · exact hold
    · exact (hsole (h.orderly.sound.made _ hmade)).elim
    · simp [h.hidden] at hmem
  · intro before after hbefore hafter
    refine (hfurnished.touched _ _ _ hbefore hafter).resolve_right ?_
    rintro ⟨id, hother, -⟩
    exact hsole hother

section Onward

variable (hnext : next.Underway world source names asked) (hlater : now.Later next)
  (hanswers : now.answer.Extends next.answer) (hbodies : now.defs.KeepsBodies next.defs)

include hnext hlater hanswers hbodies

omit hscoping hnext in
/-- What was made for declarations is there as it was made. -/
theorem Furnished.made_onward
    (hmodules : ∀ definition record record', definition.kind = .module →
      now.defs.record? definition = some record → next.defs.record? definition = some record' →
      record'.details = record.details)
    (hprovided : ∀ declaration definition, (declaration, definition) ∈ next.made →
      (declaration, definition) ∈ now.made ∨ ∃ record, next.defs.record? definition = some record ∧
        record.body = none ∧ next.Provides declaration record)
    (hmem : (declaration, definition) ∈ next.made) : ∃ record,
      next.defs.record? definition = some record ∧ record.body = none ∧
        next.Provides declaration record := by
  obtain hmem | hnew := hprovided declaration definition hmem
  · obtain ⟨record, hrecord, hbare, hprovides⟩ := hfurnished.made declaration definition hmem
    obtain ⟨record', hrecord', hsame⟩ := hbodies _ _ hrecord
    have hkind := h.orderly.sound.kinds _ _ (h.orderly.sound.made _ hmem)
    exact ⟨record', hrecord', hsame.trans hbare, hprovides.later hlater h.orderly.sound hanswers
      hfurnished.linked (hlater.grows.nature_eq hrecord hrecord')
      fun hmodule => hmodules definition record record' (hkind.trans hmodule) hrecord hrecord'⟩
  · exact hnew

omit hnext hanswers hbodies hscoping h in
/-- Modules that definitions belong to were made at some time. -/
theorem Furnished.linked_onward
    (hlinked : ∀ definition record module, next.defs.record? definition = some record →
      now.defs.has definition = false → record.nature.module = some module →
      next.defs.Issued (.module module))
    {record : Record} {module : DefId .module} (hrecord : next.defs.record? definition = some record)
    (hmodule : record.nature.module = some module) : next.defs.Issued (.module module) := by
  cases hhas : now.defs.has definition with
  | false => exact hlinked definition record module hrecord hhas hmodule
  | true =>
      obtain ⟨record', hrecord'⟩ := Definitions.has_iff.mp hhas
      rw [hlater.grows.nature_eq hrecord' hrecord] at hmodule
      exact hlater.grows.issued _ (hfurnished.linked _ _ _ hrecord' hmodule)

/-- What becomes of definitions where the details of none is changed. -/
theorem Furnished.onward (hmade : now.made ⊆ next.made) (hdetails : now.defs.KeepsDetails next.defs)
    (hnew : ∀ id type, next.answer (.type id) = some (.type type) →
      now.answer (.type id) = some (.type type) ∨
        ∃ record, next.defs.record? (.type type) = some record ∧
          record.details = (world.opened source names).original (.type id) (.type type))
    (hprovided : ∀ declaration definition, (declaration, definition) ∈ next.made →
      (declaration, definition) ∈ now.made ∨ ∃ record, next.defs.record? definition = some record ∧
        record.body = none ∧ next.Provides declaration record)
    (hlinked : ∀ definition record module, next.defs.record? definition = some record →
      now.defs.has definition = false → record.nature.module = some module →
      next.defs.Issued (.module module)) :
    next.Furnished (world.opened source names) where
  types id type hanswer := by
    obtain hanswer | ⟨record, hrecord, hsame⟩ := hnew id type hanswer
    · obtain ⟨record, hrecord, hfurnishes⟩ := hfurnished.types id type hanswer
      obtain ⟨record', hrecord', hsame⟩ := hdetails _ _ hrecord
      refine ⟨record', hrecord', ?_⟩
      rw [hsame, hlater.grows.nature_eq hrecord hrecord']
      exact hfurnishes.mono hlater h.orderly.sound h.orderly.wellFormed hnext.orderly.wellFormed
        hanswers hmade (h.knows_original hscoping _ _) (h.knows_stated hscoping hanswer)
    · exact ⟨record, hrecord, hsame ▸ .refl ..⟩
  touched definition before after hbefore hafter := by
    obtain ⟨record, hrecord, -⟩ := h.orderly.grows.kept _ _ hbefore
    rw [hdetails.details_eq hrecord hafter]
    refine (hfurnished.touched definition before record hbefore hrecord).imp_right ?_
    rintro ⟨id, hanswer, hwritable⟩
    exact ⟨id, hanswers _ _ hanswer, hlater.decls ▸ hwritable⟩
  bodies := hfurnished.bodies.trans hbodies
  made _ _ hmem := hfurnished.made_onward h hlater hanswers hbodies
    (fun _ _ _ _ hrecord hrecord' => hdetails.details_eq hrecord hrecord') hprovided hmem
  linked _ _ _ hrecord hmodule := hfurnished.linked_onward hlater hlinked hrecord hmodule

/-- Where nothing is resolved nothing is changed. -/
theorem Furnished.idle (hanswer : next.answer = now.answer) (hmade : next.made = now.made)
    (hdefs : next.defs = now.defs) : next.Furnished (world.opened source names) := by
  refine hfurnished.onward hscoping h hnext hlater hanswers hbodies (hmade ▸ List.Subset.refl _)
    (hdefs ▸ .refl _) (fun _ _ hknown => .inl (hanswer ▸ hknown))
    (fun _ _ hmem => .inl (hmade ▸ hmem)) fun _ record _ hrecord hnone => ?_
  rw [hdefs] at hrecord
  simp [Definitions.has_iff.mpr ⟨record, hrecord⟩] at hnone

/-- A module is made as it is declared. -/
theorem Furnished.makeModule {id : DeclId .module} {name : String}
    (hname : (now.decls.module id).name = name)
    (hdefs : next.defs = (now.defs.makeModule { name }).2)
    (hmade : next.made = (.module id, .module ⟨now.defs.modules.next⟩) :: now.made)
    (htypes : ∀ other : DeclId .type, next.answer (.type other) = now.answer (.type other)) :
    next.Furnished (world.opened source names) := by
  have hmakes := Definitions.makeModule_makes now.defs { name }
  rw [← hdefs] at hmakes
  refine hfurnished.onward hscoping h hnext hlater hanswers hbodies
    (hmade ▸ List.subset_cons_self _ _) hmakes.keepsDetails
    (fun other type hanswer => .inl ((htypes other).symm.trans hanswer)) ?_ ?_
  · intro other found hmem
    rw [hmade] at hmem
    obtain heq | hmem := List.mem_cons.mp hmem
    · cases heq
      have hdecls : next.decls = now.decls := hlater.decls
      exact .inr ⟨_, hmakes.record_made, rfl, by rw [hdecls, hname]; rfl, rfl⟩
    · exact .inl hmem
  · intro found record module hrecord hnone hmodule
    rw [hmakes.record?] at hrecord
    split at hrecord
    · cases hrecord
      cases hmodule
    · simp [Definitions.has_iff.mpr ⟨record, hrecord⟩] at hnone

/-- A type is made as it is declared. -/
theorem Furnished.create {id : DeclId .type} {parent : Declaration} {holder made : Definition}
    {record : Record} (hparent : now.decls.parent? (.type id) = some parent)
    (hholder : now.answer parent = some holder) (hrenders : now.Renders (.type id) holder record)
    (hadds : now.defs.Adds next.defs holder made record)
    (hmade : next.made = (.type id, made) :: now.made)
    (hanswer : ∀ other, next.answer other = if other = .type id then some made else now.answer other) :
    next.Furnished (world.opened source names) := by
  have hdecls : next.decls = now.decls := hlater.decls
  have hfresh : (world.opened source names).world.defs.record? made = none := by
    refine Definitions.not_has_iff.mp (Bool.eq_false_iff.mpr fun hhas => ?_)
    exact Definitions.ne_of_has_of_fresh (h.orderly.grows.has hhas) hadds.fresh rfl
  have hhas := h.orderly.sound.has_answer hholder
  refine hfurnished.onward hscoping h hnext hlater hanswers hbodies
    (hmade ▸ List.subset_cons_self _ _) hadds.keepsDetails ?_ ?_ ?_
  · intro other type hknown
    rw [hanswer] at hknown
    split at hknown
    · cases hknown
      rename_i heq
      cases heq
      refine .inr ⟨record, hadds.record_made, ?_⟩
      rw [SessionState.original, hfresh, hrenders.details, hrenders.flags, h.orderly.decls]
    · exact .inl hknown
  · intro other found hmem
    rw [hmade] at hmem
    obtain heq | hmem := List.mem_cons.mp hmem
    · cases heq
      refine .inr ⟨record, hadds.record_made, hrenders.body, parent, holder, hdecls ▸ hparent,
        hanswers _ _ hholder, ?_⟩
      rw [typeNature, hlater.moduleIn_eq hhas hfurnished.linked, hdecls]
      exact hrenders.typeNature_eq
    · exact .inl hmem
  · intro found other module hrecord hnone hmodule
    have hsame : found = made := by
      refine (hadds.has_iff.mp (Definitions.has_iff.mpr ⟨other, hrecord⟩)).resolve_left ?_
      simp [hnone]
    subst hsame
    cases hrecord.symm.trans hadds.record_made
    rw [hrenders.module, if_pos (by rfl)] at hmodule
    exact hlater.grows.issued _ (Definitions.issued_of_has (has_moduleIn hhas hmodule))

/-- What a declaration is found to stand for has not been changed before. -/
theorem Furnished.locate (hstate : next.state = now.state) (hmade : next.made = now.made)
    (hnone : now.answer declaration = none)
    (hanswer : ∀ other,
      next.answer other = if other = declaration then some definition else now.answer other) :
    next.Furnished (world.opened source names) := by
  have hdefs : next.defs = now.defs := congrArg (·.world.defs) hstate
  refine hfurnished.onward hscoping h hnext hlater hanswers hbodies (hmade ▸ List.Subset.refl _)
    (hdefs ▸ .refl _) ?_ (fun _ _ hmem => .inl (hmade ▸ hmem)) fun found record _ hrecord hnew => ?_
  · intro other type hknown
    rw [hanswer] at hknown
    split at hknown
    · rename_i heq
      subst heq
      cases hknown
      have hknown : next.answer (.type other) = some (.type type) := by rw [hanswer, if_pos rfl]
      obtain ⟨hold, hsame⟩ := hfurnished.found hscoping h hnext hstate hanswers hnone hknown
      obtain ⟨before, hbefore⟩ := Definitions.has_iff.mp hold
      obtain ⟨after, hafter, -⟩ := h.orderly.grows.kept _ _ hbefore
      refine .inr ⟨after, hdefs ▸ hafter, ?_⟩
      rw [SessionState.original, hbefore]
      exact hsame before after hbefore hafter
    · exact .inl hknown
  · rw [hdefs] at hrecord
    simp [Definitions.has_iff.mpr ⟨record, hrecord⟩] at hnew

end Onward

/-- The details of the type that is being resolved are changed, and of no other one. -/
theorem Furnished.amend {rest : InFlight} {amendment : Amendment} {defs : Definitions}
    (hnext : (now.withDefs defs).Underway world source names asked)
    (hstack : now.stack = (declaration, some definition) :: rest)
    (hwritable : now.decls.Writable declaration)
    (hstated : amendment.Stated now declaration definition)
    (hchanges : now.defs.Changes defs definition (Record.alter (amendment.apply ·))) :
    (now.withDefs defs).Furnished (world.opened source names) := by
  have hprepared := hscoping.opened
  have hsound := h.orderly.sound
  have htop := hsound.answer_top hstack
  have hlater : now.Later (now.withDefs defs) :=
    Later.withDefs (hchanges.grows (fun _ => rfl) fun _ => rfl)
  have hanswers : now.answer.Extends (now.withDefs defs).answer := fun _ _ hknown => hknown
  obtain ⟨id, rfl⟩ : ∃ id, declaration = .type id :=
    exists_type_of_stated hstated (hscoping.scopes _ (h.orderly.asked _ _ htop))
  obtain ⟨type, rfl⟩ : ∃ type, definition = .type type := by
    have hkind := hsound.kinds _ _ htop
    cases definition <;> cases hkind
    exact ⟨_, rfl⟩
  -- Only this type is changed, and it is a type because all that was asked for are scopes.
  have hother {found : Definition} (hne : found ≠ .type type) :
      defs.record? found = now.defs.record? found := by
    rw [hchanges.record?, if_neg hne]
  have hfurnishes {id : DeclId .type} {found : DefId .type} {record : Record}
      (hanswer : now.answer (.type id) = some (.type found))
      (hfurnished : now.Furnishes id found record.nature.owner.isSome
        ((world.opened source names).original (.type id) (.type found)) record.details) :
      (now.withDefs defs).Furnishes id found record.nature.owner.isSome
        ((world.opened source names).original (.type id) (.type found)) record.details :=
    hfurnished.mono hlater hsound h.orderly.wellFormed hnext.orderly.wellFormed hanswers
      (List.Subset.refl _) (h.knows_original hscoping _ _) (h.knows_stated hscoping hanswer)
  have hbodies : now.defs.KeepsBodies defs := hchanges.keepsBodies fun _ => rfl
  constructor
  · intro other found hanswer
    obtain ⟨record, hrecord, hmore⟩ := hfurnished.types other found hanswer
    by_cases heq : found = type
    · subst heq
      cases h.orderly.injective hprepared hanswer htop
      refine ⟨record.alter (amendment.apply ·), by simp [hchanges.record?, hrecord], ?_⟩
      refine @hfurnishes _ _ (record.alter (amendment.apply ·)) hanswer
        (hmore.amend hrecord hstated fun detail hmem hdetail => ?_)
      obtain ⟨found', hfound, hholds⟩ := h.orderly.confirmed _ _ hmem hdetail
      cases hfound.symm.trans htop
      exact hholds
    · exact ⟨record, (hother fun hsame => heq (Definition.type.inj hsame)).trans hrecord,
        hfurnishes hanswer hmore⟩
  · intro found before after hbefore hafter
    by_cases heq : found = .type type
    · subst heq
      exact .inr ⟨id, htop, hwritable⟩
    · exact hfurnished.touched found before after hbefore ((hother heq).symm.trans hafter)
  · exact hfurnished.bodies.trans hbodies
  · intro other found hmem
    refine hfurnished.made_onward h hlater hanswers hbodies ?_ (fun _ _ hmem => .inl hmem) hmem
    intro found record record' hkind hrecord hrecord'
    have hne : found ≠ .type type := fun heq => by simp [heq, Definition.kind] at hkind
    cases hrecord.symm.trans ((hother hne).symm.trans hrecord')
    rfl
  · intro found record module hrecord hmodule
    refine hfurnished.linked_onward hlater (fun other record' _ hrecord' hnone => ?_) hrecord hmodule
    have hhas : defs.has other = true := Definitions.has_iff.mpr ⟨record', hrecord'⟩
    simp [← hchanges.has_eq, hhas] at hnone

/-- Only the details of what a type stands for are changed, and only to what it says. -/
theorem Step.furnished (hstep : Step asked {} now next) :
    next.Furnished (world.opened source names) := by
  have hnext := hstep.underway hscoping h
  have hsound := h.orderly.sound
  have hlater := hstep.later hsound
  have hanswers := hstep.answers rfl hsound
  have hbodies := hstep.keepsBodies rfl hsound
  have hidle (hanswer : next.answer = now.answer) (hmade : next.made = now.made)
      (hdefs : next.defs = now.defs) : next.Furnished (world.opened source names) :=
    hfurnished.idle hscoping h hnext hlater hanswers hbodies hanswer hmade hdefs
  cases hstep with
  | quiet hquiet => exact hidle rfl rfl hquiet.defs
  | load hstack hasked hname hnone hload =>
      exact hidle rfl rfl (congrArg World.defs (h.opened_of_load hscoping hasked hname hnone hload).1)
  | enter _ _ hstack => exact hidle (answer_enter hstack) rfl rfl
  | makeModule hstack hasked hwritable hname =>
      refine hfurnished.makeModule hscoping h hnext hlater hanswers hbodies hname rfl rfl ?_
      exact fun other => (hsound.answer_locate hstack (.type other)).trans (if_neg nofun)
  | create hstack hasked hwritable hpolicy hmissing hparent hholder hkind hrenders hadds =>
      obtain ⟨id, rfl⟩ := Declarations.exists_type_of_parent? hparent (hscoping.scopes _ hasked)
      exact hfurnished.create hscoping h hnext hlater hanswers hbodies hparent hholder hrenders hadds
        rfl (hsound.answer_locate hstack)
  | locate hstack =>
      exact hfurnished.locate hscoping h hnext hlater hanswers hbodies rfl rfl
        (hsound.unanswered hstack) (hsound.answer_locate hstack)
  | confirm => exact hidle rfl rfl rfl
  | amend hstack hasked hwritable hstated hchanges =>
      exact hfurnished.amend hscoping h hnext hstack hwritable hstated hchanges
  | remember hstack => exact hidle (hsound.answer_remember hstack) rfl rfl
  | abandon hfails | hide hfails | graft hfails => cases hfails

end Steps

/-! ## Every run -/

/-- Where nothing has been resolved yet nothing has been changed. -/
theorem furnished_of_same (hscoping : world.Scoping source names asked)
    (hsound : now.Sound) (hdefs : now.defs = (world.opened source names).world.defs)
    (hanswers : ∀ declaration, now.answer declaration = none) :
    now.Furnished (world.opened source names) where
  types id type hanswer := by simp [hanswers] at hanswer
  touched definition before after hbefore hafter := by
    rw [hdefs] at hafter
    cases hbefore.symm.trans hafter
    exact .inl rfl
  bodies := hdefs ▸ .refl _
  made declaration definition hmem := by
    have hanswer := hsound.made _ hmem
    simp [hanswers] at hanswer
  linked definition record module hrecord hmodule := by
    rw [hdefs] at hrecord ⊢
    exact (hscoping.anchored definition record hrecord).2.2 module hmodule

/-- Whether a session is resolving modules and types: it is underway, or it waits for a module that
the source has. -/
def Proceeding (world : World) (source : SourceId) (names : List String)
    (asked : Declaration → Prop) (now : Moment) : Prop :=
  (now.Underway world source names asked ∧ now.Furnished (world.opened source names)) ∨
    now.Waiting world source asked ∧ ∀ id, asked (.module id) → ∃ module after,
      (Task.load now.session.source (now.decls.module id).name).on now.world = (.ok module, after)

section Proceeding

variable (h : now.Proceeding world source names asked)

include h

theorem Proceeding.decls (hscoping : world.Scoping source names asked) : now.decls = world.decls :=
  h.elim (fun h => h.1.decls hscoping) fun h => h.1.decls

theorem Proceeding.slots_eq : now.world.slots = world.slots :=
  h.elim (fun h => h.1.slots) fun h => h.1.slots

theorem Proceeding.pending : ∀ entry ∈ now.stack, asked entry.1 :=
  h.elim (fun h => h.1.pending) fun h => h.1.pending

end Proceeding

/-- A session that is asked for nothing but modules and types resolves these. -/
theorem Run.proceeding (hrun : Run asked {} (begin source world) now)
    (hscoping : world.Scoping source names asked) : now.Proceeding world source names asked := by
  have hbegin := orderly_begin hscoping.prepared
  have hstart (declaration : Declaration) : (begin source world).answer declaration = none := by
    simp [begin, answer, Dictionary.get?]
  obtain hsame | ⟨name, module, after, hnames, hload, hdefs⟩ := hscoping.steady.opened_cases
  · exact .inl (hrun.keeps (P := fun now => now.Underway world source names asked ∧
        now.Furnished (world.opened source names)) hbegin.sound
      (fun hstep _ h => ⟨hstep.underway hscoping h.1, hstep.furnished hscoping h.1 h.2⟩)
      ⟨underway_begin hscoping hsame,
        furnished_of_same hscoping hbegin.sound (by rw [hsame]; rfl) hstart⟩)
  · have h : (now.Underway world source names asked ∧ now.Furnished (world.opened source names)) ∨
        now.Waiting world source asked := by
      refine hrun.keeps (P := fun now => (now.Underway world source names asked ∧
        now.Furnished (world.opened source names)) ∨ now.Waiting world source asked) hbegin.sound ?_
        (.inr (waiting_begin hscoping hnames))
      rintro now next hstep - (⟨h, hfurnished⟩ | h)
      · exact .inl ⟨hstep.underway hscoping h, hstep.furnished hscoping h hfurnished⟩
      · obtain h | ⟨h, hsame, hanswers⟩ := Step.waiting hscoping hnames hload hdefs h hstep
        · exact .inr h
        · exact .inl ⟨h, furnished_of_same hscoping h.orderly.sound hsame hanswers⟩
    exact h.imp_right fun h => ⟨h, fun id hasked => ⟨_, _, h.load_eq hscoping hnames hload hasked⟩⟩

end Moment

end Graft
