import Graft.Proofs.Definition.Apart
import Graft.Proofs.Session.Leads

/-!
# Keeping apart from a module

Declarations that refer to nothing of a module, and whose modules are apart from it, lead to nothing
of that module: whatever a session finds, makes or changes for them stays apart (`Separate`). This
is kept by every step of a resolution (`Step.separate`).
-/

namespace Graft

/-- Whether a source hands out, under a name, only what is apart from a set, and adds nothing to a
module. -/
def World.Lends (world : World) (source : SourceId) (patch : DefId .module)
    (set : Definition → Prop) (name : String) : Prop :=
  match world.source source with
  | .memory modules _ => ∀ module, modules.get? name = some module →
      world.defs.Apart set (.module module)
  | .streamed _ codec => ∀ bytes defs module defs', world.defs.Grows defs → defs.Held →
      codec.decode name bytes defs = .ok (module, defs') →
      defs'.Apart set (.module module) ∧
        ∀ definition, defs'.home? definition = some patch → defs.home? definition = some patch

namespace Moment

/-- Whether a session keeps apart from all that belongs to a module, and so does all that may be
asked of it. -/
structure Separate (asked : Declaration → Prop) (patch : DefId .module) (set : Definition → Prop)
    (now : Moment) : Prop where
  itself : now.defs.has (.module patch) = true
  belongs : ∀ definition, set definition ↔ now.defs.home? definition = some patch
  stated : ∀ declaration, asked declaration →
    ∀ target ∈ (now.decls.statement declaration).targets, ¬ target.Into set
  lends : ∀ id, asked (.module id) →
    now.world.Lends now.session.source patch set (now.decls.module id).name
  modules : ∀ name module, now.session.modules.get? name = some module →
    now.defs.Apart set (.module module)
  remembered : ∀ declaration definition,
    now.session.resolved.get? declaration = some definition → now.defs.Apart set definition
  located : ∀ declaration definition, (declaration, some definition) ∈ now.stack →
    now.defs.Apart set definition

variable {asked : Declaration → Prop} {patch : DefId .module} {set : Definition → Prop}
  {mode : Mode} {now next : Moment} {declaration : Declaration} {definition : Definition}
  {rest : InFlight}

/-- Every answer is apart. -/
theorem Separate.answer (h : now.Separate asked patch set)
    (hanswer : now.answer declaration = some definition) : now.defs.Apart set definition :=
  (cases_of_answer hanswer).elim (h.remembered _ _) (h.located _ _)

/-- What is found is apart. -/
theorem Separate.found (h : now.Separate asked patch set)
    (hfound : now.Found declaration definition) : now.defs.Apart set definition := by
  cases hfound with
  | module hmodule => exact h.modules _ _ hmodule
  | member hparent hholder hkind hmembers =>
      exact (h.answer hholder).member (hmembers ▸ List.mem_append_right _ List.mem_cons_self)

/-- The definition of the innermost declaration is put on the stack. -/
theorem Separate.locate (h : now.Separate asked patch set)
    (hstack : now.stack = (declaration, none) :: rest) (hapart : now.defs.Apart set definition) :
    (now.withStack ((declaration, some definition) :: rest)).Separate asked patch set := by
  refine { h with located := fun other found hmem => ?_ }
  rcases List.mem_cons.mp hmem with heq | hmem
  · cases heq
    exact hapart
  · exact h.located other found (by rw [hstack]; exact List.mem_cons_of_mem _ hmem)

/-- What is filled in refers to nothing of the set. -/
theorem Separate.not_into_fill (h : now.Separate asked patch set) {targets : List Target}
    (hsettled : now.answer.SettlesAll targets) (hstated : ∀ target ∈ targets, ¬ target.Into set) :
    ∀ target ∈ targets.flatMap now.fill.image, ¬ target.Into set := by
  intro target hmem hinto
  obtain ⟨source, hsource, hmem⟩ := List.mem_flatMap.mp hmem
  rcases mem_image_fill (hsettled source hsource) hmem with rfl |
    ⟨declaration, definition, -, hanswer, rfl⟩
  · exact hstated _ hsource hinto
  · obtain ⟨_, heq, hset⟩ := hinto.mem
    cases heq
    exact (h.answer hanswer).not_mem hset

/-- A session stays apart when the definitions change and everything stays apart that was. -/
theorem Separate.withDefs {defs : Definitions} (h : now.Separate asked patch set)
    (hsound : now.Sound) (hgrows : now.defs.Grows defs)
    (hapart : ∀ top, now.defs.has top = true → now.defs.Apart set top → defs.Apart set top)
    (hback : ∀ definition, defs.home? definition = some patch →
      now.defs.home? definition = some patch) :
    (now.withDefs defs).Separate asked patch set where
  itself := hgrows.has h.itself
  belongs definition := (h.belongs definition).trans ⟨hgrows.home?, hback definition⟩
  stated := h.stated
  lends id hasked := by
    have hlends := h.lends id hasked
    have hsource := hsound.source
    have hsame : (now.withDefs defs).world.source now.session.source =
        now.world.source now.session.source := rfl
    unfold World.Lends at hlends ⊢
    rw [withDefs_session, withDefs_decls, hsame]
    cases hkind : now.world.source now.session.source with
    | memory modules saves =>
        rw [hkind] at hlends hsource
        exact fun module hmodule => hapart _ (hsource _ module hmodule) (hlends module hmodule)
    | streamed store codec =>
        rw [hkind] at hlends
        exact fun bytes before module after hlater => hlends bytes before module after
          (hgrows.trans hlater)
  modules name module hmodule := hapart _ (hsound.modules name module hmodule)
    (h.modules name module hmodule)
  remembered declaration definition hmemo := hapart _ (hsound.remembered _ _ hmemo)
    (h.remembered declaration definition hmemo)
  located declaration definition hmem := hapart _ (hsound.located _ _ hmem)
    (h.located declaration definition hmem)

/-- What an amendment writes refers to nothing of the set. -/
theorem Separate.not_into_amend (h : now.Separate asked patch set) (hasked : asked declaration)
    {amendment : Amendment} (hstated : amendment.Stated now declaration definition)
    {record : Record}
    (htargets : ∀ target ∈ record.targets, ¬ target.Into set) :
    ∀ target ∈ (Record.alter (amendment.apply ·) record).targets, ¬ target.Into set := by
  -- What is written was stated by the declaration and filled in with answers, neither of which
  -- leads into the set.
  have hfill {targets : List Target} (hsettled : now.answer.SettlesAll targets)
      (hsub : targets ⊆ (now.decls.statement declaration).targets) :
      ∀ target ∈ targets.flatMap now.fill.image, ¬ target.Into set :=
    h.not_into_fill hsettled fun target hmem => h.stated _ hasked target (hsub hmem)
  obtain ⟨nature, details, body, members⟩ := record
  simp only [Record.targets, Record.alter, Details.targets, List.forall_mem_append] at htargets ⊢
  obtain ⟨⟨hshape, ⟨⟨⟨hbase, hinterfaces⟩, hgenerics⟩, hoverrides⟩, haccessors⟩, hbody⟩ := htargets
  cases amendment with
  | flags value =>
      exact ⟨⟨hshape, ⟨⟨⟨hbase, hinterfaces⟩, hgenerics⟩, hoverrides⟩, haccessors⟩, hbody⟩
  | base type =>
      obtain ⟨declared, hdeclared, hsettled, rfl, -⟩ := hstated
      refine ⟨⟨hshape, ⟨⟨⟨?_, hinterfaces⟩, hgenerics⟩, hoverrides⟩, haccessors⟩, hbody⟩
      rw [Amendment.apply, Option.elim_some, TypeRef.targets_relink]
      refine hfill hsettled fun target hmem => ?_
      simp [Statement.targets, hdeclared, hmem]
  | interface type =>
      obtain ⟨front, declared, others, hdeclared, hsettled, rfl, -, -⟩ := hstated
      refine ⟨⟨hshape, ⟨⟨⟨hbase, ?_⟩, hgenerics⟩, hoverrides⟩, haccessors⟩, hbody⟩
      rw [Amendment.apply, List.flatMap_append, List.forall_mem_append, List.flatMap_singleton,
        TypeRef.targets_relink]
      refine ⟨hinterfaces, hfill hsettled fun target hmem => ?_⟩
      simp only [Statement.targets, hdeclared, List.mem_append, List.mem_flatMap]
      exact .inl (.inl (.inr ⟨declared, .inr List.mem_cons_self, hmem⟩))
  | generics params =>
      obtain ⟨declared, hdeclared, hsettled, rfl, -⟩ := hstated
      refine ⟨⟨hshape, ⟨⟨⟨hbase, hinterfaces⟩, ?_⟩, hoverrides⟩, haccessors⟩, hbody⟩
      have himage : (declared.map (GenericParam.relink now.fill)).flatMap GenericParam.targets =
          (declared.flatMap GenericParam.targets).flatMap now.fill.image := by
        simp only [List.flatMap_map, List.flatMap_assoc, GenericParam.targets_relink]
      rw [Amendment.apply, himage]
      refine hfill hsettled fun target hmem => ?_
      simp [Statement.targets, hdeclared, hmem]
  | override added =>
      obtain ⟨front, declared, others, hdeclared, hsettled, rfl, -, -⟩ := hstated
      refine ⟨⟨hshape, ⟨⟨⟨hbase, hinterfaces⟩, hgenerics⟩, ?_⟩, haccessors⟩, hbody⟩
      rw [Amendment.apply, List.flatMap_append, List.forall_mem_append, List.flatMap_singleton,
        Override.targets_relink]
      refine ⟨hoverrides, hfill hsettled fun target hmem => ?_⟩
      simp only [Statement.targets, hdeclared, List.mem_append, List.mem_flatMap]
      exact .inr ⟨declared, .inr List.mem_cons_self, hmem⟩
  | accessor role method =>
      obtain ⟨front, declared, others, hdeclared, hanswer, -⟩ := hstated
      refine ⟨⟨hshape, ⟨⟨⟨hbase, hinterfaces⟩, hgenerics⟩, hoverrides⟩, ?_⟩, hbody⟩
      intro target hmem hinto
      obtain ⟨⟨role', method'⟩, hlinked, rfl⟩ := List.mem_map.mp hmem
      rcases Accessors.mem_link hlinked with hold | heq
      · exact haccessors _ (List.mem_map.mpr ⟨_, hold, rfl⟩) hinto
      · cases heq
        exact (h.answer hanswer).not_mem hinto

/-- What a declaration renders refers to nothing of the set. -/
theorem Separate.not_into_render (h : now.Separate asked patch set) (hasked : asked declaration)
    {holder : Definition} {record : Record} (hrenders : now.Renders declaration holder record) :
    ∀ target ∈ record.targets, ¬ target.Into set := by
  have hdetails : record.details.targets = [] := by
    rw [hrenders.details]
    rfl
  rw [Record.targets, hdetails, hrenders.shape, hrenders.body, Shape.targets_relink,
    Option.elim_none, List.append_nil, List.append_nil]
  refine h.not_into_fill hrenders.settled fun target hmem => ?_
  refine h.stated declaration hasked target ?_
  simp only [Statement.targets, List.mem_append]
  exact .inl (.inl (.inl (.inl hmem)))

/-- What is new is in no set that has existed before. -/
theorem Separate.not_mem_fresh (h : now.Separate asked patch set)
    (hfresh : definition.index = now.defs.next definition.kind) : ¬ set definition := by
  intro hset
  obtain ⟨record, hrecord, -⟩ := Definitions.home?_eq_some.mp ((h.belongs definition).mp hset)
  rw [Definitions.record?_eq_none_of_fresh hfresh] at hrecord
  cases hrecord

/-- What is made inside an answer does not belong to the module. -/
theorem Separate.create (h : now.Separate asked patch set) (hsound : now.Sound)
    (hasked : asked declaration) {parent : Declaration} {holder made : Definition}
    {record : Record} {defs : Definitions} (hparent : now.decls.parent? declaration = some parent)
    (hholder : now.answer parent = some holder) (hkind : made.kind = declaration.kind)
    (hrenders : now.Renders declaration holder record)
    (hadds : now.defs.Adds defs holder made record) :
    (now.withDefs defs).Separate asked patch set := by
  have hapart := h.answer hholder
  refine h.withDefs hsound hadds.grows (fun top _ => hadds.apart hrenders.members
    (h.not_mem_fresh hadds.fresh) (h.not_into_render hasked hrenders)) fun _ => ?_
  refine hadds.home?_back ?_ ?_ ?_
  · rw [hkind]
    rintro hmodule
    cases declaration <;> simp [Declaration.kind, Declarations.parent?] at hmodule hparent
  · rw [hrenders.module]
    split
    · intro hmodule
      cases holder with
      | module id =>
          cases hmodule
          obtain ⟨record, hrecord⟩ := Definitions.has_iff.mp h.itself
          exact hapart.not_mem
            ((h.belongs _).mpr (Definitions.home?_eq_some.mpr ⟨record, hrecord, rfl⟩))
      | type id =>
          refine hapart.not_mem ((h.belongs _).mpr (Definitions.home?_eq_some.mpr ?_))
          obtain ⟨record, hrecord⟩ := Definitions.has_iff.mp (hsound.has_answer hholder)
          simp only [moduleIn, Definitions.moduleOf?_eq, hrecord, Option.bind_some,
            Option.filter_eq_some_iff] at hmodule
          exact ⟨record, hrecord, hmodule⟩
      | field | method | property | event => cases hmodule
    · simp
  · intro owner howner hhome
    rw [hrenders.owner] at howner
    cases holder with
    | type id =>
        cases howner
        exact hapart.not_mem ((h.belongs _).mpr hhome)
    | module | field | method | property | event => cases howner

/-- A hidden method refers to what the method refers to, and belongs where the method does. -/
theorem Separate.hide (h : now.Separate asked patch set) (hsound : now.Sound)
    {id : DeclId .method} {method hidden : DefId .method} {owner : DefId .type}
    {record made : Record} {defs : Definitions}
    (hmemo : now.session.resolved.get? (.method id) = some (.method method))
    (hrecord : now.defs.record? (.method method) = some record)
    (howner : record.nature.owner = some owner)
    (hnature : made.nature =
      { name := made.nature.name
        shape := record.nature.shape
        token := made.nature.token
        owner := some owner })
    (hdetails : made.details = { flags := record.details.flags &&& Flags.static })
    (hbody : made.body = record.body) (hmembers : made.members = fun _ => [])
    (hadds : now.defs.Adds defs (.type owner) (.method hidden) made) :
    (now.withDefs defs).Separate asked patch set := by
  have hapart := h.remembered _ _ hmemo
  refine h.withDefs hsound hadds.grows (fun top _ => hadds.apart hmembers
    (h.not_mem_fresh hadds.fresh) fun target hmem => ?_) fun _ => ?_
  · refine hapart.not_into hrecord ?_
    rw [Record.targets, hnature, hdetails, hbody] at hmem
    simp only [Details.targets, Record.targets, List.mem_append] at hmem ⊢
    rcases hmem with (hmem | hmem) | hmem
    · exact .inl (.inl hmem)
    · simp at hmem
    · exact .inr hmem
  · refine hadds.home?_back (by simp [Definition.kind]) (by rw [hnature]; simp) ?_
    intro other hother hhome
    rw [hnature] at hother
    cases hother
    exact hapart.not_mem
      ((h.belongs _).mpr (Definitions.home?_eq_some.mpr ⟨record, hrecord, owner, howner, hhome⟩))

/-- What the source hands out is apart. -/
theorem Separate.load (h : now.Separate asked patch set) (hsound : now.Sound) {id : DeclId .module}
    {module : DefId .module} {world : World} (hasked : asked (.module id))
    (hload : (Task.load now.session.source (now.decls.module id).name).on now.world =
      (.ok module, world)) :
    (now.withDefs world.defs).Separate asked patch set ∧ world.defs.Apart set (.module module) := by
  have hlends := h.lends id hasked
  unfold World.Lends at hlends
  cases hkind : now.world.source now.session.source with
  | memory modules saves =>
      rw [hkind] at hlends
      rw [Task.load_memory hkind] at hload
      obtain ⟨hmodule, rfl⟩ := Prod.ext_iff.mp hload
      refine ⟨h.withDefs hsound (.refl _) (fun _ _ h => h) fun _ h => h, hlends module ?_⟩
      cases hget : modules.get? (now.decls.module id).name with
      | none => simp [hget] at hmodule
      | some found => simpa [hget] using hmodule
  | streamed store codec =>
      rw [hkind] at hlends
      have hsource := hsound.source
      rw [hkind] at hsource
      obtain ⟨bytes, defs, hdecode, rfl⟩ := Task.load_streamed hkind hload
      obtain ⟨hextends, -, -⟩ := hsource _ bytes _ defs module hsound.held hdecode
      obtain ⟨hapart, hback⟩ := hlends bytes _ module defs (.refl _) hsound.held hdecode
      exact ⟨h.withDefs hsound hextends.grows (fun top hhas => hextends.apart hsound.held hhas)
        hback, hapart⟩

/-- Every step without a graft keeps apart. -/
theorem Step.separate (hstep : Step asked mode now next) (hmode : mode.grafts = false)
    (hsound : now.Sound) (h : now.Separate asked patch set) : next.Separate asked patch set := by
  cases hstep with
  | @quiet world hits hquiet =>
      have hsource (id : SourceId) : world.source id = now.world.source id := by
        simp [World.source, hquiet.sources]
      constructor
      · simpa [hquiet.defs] using h.itself
      · simpa [hquiet.defs] using h.belongs
      · simpa [hquiet.decls] using h.stated
      · simpa [hquiet.decls, World.Lends, hsource, hquiet.defs] using h.lends
      · simpa [hquiet.defs] using h.modules
      · simpa [hquiet.defs] using h.remembered
      · simpa [hquiet.defs] using h.located
  | @load id rest name module world hstack hasked hname hnone hload =>
      subst hname
      obtain ⟨-, -, -, hworld⟩ := Task.load_ok hsound.source hsound.held hload
      obtain ⟨hseparate, hapart⟩ := h.load hsound hasked hload
      rw [hworld]
      refine { hseparate with modules := fun other found hfound => ?_ }
      obtain ⟨-, rfl⟩ | hfound := Dictionary.of_get?_insert hfound
      · exact hapart
      · exact hseparate.modules other found hfound
  | enter =>
      refine { h with located := fun other found hmem => ?_ }
      rcases List.mem_cons.mp hmem with heq | hmem
      · cases heq
      · exact h.located other found hmem
  | @makeModule id rest name hstack =>
      have hmakes := Definitions.makeModule_makes now.defs { name }
      have hempty := Definitions.members_new_module name
      -- A new module refers to nothing, so nothing leads over through it.
      have hseparate : (now.withDefs (now.defs.makeModule { name }).2).Separate asked patch set :=
        h.withDefs hsound hmakes.grows (fun top _ => hmakes.apart hempty (by simp [Record.targets,
          ModuleDef.record, Shape.targets, Details.targets]))
          fun _ => Definitions.makeModule_home?_back h.itself
      have hmade : (now.defs.makeModule { name }).2.Apart set
          (.module ⟨now.defs.modules.next⟩) :=
        hmakes.apart_made hempty (h.not_mem_fresh hmakes.fresh) (by simp [Record.targets,
          ModuleDef.record, Shape.targets, Details.targets])
      refine { hseparate.locate hstack hmade with modules := fun other found hfound => ?_ }
      obtain ⟨-, rfl⟩ | hfound := Dictionary.of_get?_insert hfound
      · exact hmade
      · exact hseparate.modules other found hfound
  | create hstack hasked _ _ _ hparent hholder hkind hrenders hadds =>
      have hseparate := h.create hsound hasked hparent hholder hkind hrenders hadds
      have hmem := (hadds.mem_members hrenders.members).mpr
        (.inr ⟨rfl, rfl, rfl, hsound.has_answer hholder⟩)
      exact { hseparate.locate hstack ((hseparate.answer hholder).member hmem) with }
  | locate hstack hasked hpolicy hfound => exact h.locate hstack (h.found hfound)
  | confirm => exact { h with }
  | amend hstack hasked hwritable hstated hchanges =>
      refine h.withDefs hsound (hchanges.grows (fun _ => rfl) fun _ => rfl) ?_
        fun _ => hchanges.home?_back (fun _ => rfl) fun _ => rfl
      exact fun top _ => hchanges.apart (fun _ => rfl)
        fun record _ htargets => h.not_into_amend hasked hstated htargets
  | @remember declaration definition rest hstack =>
      refine { h with remembered := ?_, located := ?_ }
      · intro other found hfound
        obtain ⟨-, rfl⟩ | hfound := Dictionary.of_get?_insert hfound
        · exact h.located _ _ (by rw [hstack]; exact List.mem_cons_self)
        · exact h.remembered other found hfound
      · exact fun other found hmem =>
          h.located other found (by rw [hstack]; exact List.mem_cons_of_mem _ hmem)
  | abandon hfails hstack =>
      refine { h with located := fun other found hmem => ?_ }
      exact h.located other found (by rw [hstack]; exact List.mem_cons_of_mem _ hmem)
  | hide _ hasked hwritable hmemo hrecord howner hunused hnature hdetails hbody hmembers hadds =>
      exact { h.hide hsound hmemo hrecord howner hnature hdetails hbody hmembers hadds with }
  | graft hgrafts => simp [hmode] at hgrafts

theorem Run.separate (hrun : Run asked mode now next) (hmode : mode.grafts = false)
    (hsound : now.Sound) (h : now.Separate asked patch set) : next.Separate asked patch set :=
  hrun.keeps hsound (fun hstep hsound h => hstep.separate hmode hsound h) h

end Moment

end Graft
