import Graft.Proofs.Members.Tending
import Graft.Proofs.Session.Twins

/-!
# Twins of members

Two moments at which members of the same rooted session have been resolved, in whatever order, are
parallel (`Resolving.parallel`), and what declarations say is filled in at both with the same
definitions up to `Moment.twin` (`amended_rename`).
-/

namespace Graft

/-- The details of a definition with methods renamed. -/
def Details.rename (twin : Definition → Definition) (details : Details) : Details :=
  { details with
    overrides := details.overrides.map (·.relink (.rename twin))
    accessors := details.accessors.map fun entry => (entry.1, entry.2.renamed twin) }

theorem Details.override_targets (details : Details) {override : Override}
    (hmem : override ∈ details.overrides) : override.targets ⊆ details.targets := fun _ htarget =>
  List.mem_append_left _ (List.mem_append_right _ (List.mem_flatMap.mpr ⟨_, hmem, htarget⟩))

theorem Details.accessor_target (details : Details) {entry : AccessorRole × DefId .method}
    (hmem : entry ∈ details.accessors) : .definition (.method entry.2) ∈ details.targets :=
  List.mem_append_right _ (List.mem_map.mpr ⟨entry, hmem, rfl⟩)

section Rename

variable {twin : Definition → Definition} {names : TypeNames}

theorem Override.relink_rename_self {override : Override}
    (hkept : ∀ id, .definition (.method id) ∈ override.targets → id.renamed twin = id) :
    override.relink (.rename twin) = override := by
  simp only [Override.targets, List.mem_append] at hkept
  rw [Override.relink, override.body.relink_rename_self fun id hmem => hkept id (.inl hmem),
    override.declaration.relink_rename_self fun id hmem => hkept id (.inr hmem)]

/-- A renaming that leaves the methods alone that details refer to leaves the details alone. -/
theorem Details.rename_self {details : Details}
    (hkept : ∀ id, .definition (.method id) ∈ details.targets → id.renamed twin = id) :
    details.rename twin = details := by
  have hoverrides : details.overrides.map (·.relink (.rename twin)) = details.overrides := by
    conv_rhs => rw [← List.map_id details.overrides]
    refine List.map_congr_left fun override hmem => ?_
    exact Override.relink_rename_self fun id hid => hkept id (details.override_targets hmem hid)
  have haccessors : details.accessors.map (fun entry => (entry.1, entry.2.renamed twin)) =
      details.accessors := by
    conv_rhs => rw [← List.map_id details.accessors]
    refine List.map_congr_left fun entry hmem => ?_
    rw [hkept entry.2 (details.accessor_target hmem), id]
  rw [rename, hoverrides, haccessors]

theorem Override.same_rename {left right : Override}
    (h : ∀ id id', .definition (.method id) ∈ left.targets →
      .definition (.method id') ∈ right.targets → id.renamed twin = id'.renamed twin → id = id') :
    Override.same names (left.relink (.rename twin)) (right.relink (.rename twin)) =
      Override.same names left right := by
  simp only [Override.targets, List.mem_append] at h
  rw [Override.same, Override.same]
  simp only [Override.relink]
  rw [MethodRef.same_rename fun id id' hmem hmem' => h id id' (.inl hmem) (.inl hmem'),
    MethodRef.same_rename fun id id' hmem hmem' => h id id' (.inr hmem) (.inr hmem')]

theorem Override.fill_rename {answers answers' : Answers} {override : Override}
    (htypes : ∀ id, answers' (.type id) = answers (.type id))
    (hmethods : ∀ id, .declaration (.method id) ∈ override.targets → ∃ found,
      answers (.method id) = some (.method found) ∧
      answers' (.method id) = some (.method (found.renamed twin)))
    (hkept : ∀ id, .definition (.method id) ∈ override.targets → id.renamed twin = id) :
    override.relink (.fill answers') = (override.relink (.fill answers)).relink (.rename twin) := by
  simp only [Override.targets, List.mem_append] at hmethods hkept
  simp only [Override.relink]
  rw [override.body.fill_rename htypes (fun id hmem => hmethods id (.inl hmem))
      fun id hmem => hkept id (.inl hmem),
    override.declaration.fill_rename htypes (fun id hmem => hmethods id (.inr hmem))
      fun id hmem => hkept id (.inr hmem)]

end Rename

namespace Moment

variable {state : SessionState} {asked : Declaration → Prop} {left right : Moment}
  {declaration : Declaration} {definition found found' : Definition}

section Methods

variable (h : Parallel state left right) (h' : Parallel state right left)

include h

theorem Parallel.twin_method {id : DefId .method} (hshared : Shared state left right (.method id)) :
    left.twin right (.method id) = .method (id.renamed (left.twin right)) := by
  have hkind := h.kind_twin hshared
  rw [DefId.renamed]
  cases htwin : left.twin right (.method id) with
  | method => rfl
  | module | type | field | property | event => simp [htwin, Definition.kind] at hkind

theorem Parallel.renamed_of_issued {id : DefId .method}
    (hissued : state.world.defs.Issued (.method id)) : id.renamed (left.twin right) = id := by
  have htwin := h.twin_method (.inl hissued)
  rw [h.twin_of_issued hissued] at htwin
  exact (Definition.method.inj htwin).symm

/-- A declared method stands at the other moment for what corresponds to it. -/
theorem Parallel.renamed_of_answers {id : DeclId .method} {method method' : DefId .method}
    (hanswer : left.answer (.method id) = some (.method method))
    (hanswer' : right.answer (.method id) = some (.method method')) :
    method' = method.renamed (left.twin right) := by
  have htwin := h.twin_method (.inr ⟨_, _, hanswer, hanswer'⟩)
  rw [h.twin_answer hanswer hanswer'] at htwin
  exact Definition.method.inj htwin

include h'

theorem Parallel.renamed_injective {id id' : DefId .method}
    (hshared : Shared state left right (.method id))
    (hshared' : Shared state left right (.method id'))
    (heq : id.renamed (left.twin right) = id'.renamed (left.twin right)) : id = id' := by
  refine Definition.method.inj (h.twin_injective h' hshared hshared' ?_)
  rw [h.twin_method hshared, h.twin_method hshared', heq]

end Methods

section Twin

variable (hrooted : state.Rooted asked) (hleft : Resolving state asked left)
  (hright : Resolving state asked right)

include hrooted hleft hright

/-- What does not have to be made for a member is the same at both moments. -/
theorem Resolving.parallel : Parallel state left right where
  soundLeft := hleft.sound
  soundRight := hright.sound
  growsLeft := hleft.grows
  growsRight := hright.grows
  new _ _ hmade := (hleft.supplied _ _ hmade).new
  single := hleft.single
  known declaration definition found hanswer hanswer' := by
    cases hmemo : state.session.resolved.get? declaration with
    | some known =>
        have hknown := answer_of_remembered (hleft.later.remembered _ _ hmemo)
        have hknown' := answer_of_remembered (hright.later.remembered _ _ hmemo)
        cases hknown.symm.trans hanswer
        cases hknown'.symm.trans hanswer'
        exact .inr ⟨rfl, Definitions.issued_of_has (hrooted.sound.remembered _ _ hmemo)⟩
    | none =>
        obtain ⟨hmade, -⟩ | ⟨hfinds, hhas⟩ := hleft.made_or_found hanswer hmemo
        · exact .inl hmade
        · obtain ⟨-, hmissing⟩ | ⟨hfinds', -⟩ := hright.made_or_found hanswer' hmemo
          · simp [hfinds] at hmissing
          · cases hfinds.symm.trans hfinds'
            exact .inr ⟨rfl, Definitions.issued_of_has hhas⟩

/-- What a member says of a method that is overridden is filled in up to `twin`. -/
theorem fill_override {override : Override} (hasked : asked declaration)
    (hmem : override ∈ (state.world.decls.statement declaration).overrides)
    (hsettled : left.answer.SettlesAll override.targets)
    (hsettled' : right.answer.SettlesAll override.targets) :
    override.relink right.fill = (override.relink left.fill).relink (.rename (left.twin right)) := by
  have hstated : override.targets ⊆ (state.world.decls.statement declaration).targets := by
    refine fun target htarget => List.mem_append_right _ (List.mem_flatMap.mpr ⟨_, hmem, htarget⟩)
  have hparallel := hleft.parallel hrooted hright
  refine Override.fill_rename (fun id => ?_) (fun id hid => ?_) fun id hid => ?_
  · rw [hleft.answer_type, hright.answer_type]
  · obtain ⟨found, hfound, hkind⟩ := hsettled _ hid
    obtain ⟨found', hfound', hkind'⟩ := hsettled' _ hid
    cases found <;> cases hkind
    cases found' <;> cases hkind'
    exact ⟨_, hfound, hparallel.renamed_of_answers hfound hfound' ▸ hfound'⟩
  · exact hparallel.renamed_of_issued (hrooted.issued declaration _ hasked (hstated hid))

omit hleft hright in
/-- Once what a member says of an override is filled in, it refers to nothing that has no twin. -/
theorem shared_fill {override : Override} {id : DefId .method} (hasked : asked declaration)
    (hmem : override ∈ (state.world.decls.statement declaration).overrides)
    (hsettled : left.answer.SettlesAll override.targets)
    (hsettled' : right.answer.SettlesAll override.targets)
    (hid : .definition (.method id) ∈ (override.relink left.fill).targets) :
    Shared state left right (.method id) := by
  rw [Override.targets_relink] at hid
  obtain ⟨target, htarget, hid⟩ := List.mem_flatMap.mp hid
  obtain rfl | ⟨other, found, rfl, hanswer, heq⟩ := mem_image_fill (hsettled target htarget) hid
  · refine .inl (hrooted.issued declaration (.definition (.method id)) hasked ?_)
    exact List.mem_append_right _ (List.mem_flatMap.mpr ⟨_, hmem, htarget⟩)
  · cases heq
    obtain ⟨found', hanswer', -⟩ := hsettled' _ htarget
    exact .inr ⟨other, found', hanswer, hanswer'⟩

/-- What a member says of an accessor is filled in up to `twin`. -/
theorem fill_accessor {entry : AccessorRole × DeclId .method} {method method' : DefId .method}
    (hanswer : left.answer (.method entry.2) = some (.method method))
    (hanswer' : right.answer (.method entry.2) = some (.method method')) :
    right.answer.accessor entry =
      ((left.answer.accessor entry).1, (left.answer.accessor entry).2.renamed (left.twin right)) := by
  obtain ⟨role, declared⟩ := entry
  rw [Answers.accessor_eq hanswer, Answers.accessor_eq hanswer',
    (hleft.parallel hrooted hright).renamed_of_answers hanswer hanswer']

/-- What a member states is put in at both moments up to `twin`. -/
theorem amended_rename {details : Details} (hasked : asked declaration)
    (hlinked : ∀ id, .definition (.method id) ∈ details.targets →
      state.world.defs.Issued (.method id))
    (hoverrides : ∀ override ∈ (state.world.decls.statement declaration).overrides,
      left.answer.SettlesAll override.targets ∧ right.answer.SettlesAll override.targets)
    (haccessors : ∀ entry ∈ (state.world.decls.statement declaration).accessors,
      ∃ method method', left.answer (.method entry.2) = some (.method method) ∧
        right.answer (.method entry.2) = some (.method method')) :
    right.amended declaration details =
      (left.amended declaration details).rename (left.twin right) := by
  have hparallel := hleft.parallel hrooted hright
  have hparallel' := hright.parallel hrooted hleft
  -- What was stated before refers only to methods that existed then, and those are their own twins.
  have hkept (id : DefId .method) (hmem : .definition (.method id) ∈ details.targets) :
      id.renamed (left.twin right) = id :=
    hparallel.renamed_of_issued (hlinked id hmem)
  have hself := Details.rename_self hkept
  have hbase : details.overrides.map (·.relink (.rename (left.twin right))) = details.overrides :=
    congrArg Details.overrides hself
  have hbase' : details.accessors.map (fun entry =>
      (entry.1, entry.2.renamed (left.twin right))) = details.accessors :=
    congrArg Details.accessors hself
  have hmore : (state.world.decls.statement declaration).overrides.map (·.relink right.fill) =
      ((state.world.decls.statement declaration).overrides.map (·.relink left.fill)).map
        (·.relink (.rename (left.twin right))) := by
    rw [List.map_map]
    refine List.map_congr_left fun override hmem => ?_
    obtain ⟨hsettled, hsettled'⟩ := hoverrides override hmem
    exact fill_override hrooted hleft hright hasked hmem hsettled hsettled'
  have hmore' : (state.world.decls.statement declaration).accessors.map right.answer.accessor =
      ((state.world.decls.statement declaration).accessors.map left.answer.accessor).map fun entry =>
        (entry.1, entry.2.renamed (left.twin right)) := by
    rw [List.map_map]
    refine List.map_congr_left fun entry hmem => ?_
    obtain ⟨method, method', hanswer, hanswer'⟩ := haccessors entry hmem
    exact fill_accessor hrooted hleft hright hanswer hanswer'
  have hshared (override : Override) (hmem : override ∈ details.overrides ++
      (state.world.decls.statement declaration).overrides.map (·.relink left.fill))
      (id : DefId .method) (hid : .definition (.method id) ∈ override.targets) :
      Shared state left right (.method id) := by
    obtain hmem | hmem := List.mem_append.mp hmem
    · exact .inl (hlinked id (details.override_targets hmem hid))
    · obtain ⟨declared, hdeclared, rfl⟩ := List.mem_map.mp hmem
      obtain ⟨hsettled, hsettled'⟩ := hoverrides declared hdeclared
      exact shared_fill hrooted hasked hdeclared hsettled hsettled' hid
  have hshared' (entry : AccessorRole × DefId .method) (hmem : entry ∈ details.accessors ++
      (state.world.decls.statement declaration).accessors.map left.answer.accessor) :
      Shared state left right (.method entry.2) := by
    obtain hmem | hmem := List.mem_append.mp hmem
    · exact .inl (hlinked entry.2 (details.accessor_target hmem))
    · obtain ⟨⟨role, declared⟩, hdeclared, rfl⟩ := List.mem_map.mp hmem
      obtain ⟨method, method', hanswer, hanswer'⟩ := haccessors _ hdeclared
      exact .inr ⟨_, _, Answers.accessor_eq hanswer ▸ hanswer, hanswer'⟩
  simp only [amended, Details.rename, hleft.decls, hright.decls, hleft.names, hright.names]
  rw [hmore, hmore']
  rw [Details.mk.injEq]
  refine ⟨rfl, rfl, rfl, rfl, ?_, ?_⟩
  · -- Renaming is injective on all that is compared here, so the same items count as missing.
    conv_lhs => rw [← hbase]
    refine appendNew_map fun override hmem override' hmem' => Override.same_rename ?_
    intro id id' hid hid' heq
    exact hparallel.renamed_injective hparallel' (hshared override hmem id hid)
      (hshared override' (List.mem_append_right _ hmem') id' hid') heq
  · conv_lhs => rw [← hbase']
    refine appendNew_map fun entry hmem entry' hmem' => ?_
    rw [Bool.eq_iff_iff, beq_iff_eq, beq_iff_eq, Prod.mk.injEq, Prod.ext_iff]
    refine and_congr_right fun _ => ⟨fun heq => ?_, congrArg _⟩
    exact hparallel.renamed_injective hparallel' (hshared' entry hmem)
      (hshared' entry' (List.mem_append_right _ hmem')) heq

end Twin

end Moment

end Graft
