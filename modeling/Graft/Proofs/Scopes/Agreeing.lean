import Graft.Proofs.Scopes.Counterparts
import Graft.Proofs.Session.Retracing

/-!
# What agrees when modules and types are resolved in another order

What modules and types are in the end is the same in whatever order they were resolved, with the
definitions renamed that were made (`Moment.twin`). What was there before has been changed in the same
way (`Concluded.record_old`), and what is new was made in the same scope, for what is said there with
the same types filled in (`Concluded.record_made`).
-/

namespace Graft

/-- What a definition is from the moment it is made, with the scopes renamed that it names. -/
def Nature.retarget (twin : Definition → Definition) (nature : Nature) : Nature :=
  { nature with
    owner := nature.owner.map (DefId.retyped twin)
    module := nature.module.map (DefId.remoduled twin) }

/-- The details of a definition with the types renamed that a base type, interfaces and constraints
refer to. -/
def Details.retarget (twin : Definition → Definition) (details : Details) : Details :=
  { details with
    base := details.base.map (TypeRef.relink (.retarget twin))
    interfaces := details.interfaces.map (TypeRef.relink (.retarget twin))
    generics := details.generics.map (GenericParam.relink (.retarget twin)) }

theorem Details.base_targets {details : Details} {type : TypeRef} (h : details.base = some type) :
    type.targets ⊆ details.targets :=
  fun _ hmem => by simp [targets, h, hmem]

theorem Details.param_targets {details : Details} {param : GenericParam}
    (h : param ∈ details.generics) : param.targets ⊆ details.targets := fun _ hmem => by
  simp only [targets, List.mem_append, List.mem_flatMap]
  exact .inl (.inl (.inr ⟨param, h, hmem⟩))

theorem Details.interface_targets {details : Details} {type : TypeRef}
    (h : type ∈ details.interfaces) : type.targets ⊆ details.targets := fun _ hmem => by
  simp only [targets, List.mem_append, List.mem_flatMap]
  exact .inl (.inl (.inl (.inr ⟨type, h, hmem⟩)))

/-- A renaming that leaves the types alone that details refer to leaves the details alone. -/
theorem Details.retarget_self {twin : Definition → Definition} {details : Details}
    (hkept : ∀ id, .definition (.type id) ∈ details.targets → id.retyped twin = id) :
    details.retarget twin = details := by
  have hbase : details.base.map (TypeRef.relink (.retarget twin)) = details.base :=
    (Option.map_congr fun type hmem => TypeRef.relink_retarget_self fun id hid =>
      hkept id (base_targets hmem hid)).trans Option.map_id'
  have hinterfaces :
      details.interfaces.map (TypeRef.relink (.retarget twin)) = details.interfaces :=
    (List.map_congr_left fun type hmem => TypeRef.relink_retarget_self fun id hid =>
      hkept id (interface_targets hmem hid)).trans (List.map_id _)
  have hgenerics :
      details.generics.map (GenericParam.relink (.retarget twin)) = details.generics :=
    (List.map_congr_left fun param hmem => GenericParam.relink_retarget_self fun id hid =>
      hkept id (param_targets hmem hid)).trans (List.map_id _)
  rw [retarget, hbase, hinterfaces, hgenerics]

namespace Moment

variable {world : World} {source : SourceId} {names : List String} {asked : Declaration → Prop}
  {now left right : Moment} {declaration parent : Declaration}
  {definition holder found found' : Definition} {before : Details}

section Underway

variable (hscoping : world.Scoping source names asked)
  (hleft : left.Underway world source names asked) (hright : right.Underway world source names asked)

include hscoping hleft hright

section Filled

variable {targets : List Target} (hasked : asked declaration)
  (hstated : targets ⊆ (world.decls.statement declaration).targets)
  (hsettled : left.answer.SettlesAll targets) (hsettled' : right.answer.SettlesAll targets)

include hsettled hsettled'

/-- What is known at both moments of a type that is referred to is the same up to `twin`. -/
theorem Underway.retyped_answers {id : DeclId .type} (hmem : .declaration (.type id) ∈ targets) :
    ∃ found, left.answer (.type id) = some (.type found) ∧
      right.answer (.type id) = some (.type (found.retyped (left.twin right))) := by
  obtain ⟨found, hanswer, hkind⟩ := hsettled _ hmem
  obtain ⟨found', hanswer', hkind'⟩ := hsettled' _ hmem
  cases found <;> cases hkind
  cases found' <;> cases hkind'
  rename_i type type'
  refine ⟨type, hanswer, hanswer'.trans ?_⟩
  rw [(hleft.parallel hscoping hright).retyped_of_answers hanswer hanswer']

include hasked hstated

omit hsettled hsettled' in
/-- What a declaration refers to is its own twin. -/
theorem Underway.retyped_stated {id : DefId .type} (hmem : .definition (.type id) ∈ targets) :
    id.retyped (left.twin right) = id := by
  refine (hleft.parallel hscoping hright).retyped_of_issued ?_
  refine hscoping.opened.known declaration hasked id ?_
  rw [hscoping.steady.opened_decls]
  exact hstated hmem

omit hleft hright in
/-- Once what a declaration refers to is filled in, it refers to nothing that has no twin. -/
theorem Underway.shared_fill {id : DefId .type}
    (hmem : .definition (.type id) ∈ targets.flatMap (Relink.fill left.answer).image) :
    Shared (world.opened source names) left right (.type id) := by
  obtain ⟨target, htarget, hmem⟩ := List.mem_flatMap.mp hmem
  obtain rfl | ⟨other, found, rfl, hanswer, heq⟩ := mem_image_fill (hsettled target htarget) hmem
  · refine .inl (hscoping.opened.known declaration hasked id ?_)
    rw [hscoping.steady.opened_decls]
    exact hstated htarget
  · cases heq
    obtain ⟨found', hanswer', -⟩ := hsettled' _ htarget
    exact .inr ⟨other, found', hanswer, hanswer'⟩

end Filled

/-- A type that declarations refer to is filled in up to `twin`. -/
theorem Underway.fill_type {type : TypeRef} (hasked : asked declaration)
    (hstated : type.targets ⊆ (world.decls.statement declaration).targets)
    (hsettled : left.answer.SettlesAll type.targets)
    (hsettled' : right.answer.SettlesAll type.targets) :
    type.relink right.fill = (type.relink left.fill).relink (.retarget (left.twin right)) :=
  TypeRef.relinks.fill_retarget type.targets_ofType
    (fun _ => hleft.retyped_answers hscoping hright hsettled hsettled')
    fun _ => hleft.retyped_stated hscoping hright hasked hstated

/-- References to types that have twins agree as their twins do. -/
theorem Underway.agrees_retarget {existing declared : TypeRef}
    (hexisting : ∀ id, .definition (.type id) ∈ existing.targets →
      Shared (world.opened source names) left right (.type id))
    (hdeclared : ∀ id, .definition (.type id) ∈ declared.targets →
      Shared (world.opened source names) left right (.type id)) :
    TypeRef.agrees right.world.typeNames (existing.relink (.retarget (left.twin right)))
        (declared.relink (.retarget (left.twin right))) =
      TypeRef.agrees left.world.typeNames existing declared := by
  have hdecls : right.world.decls = left.world.decls :=
    (hright.decls hscoping).trans (hleft.decls hscoping).symm
  refine TypeRef.same_retarget (fun id hmem => ?_) (fun id hmem => ?_) ?_ rfl
  · exact hleft.name_twin hscoping hright (hexisting id hmem)
  · exact hleft.name_twin hscoping hright (hdeclared id hmem)
  · simp only [World.typeNames, hdecls]

section Stated

variable {id : DeclId .type} (hasked : asked (.type id))
  (hsettled : left.answer.SettlesAll (world.decls.statement (.type id)).targets)
  (hsettled' : right.answer.SettlesAll (world.decls.statement (.type id)).targets)

include hasked hsettled hsettled'

/-- A type that a declaration states is filled in up to `twin`. -/
theorem Underway.fill_stated {type : TypeRef}
    (hstated : type.targets ⊆ (world.decls.statement (.type id)).targets) :
    type.relink right.fill = (type.relink left.fill).relink (.retarget (left.twin right)) :=
  hleft.fill_type hscoping hright hasked hstated (fun _ hmem => hsettled _ (hstated hmem))
    fun _ hmem => hsettled' _ (hstated hmem)

/-- A generic parameter that a declaration states is filled in up to `twin`. -/
theorem Underway.fill_param {param : GenericParam}
    (hstated : param.targets ⊆ (world.decls.statement (.type id)).targets) :
    param.relink right.fill = (param.relink left.fill).relink (.retarget (left.twin right)) :=
  GenericParam.fill_retarget
    (fun _ => hleft.retyped_answers hscoping hright (fun _ hmem => hsettled _ (hstated hmem))
      fun _ hmem => hsettled' _ (hstated hmem))
    fun _ => hleft.retyped_stated hscoping hright hasked hstated

variable (hbefore : ∀ id, .definition (.type id) ∈ before.targets →
  (world.opened source names).world.defs.Issued (.type id))

include hbefore

/-- The interfaces that are not there yet are the same at both moments up to `twin`. -/
theorem Underway.interfaces_twin :
    appendNew (TypeRef.agrees right.world.typeNames) before.interfaces
        ((world.decls.statement (.type id)).interfaces.map (TypeRef.relink right.fill)) =
      (appendNew (TypeRef.agrees left.world.typeNames) before.interfaces
        ((world.decls.statement (.type id)).interfaces.map (TypeRef.relink left.fill))).map
          (TypeRef.relink (.retarget (left.twin right))) := by
  have hthere {existing : TypeRef} (hmem : existing ∈ before.interfaces) (id : DefId .type)
      (hid : .definition (.type id) ∈ existing.targets) :
      (world.opened source names).world.defs.Issued (.type id) :=
    hbefore id (Details.interface_targets hmem hid)
  have hself : before.interfaces.map (TypeRef.relink (.retarget (left.twin right))) =
      before.interfaces := by
    refine (List.map_congr_left fun existing hmem => ?_).trans (List.map_id _)
    exact TypeRef.relink_retarget_self fun id hid =>
      (hleft.parallel hscoping hright).retyped_of_issued (hthere hmem id hid)
  have hfilled : (world.decls.statement (.type id)).interfaces.map (TypeRef.relink right.fill) =
      ((world.decls.statement (.type id)).interfaces.map (TypeRef.relink left.fill)).map
        (TypeRef.relink (.retarget (left.twin right))) := by
    rw [List.map_map]
    exact List.map_congr_left fun declared hmem => hleft.fill_stated hscoping hright hasked hsettled
      hsettled' (Statement.interface_targets hmem)
  have hshared {ref : TypeRef} (hmem : ref ∈
      (world.decls.statement (.type id)).interfaces.map (TypeRef.relink left.fill))
      (id : DefId .type) (hid : .definition (.type id) ∈ ref.targets) :
      Shared (world.opened source names) left right (.type id) := by
    obtain ⟨declared, hdeclared, rfl⟩ := List.mem_map.mp hmem
    rw [TypeRef.targets_relink] at hid
    have hstated := Statement.interface_targets hdeclared
    exact Underway.shared_fill hscoping hasked hstated (fun _ htarget => hsettled _ (hstated htarget))
      (fun _ htarget => hsettled' _ (hstated htarget)) hid
  rw [hfilled]
  conv_lhs => rw [← hself]
  refine appendNew_map fun existing hmem declared hmem' => ?_
  refine hleft.agrees_retarget hscoping hright (fun id hid => ?_) (hshared hmem')
  obtain hmem | hmem := List.mem_append.mp hmem
  · exact .inl (hthere hmem id hid)
  · exact hshared hmem id hid

/-- What a type states is put in at both moments up to `twin`. -/
theorem Underway.furnished_twin (made nested : Bool) :
    right.furnished id made nested before =
      (left.furnished id made nested before).retarget (left.twin right) := by
  have hself : before.retarget (left.twin right) = before :=
    Details.retarget_self fun id hmem =>
      (hleft.parallel hscoping hright).retyped_of_issued (hbefore id hmem)
  have hinterfaces := hleft.interfaces_twin hscoping hright hasked hsettled hsettled' hbefore
  simp only [furnished, Details.retarget, hright.decls hscoping, hleft.decls hscoping,
    Details.mk.injEq, true_and, and_true]
  refine ⟨?_, hinterfaces, ?_⟩
  · cases made with
    | false => exact (congrArg Details.base hself).symm
    | true =>
        simp only [if_true, Option.map_map]
        exact Option.map_congr fun declared hdeclared => hleft.fill_stated hscoping hright hasked
          hsettled hsettled' (Statement.base_targets hdeclared)
  · cases made with
    | false => exact (congrArg Details.generics hself).symm
    | true =>
        simp only [if_true]
        cases hdeclared : (world.decls.statement (.type id)).generics with
        | none => rfl
        | some declared =>
            simp only [Option.getD_some, List.map_map]
            exact List.map_congr_left fun param hmem => hleft.fill_param hscoping hright hasked
              hsettled hsettled' (Statement.param_targets hdeclared hmem)

end Stated

end Underway

/-! ## Scopes -/

/-- The module of a type that was made is the one around it. -/
theorem Furnished.moduleOf?_made {start : SessionState} {id : DeclId .type} {type : DefId .type}
    (h : now.Furnished start) (hsound : now.Sound) (hmade : (.type id, .type type) ∈ now.made) :
    ∃ parent holder record, now.decls.parent? (.type id) = some parent ∧
      now.answer parent = some holder ∧ now.defs.record? (.type type) = some record ∧
      record.nature = now.typeNature id holder record.nature.token ∧
      now.defs.moduleOf? type = now.moduleIn holder := by
  obtain ⟨record, hrecord, -, parent, holder, hparent, hholder, hnature⟩ := h.made _ _ hmade
  refine ⟨parent, holder, record, hparent, hholder, hrecord, hnature, ?_⟩
  have hmodule : record.nature.module = now.moduleIn holder := congrArg Nature.module hnature
  rw [Definitions.moduleOf?_eq, hrecord, Option.bind_some, hmodule]
  cases hmodule : now.moduleIn holder with
  | none => rfl
  | some module =>
      rw [Option.filter_some, if_pos (has_moduleIn (hsound.has_answer hholder) hmodule)]

section Scopes

variable (hscoping : world.Scoping source names asked)
  (hleft : left.Underway world source names asked) (hright : right.Underway world source names asked)
  (hfurnished : left.Furnished (world.opened source names))
  (hfurnished' : right.Furnished (world.opened source names))

include hscoping hleft hright

/-- What a definition that was there before is from the moment it was made is the same at both. -/
theorem Underway.nature_old (hold : (world.opened source names).Old definition)
    {record record' : Record} (hrecord : left.defs.record? definition = some record)
    (hrecord' : right.defs.record? definition = some record') :
    record'.nature = record.nature ∧ record.nature.retarget (left.twin right) = record.nature := by
  have hparallel := hleft.parallel hscoping hright
  obtain ⟨before, hbefore⟩ := Definitions.has_iff.mp hold
  have hnature := hleft.orderly.grows.nature_eq hbefore hrecord
  have hnature' := hright.orderly.grows.nature_eq hbefore hrecord'
  obtain ⟨-, howner, hmodule⟩ := hscoping.anchored definition before hbefore
  refine ⟨hnature'.trans hnature.symm, ?_⟩
  have hself : before.nature.owner.map (DefId.retyped (left.twin right)) = before.nature.owner :=
    Option.map_congr (fun owner hmem => hparallel.retyped_of_issued (howner owner hmem)) |>.trans
      Option.map_id'
  have hself' : before.nature.module.map (DefId.remoduled (left.twin right)) = before.nature.module :=
    Option.map_congr (fun module hmem => hparallel.remoduled_of_issued (hmodule module hmem)) |>.trans
      Option.map_id'
  rw [hnature, Nature.retarget, hself, hself']

/-- The module of a type that was there before is the same at both moments. -/
theorem Underway.moduleOf_old {type : DefId .type}
    (hold : (world.opened source names).Old (.type type)) :
    right.defs.moduleOf? type =
      (left.defs.moduleOf? type).map (DefId.remoduled (left.twin right)) := by
  have hparallel := hleft.parallel hscoping hright
  obtain ⟨before, hbefore⟩ := Definitions.has_iff.mp hold
  have hsame {now : Moment} (h : now.Underway world source names asked) :
      now.defs.moduleOf? type = (world.opened source names).world.defs.moduleOf? type := by
    obtain ⟨record, hrecord, hnature, -⟩ := h.orderly.grows.kept _ _ hbefore
    rw [Definitions.moduleOf?_eq, Definitions.moduleOf?_eq, hrecord, hbefore, Option.bind_some,
      Option.bind_some, hnature]
    cases hmodule : before.nature.module with
    | none => rfl
    | some module =>
        have hissued := (hscoping.anchored _ _ hbefore).2.2 module hmodule
        have hhas : now.defs.has (.module module) =
            (world.opened source names).world.defs.has (.module module) :=
          Bool.eq_iff_iff.mpr ⟨h.orderly.grows.has_of_issued hissued, h.orderly.grows.has⟩
        simp only [Option.filter_some, hhas]
  rw [hsame hright, hsame hleft]
  refine (Option.map_congr fun module hmem => ?_).trans Option.map_id' |>.symm
  exact hparallel.remoduled_of_issued (Definitions.issued_of_has (Option.filter_eq_some_iff.mp hmem).2)

/-- What is made inside a module or a type is made in the same module at both moments up to `twin`, if
that is so for the type. -/
theorem Underway.moduleIn_twin (hparent : left.answer parent = some holder)
    (hparent' : right.answer parent = some found)
    (howner : ∀ outer owner owner', holder = .type owner →
      left.answer (.type outer) = some (.type owner) →
      right.answer (.type outer) = some (.type owner') →
      right.defs.moduleOf? owner' =
        (left.defs.moduleOf? owner).map (DefId.remoduled (left.twin right))) :
    right.moduleIn found = (left.moduleIn holder).map (DefId.remoduled (left.twin right)) := by
  have hkind := hleft.orderly.sound.kinds _ _ hparent
  have hkind' := hright.orderly.sound.kinds _ _ hparent'
  cases parent with
  | module =>
      cases holder <;> cases hkind
      cases found <;> cases hkind'
      rw [moduleIn, moduleIn, Option.map_some,
        (hleft.parallel hscoping hright).remoduled_of_answers hparent hparent']
  | type =>
      cases holder <;> cases hkind
      cases found <;> cases hkind'
      exact howner _ _ _ rfl hparent hparent'
  | field | method | property | event =>
      have hscope := hscoping.scopes _ (hleft.orderly.asked _ _ hparent)
      cases hscope

include hfurnished hfurnished'

/-- The module of a type is the same at both moments up to `twin`, if that is so for the type around
it. -/
theorem Underway.moduleOf_of_owner {id : DeclId .type} {type type' : DefId .type}
    (hanswer : left.answer (.type id) = some (.type type))
    (hanswer' : right.answer (.type id) = some (.type type'))
    (howner : ∀ outer owner owner', left.defs.outer? type = some owner →
      left.answer (.type outer) = some (.type owner) →
      right.answer (.type outer) = some (.type owner') →
      right.defs.moduleOf? owner' =
        (left.defs.moduleOf? owner).map (DefId.remoduled (left.twin right))) :
    right.defs.moduleOf? type' =
      (left.defs.moduleOf? type).map (DefId.remoduled (left.twin right)) := by
  have hparallel := hleft.parallel hscoping hright
  have hdecls : right.decls = left.decls := (hright.decls hscoping).trans (hleft.decls hscoping).symm
  obtain hold | hmade := hleft.old_or_made hscoping hanswer
  · cases hleft.eq_of_old hscoping hright hanswer hanswer' hold
    exact hleft.moduleOf_old hscoping hright hold
  · have hmade' := hleft.made_of_made hscoping hright hmade hanswer'
    obtain ⟨parent, holder, record, hparent, hholder, hrecord, hnature, hmodule⟩ :=
      hfurnished.moduleOf?_made hleft.orderly.sound hmade
    obtain ⟨_, holder', -, hparent', hholder', -, -, hmodule'⟩ :=
      hfurnished'.moduleOf?_made hright.orderly.sound hmade'
    rw [hdecls] at hparent'
    cases hparent.symm.trans hparent'
    rw [hmodule, hmodule']
    refine hleft.moduleIn_twin hscoping hright hholder hholder' fun outer owner owner' heq => ?_
    subst heq
    cases hleft.orderly.placed _ _ hanswer with
    | member hparent' hholder' hmem =>
        cases hparent.symm.trans hparent'
        cases hholder.symm.trans hholder'
        exact howner outer owner owner' (hleft.orderly.wellFormed.outer?_eq_some hmem)

/-- The module of a type is the same at both moments up to `twin`: by induction on how deep the type
is nested. -/
theorem Underway.moduleOf_twin {id : DeclId .type} {type type' : DefId .type}
    (hanswer : left.answer (.type id) = some (.type type))
    (hanswer' : right.answer (.type id) = some (.type type')) :
    right.defs.moduleOf? type' =
      (left.defs.moduleOf? type).map (DefId.remoduled (left.twin right)) := by
  obtain ⟨depth, -, hnests⟩ :=
    hleft.orderly.wellFormed.nested type (hleft.orderly.sound.has_answer hanswer)
  induction hnests generalizing id type' with
  | top houter =>
      refine hleft.moduleOf_of_owner hscoping hright hfurnished hfurnished' hanswer hanswer' ?_
      intro outer owner owner' howner
      simp [houter] at howner
  | inside houter _ ih =>
      refine hleft.moduleOf_of_owner hscoping hright hfurnished hfurnished' hanswer hanswer' ?_
      intro outer owner owner' howner
      cases houter.symm.trans howner
      exact ih

omit hfurnished hfurnished' in
/-- What is made inside a module or a type is made inside the same type at both moments up to `twin`.
-/
theorem Underway.ownerIn_twin (hparent : left.answer parent = some holder)
    (hparent' : right.answer parent = some found) :
    ownerIn found = (ownerIn holder).map (DefId.retyped (left.twin right)) := by
  have hkind := hleft.orderly.sound.kinds _ _ hparent
  have hkind' := hright.orderly.sound.kinds _ _ hparent'
  cases parent with
  | module =>
      cases holder <;> cases hkind
      cases found <;> cases hkind'
      rfl
  | type =>
      cases holder <;> cases hkind
      cases found <;> cases hkind'
      rw [ownerIn, ownerIn, Option.map_some,
        (hleft.parallel hscoping hright).retyped_of_answers hparent hparent']
  | field | method | property | event =>
      have hscope := hscoping.scopes _ (hleft.orderly.asked _ _ hparent)
      cases hscope

/-- What is made for a declaration is the same at both moments up to `twin`, but for its token. -/
theorem Underway.nature_made (hmade : (declaration, definition) ∈ left.made)
    (hmade' : (declaration, found) ∈ right.made) {record record' : Record}
    (hrecord : left.defs.record? definition = some record)
    (hrecord' : right.defs.record? found = some record') :
    record'.nature =
      { record.nature.retarget (left.twin right) with token := record'.nature.token } := by
  have hdecls : right.decls = left.decls := (hright.decls hscoping).trans (hleft.decls hscoping).symm
  obtain ⟨_, hother, -, hprovides⟩ := hfurnished.made _ _ hmade
  obtain ⟨_, hother', -, hprovides'⟩ := hfurnished'.made _ _ hmade'
  cases hrecord.symm.trans hother
  cases hrecord'.symm.trans hother'
  cases declaration with
  | module id =>
      rw [hprovides'.1, hprovides.1, hdecls]
      rfl
  | type id =>
      obtain ⟨parent, holder, hparent, hholder, hnature⟩ := hprovides
      obtain ⟨_, holder', hparent', hholder', hnature'⟩ := hprovides'
      rw [hdecls] at hparent'
      cases hparent.symm.trans hparent'
      rw [hnature', hnature, typeNature, typeNature, Nature.retarget, hdecls,
        hleft.ownerIn_twin hscoping hright hholder hholder',
        hleft.moduleIn_twin hscoping hright hholder hholder' fun _ _ _ _ =>
          hleft.moduleOf_twin hscoping hright hfurnished hfurnished']
  | field | method | property | event => exact hprovides.elim

end Scopes

/-! ## Everything has been resolved -/

/-- Whether all modules and types that may be asked for have been resolved. -/
structure Concluded (world : World) (source : SourceId) (names : List String)
    (asked : Declaration → Prop) (done : Moment) : Prop where
  underway : done.Underway world source names asked
  furnished : done.Furnished (world.opened source names)
  accomplished : Accomplished asked (world.opened source names).world done

section Concluded

variable {done : Moment} (hscoping : world.Scoping source names asked)

theorem Concluded.exists_answer (h : Concluded world source names asked done)
    (hasked : asked declaration) : ∃ definition, done.answer declaration = some definition := by
  obtain ⟨definition, hknown⟩ := h.accomplished.settled.remembered declaration hasked
  exact ⟨definition, answer_of_remembered hknown⟩

include hscoping

/-- All that a declaration refers to is known, and so are the owners of its generic variables. -/
theorem Concluded.covers (h : Concluded world source names asked done) (hasked : asked declaration) :
    done.Covers (world.decls.statement declaration).targets
      (world.decls.statement declaration).slots := by
  have hdecls : done.decls = world.decls := h.underway.decls hscoping
  obtain ⟨definition, hanswer⟩ := h.exists_answer hasked
  rw [← hdecls]
  refine ⟨fun target hmem => ?_, fun slot hmem => ?_⟩
  · obtain ⟨detail, hdetail, htarget⟩ := Declarations.exists_detail_target hmem
    exact (h.accomplished.confirms hanswer hdetail).covers.settled target htarget
  · obtain ⟨detail, hdetail, hslot⟩ := Declarations.exists_detail_slot hmem
    exact (h.accomplished.confirms hanswer hdetail).covers.owned slot hslot

/-- What a type found, or what is made for it, refers to nothing that was not there before. -/
theorem World.Scoping.issued_original {id : DefId .type}
    (hmem : .definition (.type id) ∈
      ((world.opened source names).original declaration definition).targets) :
    (world.opened source names).world.defs.Issued (.type id) := by
  unfold SessionState.original at hmem
  split at hmem
  · exact (hscoping.anchored _ _ ‹_›).1 _ hmem
  · simp [Details.targets] at hmem

omit hscoping in
/-- The details of what a type stands for in the end. -/
theorem Concluded.details_eq (h : Concluded world source names asked done) {id : DeclId .type}
    {type : DefId .type} (hanswer : done.answer (.type id) = some (.type type)) {made : Bool}
    (hmade : (.type id, .type type) ∈ done.made ↔ made = true) {record : Record}
    (hrecord : done.defs.record? (.type type) = some record) :
    record.details = done.furnished id made record.nature.owner.isSome
      ((world.opened source names).original (.type id) (.type type)) := by
  obtain ⟨_, hother, hfurnishes⟩ := h.furnished.types id type hanswer
  cases hrecord.symm.trans hother
  refine hfurnishes.complete hrecord hmade (fun htrue => ?_) fun detail hdetail =>
    (h.accomplished.confirms hanswer hdetail).holds
  have hnone : (world.opened source names).world.defs.record? (.type type) = none := by
    refine Option.eq_none_iff_forall_ne_some.mpr fun before hbefore => ?_
    exact h.underway.new (hmade.mpr htrue) (Definitions.issued_of_record hbefore)
  rw [SessionState.original, hnone]
  exact ⟨rfl, rfl⟩

variable (hleft : Concluded world source names asked left)
  (hright : Concluded world source names asked right)

include hleft hright

/-- What a type stands for has the same details on both sides. -/
theorem Concluded.details_twin {id : DeclId .type} {type type' : DefId .type}
    (hanswer : left.answer (.type id) = some (.type type))
    (hanswer' : right.answer (.type id) = some (.type type')) {record record' : Record}
    (hrecord : left.defs.record? (.type type) = some record)
    (hrecord' : right.defs.record? (.type type') = some record') :
    record'.details = record.details.retarget (left.twin right) := by
  have hasked := hleft.underway.orderly.asked _ _ hanswer
  obtain ⟨made, hmade, hmade', hnested, hsame⟩ : ∃ made : Bool,
      ((.type id, .type type) ∈ left.made ↔ made = true) ∧
      ((.type id, .type type') ∈ right.made ↔ made = true) ∧
      record'.nature.owner.isSome = record.nature.owner.isSome ∧
      (world.opened source names).original (.type id) (.type type') =
        (world.opened source names).original (.type id) (.type type) := by
    obtain hold | hmade := hleft.underway.old_or_made hscoping hanswer
    · cases hleft.underway.eq_of_old hscoping hright.underway hanswer hanswer' hold
      refine ⟨false, ?_, ?_, ?_, rfl⟩
      · simpa using fun hmade => (hleft.underway.census.missing _ _ hmade).1 hold
      · simpa using fun hmade => (hright.underway.census.missing _ _ hmade).1 hold
      · rw [(hleft.underway.nature_old hscoping hright.underway hold hrecord hrecord').1]
    · have hmade' := hleft.underway.made_of_made hscoping hright.underway hmade hanswer'
      refine ⟨true, by simpa, by simpa, ?_, ?_⟩
      · rw [hleft.underway.nature_made hscoping hright.underway hleft.furnished hright.furnished hmade
          hmade' hrecord hrecord']
        simp [Nature.retarget]
      · have hnone {definition : Definition}
            (hnew : ¬ (world.opened source names).world.defs.Issued definition) :
            (world.opened source names).world.defs.record? definition = none :=
          Option.eq_none_iff_forall_ne_some.mpr fun _ hbefore =>
            hnew (Definitions.issued_of_record hbefore)
        rw [SessionState.original, SessionState.original, hnone (hleft.underway.new hmade),
          hnone (hright.underway.new hmade')]
  rw [hleft.details_eq hanswer hmade hrecord,
    hright.details_eq hanswer' hmade' hrecord', hnested, hsame]
  exact hleft.underway.furnished_twin hscoping hright.underway hasked
    (hleft.covers hscoping hasked).settled (hright.covers hscoping hasked).settled
    (fun _ => World.Scoping.issued_original hscoping) made _

/-- What was there before is changed in the same way on both sides. -/
theorem Concluded.record_old (hold : (world.opened source names).Old definition)
    {record record' : Record} (hrecord : left.defs.record? definition = some record)
    (hrecord' : right.defs.record? definition = some record') :
    record'.nature = record.nature ∧ record.nature.retarget (left.twin right) = record.nature ∧
      record'.details = record.details.retarget (left.twin right) ∧ record'.body = record.body := by
  obtain ⟨before, hbefore⟩ := Definitions.has_iff.mp hold
  obtain ⟨hnature, hself⟩ :=
    hleft.underway.nature_old hscoping hright.underway hold hrecord hrecord'
  refine ⟨hnature, hself, ?_, ?_⟩
  · by_cases hstands : ∃ id, left.answer (.type id) = some definition
    · obtain ⟨id, hanswer⟩ := hstands
      obtain ⟨found, hanswer'⟩ :=
        hright.exists_answer (hleft.underway.orderly.asked _ _ hanswer)
      cases hleft.underway.eq_of_old hscoping hright.underway hanswer hanswer' hold
      obtain ⟨type, rfl⟩ : ∃ type, definition = .type type := by
        have hkind := hleft.underway.orderly.sound.kinds _ _ hanswer
        cases definition <;> cases hkind
        exact ⟨_, rfl⟩
      exact hleft.details_twin hscoping hright hanswer hanswer' hrecord hrecord'
    · have hsame : record.details = before.details := by
        refine (hleft.furnished.touched definition before record hbefore hrecord).resolve_right ?_
        rintro ⟨id, hanswer, -⟩
        exact hstands ⟨id, hanswer⟩
      have hsame' : record'.details = before.details := by
        refine (hright.furnished.touched definition before record' hbefore hrecord').resolve_right ?_
        rintro ⟨id, hanswer', -⟩
        obtain ⟨found, hanswer⟩ :=
          hleft.exists_answer (hright.underway.orderly.asked _ _ hanswer')
        cases hright.underway.eq_of_old hscoping hleft.underway hanswer' hanswer hold
        exact hstands ⟨id, hanswer⟩
      rw [hsame', hsame, Details.retarget_self]
      exact fun id hmem => (hleft.underway.parallel hscoping hright.underway).retyped_of_issued
        ((hscoping.anchored definition before hbefore).1 _ hmem)
  · obtain ⟨_, hother, hbody⟩ := hleft.furnished.bodies _ _ hbefore
    obtain ⟨_, hother', hbody'⟩ := hright.furnished.bodies _ _ hbefore
    cases hrecord.symm.trans hother
    cases hrecord'.symm.trans hother'
    exact hbody'.trans hbody.symm

/-- What is made for a declaration is the same on both sides, but for its token. -/
theorem Concluded.record_made (hmade : (declaration, definition) ∈ left.made)
    (hmade' : (declaration, found) ∈ right.made) {record record' : Record}
    (hrecord : left.defs.record? definition = some record)
    (hrecord' : right.defs.record? found = some record') :
    record'.nature =
      { record.nature.retarget (left.twin right) with token := record'.nature.token } ∧
      record'.details = record.details.retarget (left.twin right) ∧ record'.body = record.body := by
  refine ⟨hleft.underway.nature_made hscoping hright.underway hleft.furnished hright.furnished hmade
    hmade' hrecord hrecord', ?_⟩
  obtain ⟨_, hother, hbare, hprovides⟩ := hleft.furnished.made _ _ hmade
  obtain ⟨_, hother', hbare', hprovides'⟩ := hright.furnished.made _ _ hmade'
  cases hrecord.symm.trans hother
  cases hrecord'.symm.trans hother'
  refine ⟨?_, hbare'.trans hbare.symm⟩
  have hanswer := hleft.underway.orderly.sound.made _ hmade
  have hanswer' := hright.underway.orderly.sound.made _ hmade'
  have hkind := hleft.underway.orderly.sound.kinds _ _ hanswer
  have hkind' := hright.underway.orderly.sound.kinds _ _ hanswer'
  cases declaration with
  | module =>
      rw [hprovides.2, hprovides'.2]
      rfl
  | type =>
      cases definition <;> cases hkind
      cases found <;> cases hkind'
      exact hleft.details_twin hscoping hright hanswer hanswer' hrecord hrecord'
  | field | method | property | event => exact hprovides.elim

end Concluded

end Moment

end Graft
