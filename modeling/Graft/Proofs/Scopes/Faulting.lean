import Graft.Proofs.Scopes.Agreeing

/-!
# What can go wrong in another order

Where all modules and types could be resolved in one order, nothing is wrong with what they say. In
another order a resolution fails only if it runs in a circle (`Concluded.cyclic_of_fault`): what is
missing has to be made (`Underway.made_of_missing`), what is found was there before, and what was
there before agrees with its declaration as it did.
-/

namespace Graft.Moment

variable {world : World} {source : SourceId} {names : List String} {asked : Declaration → Prop}
  {done now : Moment} {declaration : Declaration} {definition found : Definition} {detail : Detail}

section Underway

variable (hscoping : world.Scoping source names asked)
  (hdone : done.Underway world source names asked) (h : now.Underway world source names asked)

include hscoping hdone h

/-- What was there before and is listed at one moment is so at the other one, in a scope that stands
for the same declaration. -/
theorem Underway.mem_members_old {parent : Declaration} {holder holder' : Definition}
    {kind : SymbolKind} (hmem : definition ∈ done.defs.members holder kind)
    (hold : (world.opened source names).Old definition) (hholder : done.answer parent = some holder)
    (hholder' : now.answer parent = some holder') : definition ∈ now.defs.members holder' kind := by
  have holdHolder := hdone.census.inside _ _ _ hmem hold
  cases hdone.eq_of_old hscoping h hholder hholder' holdHolder
  obtain ⟨front, rest, hsplit⟩ := List.append_of_mem hmem
  obtain ⟨rest, hlist⟩ := hdone.members_start hold hsplit
  exact h.orderly.grows.mem_members (hlist ▸ List.mem_append_right _ List.mem_cons_self)

/-- What is missing at one moment has been made at the other one. -/
theorem Underway.made_of_missing (hanswer : done.answer declaration = some definition)
    (hmissing : now.Missing declaration) : (declaration, definition) ∈ done.made := by
  have hasked := hdone.orderly.asked _ _ hanswer
  refine (hdone.old_or_made hscoping hanswer).resolve_left fun hold => ?_
  cases hmissing with
  | @module id name hname hnone other hload =>
      cases hdone.orderly.placed _ _ hanswer with
      | member hparent => cases hparent
      | module hmodule =>
          rw [hdone.decls hscoping] at hmodule
          rw [h.decls hscoping] at hname
          subst hname
          rw [h.load_eq hscoping hasked hnone] at hload
          have hnone := hscoping.steady.opens.unloaded _ (hscoping.mem_names hasked) _ _
            (Prod.ext hload rfl)
          obtain hsame | ⟨-, hnew⟩ := hdone.modules _ _ hmodule
          · simp [hnone] at hsame
          · exact hnew hold
  | member hparent hholder hnone =>
      have hparent' : done.decls.parent? declaration = some _ :=
        (hdone.decls hscoping).trans (h.decls hscoping).symm ▸ hparent
      have hscope := hscoping.scopes _ hasked
      cases hdone.orderly.placed _ _ hanswer with
      | module => cases hparent
      | member hparent'' hholder' hmem hmatches =>
          cases hparent'.symm.trans hparent''
          refine hnone _ (hdone.mem_members_old hscoping h hmem hold hholder' hholder) ?_
          refine (h.orderly.fits_iff_matches hscoping.opened hasked fun hmethod => ?_).mp ?_
          · simp [hmethod, SymbolKind.isScope] at hscope
          · exact (h.fits_iff hdone hold hscope).mpr
              (hdone.orderly.fits hscoping.opened hanswer hparent')

omit hdone in
/-- What is found was there before, if the declaration does not stand for anything yet. -/
theorem Underway.old_of_found (hasked : asked declaration) (hnone : now.answer declaration = none)
    (hfound : now.Found declaration definition) : (world.opened source names).Old definition := by
  have hprepared := hscoping.opened
  have horderly := h.orderly
  obtain hold | ⟨other, hmade⟩ | ⟨hidden, hmem, -⟩ :=
    h.census.new definition (horderly.sound.has_found hfound)
  · exact hold
  · exfalso
    have hother := horderly.sound.made _ hmade
    -- It was made for a declaration that is for the same thing.
    suffices heq : other = declaration by simp [← heq, hother] at hnone
    have hkind : other.kind = declaration.kind :=
      (horderly.sound.kinds _ _ hother).symm.trans hfound.kind
    cases hfound with
    | @module id found hmodule =>
        cases horderly.placed _ _ hother with
        | @module id' _ hmodule' =>
            have hname := horderly.modules _ _ hmodule
            rw [horderly.modules _ _ hmodule', horderly.decls] at hname
            exact hprepared.apart _ _ (horderly.asked _ _ hother) hasked ⟨rfl, rfl, hname, rfl, nofun⟩
        | member hparent =>
            cases other with
            | module => cases hparent
            | type | field | method | property | event => cases hkind
    | @member _ parent _ holder front rest hparent hholder _ hmembers hmatches =>
        cases horderly.placed _ _ hother with
        | module =>
            have hmodule := Declarations.kind_ne_module_of_parent? hparent
            exact absurd hkind.symm hmodule
        | member hparent' hholder' hmem hmatches' =>
            cases horderly.wellFormed.holder_eq hmem
              (hmembers ▸ List.mem_append_right front List.mem_cons_self)
            cases horderly.injective hprepared hholder hholder'
            exact horderly.eq_of_parent hprepared hkind hparent' hparent hmatches' hmatches
              (horderly.asked _ _ hother) hasked
  · simp [h.hidden] at hmem

/-- What was there before and is found at one moment stands for the declaration at the other one. -/
theorem Underway.not_made_of_found (hanswer : done.answer declaration = some definition)
    (hfound : now.Found declaration found) (hold : (world.opened source names).Old found) :
    (declaration, definition) ∉ done.made := by
  intro hmade
  have hasked := hdone.orderly.asked _ _ hanswer
  have hdecls : done.decls = now.decls := (hdone.decls hscoping).trans (h.decls hscoping).symm
  cases hfound with
  | @module id found hmodule =>
      have hopened := (h.modules _ _ hmodule).resolve_right fun hnew => hnew.2 hold
      cases hdone.orderly.placed _ _ hanswer with
      | member hparent => cases hparent
      | module hmodule' =>
          rw [hdecls] at hmodule'
          obtain hsame | ⟨hnone, -⟩ := hdone.modules _ _ hmodule'
          · cases hopened.symm.trans hsame
            exact (hdone.census.missing _ _ hmade).1 hold
          · simp [hopened] at hnone
  | @member _ parent _ holder front rest hparent hholder _ hmembers hmatches =>
      have hparent' : done.decls.parent? declaration = some parent := hdecls ▸ hparent
      have hscope := hscoping.scopes _ hasked
      obtain ⟨holder', hholder'⟩ := hdone.orderly.answer_parent hanswer hparent'
      have hmem := h.mem_members_old hscoping hdone
        (hmembers ▸ List.mem_append_right front List.mem_cons_self) hold hholder hholder'
      refine (hdone.census.missing _ _ hmade).2.2 parent holder' hparent' hholder' found hmem hold ?_
      refine (hdone.fits_iff h hold hscope).mpr ?_
      refine (h.orderly.fits_iff_matches hscoping.opened hasked fun hmethod => ?_).mpr hmatches
      simp [hmethod, SymbolKind.isScope] at hscope

/-- A reference that was there before agrees with what is filled in at one moment if it does so with
what is filled in at the other one. -/
theorem Underway.agrees_old {existing declared : TypeRef} (hasked : asked declaration)
    (hlinked : ∀ target ∈ existing.targets, target.IssuedIn (world.opened source names).world.defs)
    (hstated : declared.targets ⊆ (world.decls.statement declaration).targets)
    (hsettled : done.answer.SettlesAll declared.targets)
    (hsettled' : now.answer.SettlesAll declared.targets)
    (hsame : existing.same done.world.typeNames .declared (declared.relink done.fill) = true) :
    existing.same now.world.typeNames .declared (declared.relink now.fill) = true := by
  have hself : existing.relink (.retarget (done.twin now)) = existing :=
    TypeRef.relink_retarget_self fun id hid =>
      (hdone.parallel hscoping h).retyped_of_issued (hlinked _ hid)
  have hretarget : TypeRef.agrees now.world.typeNames (existing.relink (.retarget (done.twin now)))
        ((declared.relink done.fill).relink (.retarget (done.twin now))) =
      TypeRef.agrees done.world.typeNames existing (declared.relink done.fill) := by
    refine hdone.agrees_retarget hscoping h (fun id hid => .inl (hlinked _ hid)) fun id hid => ?_
    rw [TypeRef.targets_relink] at hid
    exact Underway.shared_fill hscoping hasked hstated hsettled hsettled' hid
  rw [hself, ← hdone.fill_type hscoping h hasked hstated hsettled hsettled'] at hretarget
  exact hretarget.trans hsame

omit hdone in
/-- A moment has not changed what a detail of a type is about that was there before, if it may not
change the type or the detail is never changed. -/
theorem Underway.survives_old (detail : Detail) {id : DeclId .type} {type : DefId .type}
    {before : Record} (hfurnished : now.Furnished (world.opened source names))
    (hanswer : now.answer (.type id) = some (.type type))
    (hbefore : (world.opened source names).world.defs.record? (.type type) = some before) :
    ∃ record, now.defs.record? (.type type) = some record ∧
      (¬ now.decls.Writable (.type id) ∨ detail.Fixed →
        detail.Survives record.details before.details ∧
          detail.Survives before.details record.details) := by
  obtain ⟨record, hrecord, hfurnishes⟩ := hfurnished.types id type hanswer
  refine ⟨record, hrecord, ?_⟩
  rintro (hlocked | hfixed)
  · have hsame : record.details = before.details := by
      refine (hfurnished.touched _ before record hbefore hrecord).resolve_right ?_
      rintro ⟨other, hother, hwritable⟩
      cases h.orderly.injective hscoping.opened hother hanswer
      exact hlocked hwritable
    rw [hsame]
    exact ⟨detail.survives_self _, detail.survives_self _⟩
  · have hnew : (.type id, .type type) ∉ now.made := fun hmade =>
      (h.census.missing _ _ hmade).1 (Definitions.has_iff.mpr ⟨before, hbefore⟩)
    rw [SessionState.original, hbefore] at hfurnishes
    have hbase := hfurnishes.base.resolve_right fun hmade => hnew hmade.1
    have hgenerics := hfurnishes.generics.resolve_right fun hmade => hnew hmade.1
    cases detail with
    | base => exact ⟨hbase.symm, hbase⟩
    | generics => exact ⟨congrArg List.length hgenerics.symm, congrArg List.length hgenerics⟩
    | signature | overload | result => exact ⟨trivial, trivial⟩
    | flags | interface | override | accessor => exact hfixed.elim

/-- What was there before agrees with its declaration on what has not been changed. -/
theorem Underway.holds_old {id : DeclId .type} (hasked : asked (.type id))
    (hdetail : detail ∈ world.decls.details (.type id)) {before record record' : Record}
    (hbefore : (world.opened source names).world.defs.record? definition = some before)
    (hrecord : done.defs.record? definition = some record)
    (hrecord' : now.defs.record? definition = some record')
    (hkept : detail.Survives record.details before.details)
    (hkept' : detail.Survives before.details record'.details)
    (hsettled : now.answer.SettlesAll ((world.decls.statement (.type id)).targetsOf detail))
    (hholds : done.Holds (.type id) definition detail) : now.Holds (.type id) definition detail := by
  have hdecls : done.decls = world.decls := hdone.decls hscoping
  have hdecls' : now.decls = world.decls := h.decls hscoping
  have hnature := hdone.orderly.grows.nature_eq hbefore hrecord
  have hnature' := h.orderly.grows.nature_eq hbefore hrecord'
  -- What an old definition refers to was there from the start, so both courses see it alike.
  have hlinked := (hscoping.anchored definition before hbefore).1
  obtain ⟨_, hother, hholds⟩ := hholds
  cases hrecord.symm.trans hother
  refine ⟨record', hrecord', ?_⟩
  dsimp only at hholds ⊢
  rw [hdecls] at hholds
  rw [hdecls']
  rw [Declarations.mem_details] at hdetail
  cases detail with
  | flags =>
      have hflags : record'.details.flags = record.details.flags := hkept'.trans hkept
      rw [hflags, hnature']
      rwa [hnature] at hholds
  | base =>
      intro declared hdeclared
      obtain ⟨hsettles, existing, hexisting, hsame⟩ := hholds declared hdeclared
      have hbase : before.details.base = some existing :=
        (show before.details.base = record.details.base from hkept).trans hexisting
      have hsettles' : now.answer.SettlesAll declared.targets := by
        simpa [Statement.targetsOf, hdeclared] using hsettled
      refine ⟨hsettles', existing, Eq.trans hkept' hbase, ?_⟩
      exact hdone.agrees_old hscoping h hasked
        (fun target hmem => hlinked _ (Details.base_targets hbase hmem))
        (Statement.base_targets hdeclared) hsettles hsettles' hsame
  | interface declared =>
      obtain ⟨hsettles, existing, hexisting, hsame⟩ := hholds
      have hmem := hkept hexisting
      refine ⟨hsettled, existing, hkept' hmem, ?_⟩
      exact hdone.agrees_old hscoping h hasked
        (fun target htarget => hlinked _ (Details.interface_targets hmem htarget))
        (Statement.interface_targets hdetail) hsettles hsettled hsame
  | generics =>
      intro declared hdeclared
      exact (hkept'.trans hkept).trans (hholds declared hdeclared)
  | override | accessor => cases hdetail
  | signature | overload | result => simp [Declaration.kind] at hdetail

end Underway

/-! ## Failing -/

section Waiting

variable {rest : InFlight} (h : now.Waiting world source asked)

include h

/-- As long as a session waits for its module nothing is found. -/
theorem Waiting.not_found : ¬ now.Found declaration definition := by
  rintro (hmodule | ⟨-, hholder⟩)
  · simp [h.modules] at hmodule
  · simp [h.answers] at hholder

theorem Waiting.not_located : now.stack ≠ (declaration, some definition) :: rest := fun hstack => by
  have hanswer := h.sound.answer_top hstack
  simp [h.answers] at hanswer

/-- Nothing is missing that the source has. -/
theorem Waiting.not_missing (hloads : ∀ {id}, asked (.module id) → ∃ module after,
      (Task.load now.session.source (now.decls.module id).name).on now.world = (.ok module, after))
    (hasked : asked declaration) : ¬ now.Missing declaration := by
  rintro (⟨hname, -, hload⟩ | ⟨-, hholder⟩)
  · subst hname
    obtain ⟨module, after, hok⟩ := hloads hasked
    simp [hok] at hload
  · simp [h.answers] at hholder

end Waiting

section Concluded

variable (hscoping : world.Scoping source names asked)
  (hdone : Concluded world source names asked done)

include hscoping hdone

omit hscoping in
/-- What is inside something is so in the end. -/
theorem Concluded.exists_parent (hasked : asked declaration) (hkind : declaration.kind ≠ .module) :
    ∃ parent, done.decls.parent? declaration = some parent := by
  obtain ⟨definition, hanswer⟩ := hdone.exists_answer hasked
  obtain ⟨parent, -, -, hparent, -⟩ := hdone.underway.orderly.liesIn hanswer hkind
  exact ⟨parent, hparent⟩

/-- Where everything could be resolved, a module that cannot be loaded is one that the source does not
have. -/
theorem Concluded.loads {id : DeclId .module} (hasked : asked (.module id)) {error : Error}
    (hload : ((Task.load source (world.decls.module id).name).on world).1 = .error error) :
    ∃ name, error = .moduleNotFound name := by
  obtain ⟨definition, hanswer⟩ := hdone.exists_answer hasked
  obtain hold | hmade := hdone.underway.old_or_made hscoping hanswer
  · cases hdone.underway.orderly.placed _ _ hanswer with
    | member hparent => cases hparent
    | module hmodule =>
        rw [hdone.underway.decls hscoping] at hmodule
        have hnone := hscoping.steady.opens.unloaded _ (hscoping.mem_names hasked) _ _
          (Prod.ext hload rfl)
        obtain hsame | ⟨-, hnew⟩ := hdone.underway.modules _ _ hmodule
        · simp [hnone] at hsame
        · exact absurd hold hnew
  · obtain ⟨other, hlacks⟩ := hdone.underway.lacking _ _ hmade
    rw [hload] at hlacks
    cases hlacks
    exact ⟨other, rfl⟩

variable (h : now.Underway world source names asked)
  (hfurnished : now.Furnished (world.opened source names))

include h hfurnished

/-- What may not be changed agrees with its declaration, and so does what is never changed. -/
theorem Concluded.holds (hanswer : now.answer declaration = some definition)
    (hdetail : detail ∈ world.decls.details declaration)
    (hkept : ¬ now.decls.Writable declaration ∨
      (declaration, definition) ∉ now.made ∧ detail.Fixed)
    (hsettled : now.answer.SettlesAll ((world.decls.statement declaration).targetsOf detail)) :
    now.Holds declaration definition detail := by
  have hasked := h.orderly.asked _ _ hanswer
  have hdecls : now.decls = world.decls := h.decls hscoping
  have hdecls' : done.decls = world.decls := hdone.underway.decls hscoping
  obtain ⟨id, rfl⟩ : ∃ id, declaration = .type id := by
    have hscope := hscoping.scopes _ hasked
    cases declaration with
    | type id => exact ⟨id, rfl⟩
    | module => cases hdetail
    | field | method | property | event => cases hscope
  obtain ⟨type, rfl⟩ : ∃ type, definition = .type type := by
    have hkind := h.orderly.sound.kinds _ _ hanswer
    cases definition <;> cases hkind
    exact ⟨_, rfl⟩
  have hold : (world.opened source names).Old (.type type) := by
    refine (h.old_or_made hscoping hanswer).resolve_right fun hmade => ?_
    obtain hlocked | ⟨hnew, -⟩ := hkept
    · exact hlocked (h.licensed _ hmade)
    · exact hnew hmade
  obtain ⟨found, hanswer'⟩ := hdone.exists_answer hasked
  cases h.eq_of_old hscoping hdone.underway hanswer hanswer' hold
  obtain ⟨before, hbefore⟩ := Definitions.has_iff.mp hold
  obtain ⟨record, hrecord, hunchanged⟩ :=
    hdone.underway.survives_old hscoping detail hdone.furnished hanswer' hbefore
  obtain ⟨record', hrecord', hunchanged'⟩ :=
    h.survives_old hscoping detail hfurnished hanswer hbefore
  rw [hdecls] at hkept hunchanged'
  rw [hdecls'] at hunchanged
  have hkept : ¬ world.decls.Writable (.type id) ∨ detail.Fixed := hkept.imp_right And.right
  exact hdone.underway.holds_old hscoping h hasked hdetail hbefore hrecord hrecord'
    (hunchanged hkept).1 (hunchanged' hkept).2 hsettled
    (hdone.accomplished.confirms hanswer' (hdecls' ▸ hdetail)).holds

omit h hfurnished in
/-- A resolution fails only if it runs in a circle. -/
theorem Concluded.cyclic_of_fault (h : now.Proceeding world source names asked) {error : Error}
    (hfault : now.Fault error) : ∃ symbol, error = .cyclic symbol := by
  -- Any other fault would contradict what the run that succeeded found out about the same
  -- declaration.
  have hworld := h.decls hscoping
  have hdecls : now.decls = done.decls := hworld.trans (hdone.underway.decls hscoping).symm
  have htop {top : Declaration} {found : Option Definition} {rest : InFlight}
      (hstack : now.stack = (top, found) :: rest) :
      asked top ∧ ∃ definition, done.answer top = some definition := by
    have hasked : asked top := h.pending (top, found) (hstack ▸ List.mem_cons_self)
    exact ⟨hasked, hdone.exists_answer hasked⟩
  cases hfault with
  | cyclic | exhausted => exact ⟨_, rfl⟩
  | unloadable hstack hnone hload herror =>
      obtain ⟨hasked, -⟩ := htop hstack
      obtain ⟨h, -⟩ | ⟨-, hloads⟩ := h
      swap
      · obtain ⟨module, after, hok⟩ := hloads _ hasked
        simp [hok] at hload
      rw [hworld] at hnone hload
      rw [h.load_eq hscoping hasked hnone] at hload
      obtain ⟨name, rfl⟩ := hdone.loads hscoping hasked hload
      exact absurd rfl (herror name)
  | detached hstack hkind hparent =>
      obtain ⟨parent, hparent'⟩ := hdone.exists_parent (htop hstack).1 hkind
      rw [hdecls, hparent'] at hparent
      cases hparent
  | gone hstack hmem hgone =>
      obtain ⟨found, hanswer, -⟩ :=
        (hdone.covers hscoping (htop hstack).1).settled _ (hworld ▸ hmem)
      have hliving := hscoping.prepared.living _ (hdone.underway.orderly.asked _ _ hanswer)
      rw [hworld, hliving] at hgone
      cases hgone
  | unknown hstack hmem =>
      exact ((hdone.covers hscoping (htop hstack).1).settled .unknown (hworld ▸ hmem)).elim
  | @unowned _ _ _ slot _ _ hstack hmem hnone =>
      have howned := (hdone.covers hscoping (htop hstack).1).owned slot (hworld ▸ hmem)
      rw [World.slot?, hdone.underway.slots, ← h.slots_eq] at howned
      rw [World.slot?] at hnone
      simp [hnone] at howned
  | missing hstack hpolicy _ hmissing =>
      obtain ⟨hasked, definition, hanswer⟩ := htop hstack
      obtain ⟨h, -⟩ | ⟨hwaiting, hloads⟩ := h
      swap
      · exact absurd hmissing (hwaiting.not_missing (hloads _) hasked)
      have hmade := hdone.underway.made_of_missing hscoping h hanswer hmissing
      exact absurd (hdecls ▸ hpolicy) (hdone.underway.census.missing _ _ hmade).2.1
  | present hstack hpolicy hfound =>
      obtain ⟨hasked, definition, hanswer⟩ := htop hstack
      obtain ⟨h, -⟩ | ⟨hwaiting, -⟩ := h
      swap
      · exact absurd hfound hwaiting.not_found
      obtain hold | hmade := hdone.underway.old_or_made hscoping hanswer
      · exact absurd (hdecls ▸ hpolicy) (hdone.underway.census.found _ _ hanswer hold).1
      · have hold := h.old_of_found hscoping hasked (h.orderly.sound.unanswered hstack) hfound
        exact absurd hmade (hdone.underway.not_made_of_found hscoping h hanswer hfound hold)
  | locked hstack hlocked _ _ hmissing =>
      obtain ⟨hasked, definition, hanswer⟩ := htop hstack
      obtain ⟨h, -⟩ | ⟨hwaiting, hloads⟩ := h
      swap
      · exact absurd hmissing (hwaiting.not_missing (hloads _) hasked)
      have hmade := hdone.underway.made_of_missing hscoping h hanswer hmissing
      exact absurd (hdecls ▸ hdone.underway.licensed _ hmade) hlocked
  | lockedDetail hstack hlocked hdetail hsettled hnot =>
      obtain ⟨h, hfurnished⟩ | ⟨hwaiting, -⟩ := h
      swap
      · exact absurd hstack hwaiting.not_located
      rw [hworld] at hdetail hsettled
      exact absurd (hdone.holds hscoping h hfurnished (h.orderly.sound.answer_top hstack) hdetail
        (.inl hlocked) hsettled) hnot
  | differs hstack hmade hdetail hfixed hsettled hnot =>
      obtain ⟨h, hfurnished⟩ | ⟨hwaiting, -⟩ := h
      swap
      · exact absurd hstack hwaiting.not_located
      rw [hworld] at hdetail hsettled
      exact absurd (hdone.holds hscoping h hfurnished (h.orderly.sound.answer_top hstack) hdetail
        (.inr ⟨hmade, hfixed⟩) hsettled) hnot

end Concluded

end Graft.Moment
