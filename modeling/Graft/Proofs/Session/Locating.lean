import Graft.Proofs.Session.Completing
import Graft.Proofs.Session.Reference
import Graft.Session.Locate

/-!
# Locating definitions

Locating a declaration ends with a definition that is where the declaration says
(`leads_locate`). If it had to be made, the declaration may be changed, and the definition has all
of its details from it.
-/

namespace Graft

/-- The flags of a new method depend on nothing that its signature refers to. -/
theorem Search.defaultMethodFlags_relink (link : Relink) (signature : MethodSig) :
    Search.defaultMethodFlags (signature.relink link) = Search.defaultMethodFlags signature := by
  obtain ⟨callConv, genericCount, result, params, varargs⟩ := signature
  rw [MethodSig.relink]
  rfl

namespace Moment

variable {asked : Declaration → Prop} {bound : Option Nat} {now next : Moment}
  {stack rest : InFlight} {search : Search} {declaration parent : Declaration}
  {definition holder : Definition} {record : Record}

/-- Whether a definition has been made for a declaration: it is as the declaration says, and the
declaration may be changed. -/
structure MadeFor (now : Moment) (declaration : Declaration) (definition : Definition) : Prop where
  writable : now.decls.Writable declaration
  rendered : ∃ record, now.defs.record? definition = some record ∧
    now.answer.SettlesAll (now.decls.statement declaration).shape.targets ∧
    record.nature.shape = (now.decls.statement declaration).shape.relink now.fill ∧
    ∀ declared, (now.decls.statement declaration).flags = some declared →
      record.details.flags = declared

/-- Whether the definition of the innermost declaration has been located, with all that its
signature says known. A method that was found has the declared parameters, and what was made was
made for the declaration. -/
structure Located (now : Moment) (rest : InFlight) (declaration : Declaration)
    (definition : Definition) (made : Bool) : Prop where
  stack : now.stack = (declaration, some definition) :: rest
  kind : definition.kind = declaration.kind
  covers : now.Covers (now.decls.statement declaration).shape.targets
    (now.decls.statement declaration).shape.slots
  overload : declaration.kind = .method → now.Holds declaration definition .overload
  rendered : made = true →
    now.MadeFor declaration definition ∧ (declaration, definition) ∈ now.made
  found : made = false → (declaration, definition) ∉ now.made

/-- Where nothing but the answers changes, and they are only added to, more is known of the same. -/
theorem completes_of_extends (hstate : next.state = now.state)
    (hanswers : now.answer.Extends next.answer) : next.Completes now :=
  ⟨by rw [defs, hstate], by rw [decls, hstate], hanswers⟩

/-- What holds stays so while nothing but the answers changes, and they are only added to. -/
theorem Holds.mono {detail : Detail} (h : now.Holds declaration definition detail)
    (hstate : next.state = now.state) (hanswers : now.answer.Extends next.answer) :
    next.Holds declaration definition detail :=
  (completes_of_extends hstate hanswers).holds h

theorem MadeFor.mono (h : now.MadeFor declaration definition) (hstate : next.state = now.state)
    (hanswers : now.answer.Extends next.answer) : next.MadeFor declaration definition := by
  obtain ⟨state, stack, confirmed, made⟩ := now
  obtain ⟨_, stack', confirmed', made'⟩ := next
  cases hstate
  obtain ⟨hwritable, record, hrecord, hsettled, hshape, hflags⟩ := h
  refine ⟨hwritable, record, hrecord, hsettled.mono hanswers, ?_, hflags⟩
  rw [hshape, Shape.fill_mono hanswers hsettled]

/-- Putting the definition of the innermost declaration on the stack only adds an answer. -/
theorem Sound.extends_locate (hsound : now.Sound)
    (hstack : now.stack = (declaration, none) :: rest) :
    now.answer.Extends (now.withStack ((declaration, some definition) :: rest)).answer := by
  intro other found hanswer
  have hmemo := hsound.unfinished (declaration, none) (by simp [hstack])
  rw [hsound.answer_locate hstack, if_neg, hanswer]
  rintro rfl
  simp [answer, hstack, hmemo] at hanswer

/-- A declaration that is yet to be located has no answer. -/
theorem Sound.unanswered (hsound : now.Sound)
    (hstack : now.stack = (declaration, none) :: rest) : now.answer declaration = none := by
  have hmemo := hsound.unfinished (declaration, none) (by simp [hstack])
  simpa [answer, hstack] using hmemo

/-- Putting the definition of the innermost declaration on the stack leaves known what is known. -/
theorem Covers.locate {targets : List Target} {slots : List SlotId} (h : now.Covers targets slots)
    (hsound : now.Sound) (hstack : now.stack = (declaration, none) :: rest) :
    (now.withStack ((declaration, some definition) :: rest)).Covers targets slots :=
  ⟨h.settled.mono (hsound.extends_locate hstack), h.owned⟩

/-- What was found is located. -/
theorem Found.located (h : now.Found declaration definition) (hsound : now.Sound)
    (hstack : now.stack = (declaration, none) :: rest)
    (hcovers : now.Covers (now.decls.statement declaration).shape.targets
      (now.decls.statement declaration).shape.slots) :
    (now.withStack ((declaration, some definition) :: rest)).Located rest declaration definition
      false where
  stack := rfl
  kind := h.kind
  covers := hcovers.locate hsound hstack
  overload hmethod := by
    have hholds : now.Holds declaration definition .overload := by
      cases h with
      | module => cases hmethod
      | member _ _ _ _ hmatches =>
          obtain ⟨record, -, -, -, hoverload⟩ := hmatches
          exact hoverload hmethod
    exact hholds.mono rfl (hsound.extends_locate hstack)
  rendered hfalse := by cases hfalse
  found _ hmem := by
    have hanswer := hsound.made _ hmem
    simp [hsound.unanswered hstack] at hanswer

/-- What is made for a declaration and listed has the declared name, and a method the declared
parameters. -/
theorem Renders.matches {made : Definition} {defs : Definitions}
    (hrenders : now.Renders declaration holder record)
    (hadds : now.defs.Adds defs holder made record) :
    (now.withDefs defs).Matches declaration made := by
  have hrecord : (now.withDefs defs).defs.record? made = some record := hadds.record_made
  refine ⟨record, hrecord, hrenders.name, fun _ _ _ => hrenders.namespaceName, fun hmethod => ?_⟩
  refine ⟨record, hrecord, hrenders.settled, ?_⟩
  rw [hrenders.shape]
  have hunknown := unknown_notMem_image_fill hrenders.settled
  rw [← Shape.targets_relink] at hunknown
  cases declaration with
  | method id => exact Shape.overloads_self hunknown
  | _ => cases hmethod

/-- What was made for a declaration and listed is located. -/
theorem located_of_renders {made : Definition} {defs : Definitions} (hsound : now.Sound)
    (hstack : now.stack = (declaration, none) :: rest) (hwritable : now.decls.Writable declaration)
    (hkind : made.kind = declaration.kind) (hrenders : now.Renders declaration holder record)
    (hcovers : now.Covers (now.decls.statement declaration).shape.targets
      (now.decls.statement declaration).shape.slots)
    (hadds : now.defs.Adds defs holder made record) :
    (((now.withDefs defs).withStack ((declaration, some made) :: rest)).withMade
      ((declaration, made) :: now.made)).Located rest declaration made true := by
  have hsound' := hsound.withDefs hadds.grows (hadds.held hrenders.members hsound.held)
  have hextends : (now.withDefs defs).answer.Extends
      ((now.withDefs defs).withStack ((declaration, some made) :: rest)).answer :=
    hsound'.extends_locate hstack
  have hmade : (now.withDefs defs).MadeFor declaration made :=
    ⟨hwritable, record, hadds.record_made, hrenders.settled, hrenders.shape,
      fun declared hdeclared => by
        rw [withDefs_decls] at hdeclared
        rw [hrenders.flags, hdeclared, Option.getD_some]⟩
  refine ⟨rfl, hkind, ⟨hcovers.settled.mono hextends, hcovers.owned⟩, fun hmethod => ?_,
    fun _ => ⟨hmade.mono rfl hextends, List.mem_cons_self⟩, by simp⟩
  obtain ⟨-, -, -, -, hoverload⟩ := hrenders.matches hadds
  exact (hoverload hmethod).mono rfl hextends

/-- Neither finding nor making is all there is to it: the log is written last. -/
theorem Located.withState {made : Bool} {world : World}
    (h : now.Located rest declaration definition made) (hquiet : now.world.Quiet world) :
    (now.withState now.session world).Located rest declaration definition made := by
  have hslots (slot : SlotId) (hfilled : (now.world.slot? slot).isSome = true) :
      (world.slot? slot).isSome = true := hquiet.isSome_slot? hfilled
  obtain ⟨state, stack, confirmed, made⟩ := now
  obtain ⟨session, ⟨defs, decls, importers, sources, leaves, slots, log, notices⟩⟩ := state
  obtain ⟨defs', decls', importers', sources', leaves', slots', log', notices'⟩ := world
  obtain ⟨rfl, rfl, -⟩ := hquiet
  exact ⟨h.stack, h.kind,
    ⟨h.covers.settled, fun slot hmem => hslots slot (h.covers.owned slot hmem)⟩, h.overload,
    fun htrue => ⟨⟨(h.rendered htrue).1.writable, (h.rendered htrue).1.rendered⟩,
      (h.rendered htrue).2⟩,
    h.found⟩

/-- What the policy says about a definition that was found or is missing. -/
theorem mustCreate_ok {world : World} {found create : Bool}
    (h : declaration.mustCreate world found = .ok create) : create = !found ∧
      (found = true → (world.decls.terms declaration).policy ≠ .failIfPresent) ∧
      (found = false → (world.decls.terms declaration).policy ≠ .failIfMissing) := by
  unfold Declaration.mustCreate at h
  cases hpolicy : (world.decls.terms declaration).policy <;> cases found <;> simp_all

theorem mustCreate_error {world : World} {found : Bool} {error : Error}
    (h : declaration.mustCreate world found = .error error) :
    (found = true ∧ (world.decls.terms declaration).policy = .failIfPresent ∧
        error = .alreadyExists (world.declSymbol declaration)) ∨
      (found = false ∧ (world.decls.terms declaration).policy = .failIfMissing ∧
        error = .notFound (world.declSymbol declaration)) := by
  unfold Declaration.mustCreate at h
  cases hpolicy : (world.decls.terms declaration).policy <;> cases found <;> simp_all

/-- What is found is the answer, and what is missing is made if that is allowed. -/
theorem leads_findOrCreate {ι : Type} {found : Option ι} {create : SessionTask ι}
    {toDefinition : ι → Definition} (hsound : now.Sound)
    (hstack : now.stack = (declaration, none) :: rest) (hasked : asked declaration)
    (hcovers : now.Covers (now.decls.statement declaration).shape.targets
      (now.decls.statement declaration).shape.slots)
    (hfound : ∀ existing, found = some existing → now.Found declaration (toDefinition existing))
    (hmissing : found = none → now.Missing declaration)
    (hcreate : now.Missing declaration → now.decls.Writable declaration →
      (now.decls.terms declaration).policy ≠ .failIfMissing →
      LeadsTo asked bound now rest create fun made next => ∀ world, next.world.Quiet world →
        (next.withState next.session world).Located rest declaration (toDefinition made) true) :
    LeadsTo asked bound now rest (SessionTask.findOrCreate declaration found create)
      fun located next => next.Located rest declaration (toDefinition located.1) located.2 := by
  have hbase : rest <:+ now.stack := hstack ▸ List.suffix_cons _ _
  -- The policy decides before anything is made: what is there may be unwelcome, what is not may be
  -- required.
  have hask : Leads asked bound now (ofExcept (declaration.mustCreate now.world found.isSome))
      fun create next => next = now ∧ create = !found.isSome ∧
        (found.isSome = true → (now.decls.terms declaration).policy ≠ .failIfPresent) ∧
        (found.isSome = false → (now.decls.terms declaration).policy ≠ .failIfMissing) := by
    refine Leads.ofExcept (fun create h => ⟨rfl, mustCreate_ok h⟩) fun error h => ?_
    obtain ⟨hsome, hpolicy, rfl⟩ | ⟨hnone, hpolicy, rfl⟩ := mustCreate_error h
    · obtain ⟨existing, hexisting⟩ := Option.isSome_iff_exists.mp hsome
      exact fun _ => .present hstack hpolicy (hfound existing hexisting)
    · exact fun _ => .missing hstack hpolicy hcovers.settled (hmissing (by simpa using hnone))
  refine LeadsTo.world (Leads.andThen hsound hask hbase ?_)
  rintro _ next - ⟨rfl, rfl, hpresent, habsent⟩
  cases found with
  | some existing =>
      have hexisting := hfound existing rfl
      have hstep : Step asked {} next
          (next.withStack ((declaration, some (toDefinition existing)) :: rest)) :=
        .locate hstack hasked (hpresent rfl) hexisting
      exact LeadsTo.step hstep rfl fun _ => ⟨_, rfl, .refl, hexisting.located hsound hstack hcovers⟩
  | none =>
      have habsent := habsent rfl
      have hmissing := hmissing rfl
      refine Leads.andThen hsound
        (Leads.checkWritable fun hlocked _ =>
          .locked hstack hlocked habsent hcovers.settled hmissing) hbase ?_
      rintro _ next - ⟨rfl, hwritable⟩
      refine LeadsTo.bind (hcreate hmissing hwritable habsent)
        (fun next hrun => (hrun.later hsound).decls) ?_
      intro made next hrun hpost
      have hsound' := hrun.sound hsound
      have hstack' : next.stack = (declaration, some (toDefinition made)) :: rest :=
        (hpost next.world (World.Quiet.refl _)).stack
      have hlog (entry : LogEntry) : Leads asked bound next (SessionTask.log entry) fun _ last =>
          last.Located rest declaration (toDefinition made) true := Leads.log hpost
      refine LeadsTo.world (Leads.andThen hsound' (hlog _) (hstack' ▸ List.suffix_cons _ _) ?_)
      intro _ last _ hlast
      exact fun _ => ⟨last, rfl, .refl, hlast⟩

/-- Making a definition for a declaration and listing it. -/
theorem leads_create {ι : Type} {make : Definitions → ι × Definitions}
    {toDefinition : ι → Definition} (hsound : now.Sound)
    (hstack : now.stack = (declaration, none) :: rest) (hasked : asked declaration)
    (hmissing : now.Missing declaration) (hwritable : now.decls.Writable declaration)
    (hpolicy : (now.decls.terms declaration).policy ≠ .failIfMissing)
    (hparent : now.decls.parent? declaration = some parent)
    (hholder : now.answer parent = some holder)
    (hkind : (toDefinition (make now.defs).1).kind = declaration.kind)
    (hrenders : now.Renders declaration holder record)
    (hcovers : now.Covers (now.decls.statement declaration).shape.targets
      (now.decls.statement declaration).shape.slots)
    (hadds : now.defs.Adds (make now.defs).2 holder (toDefinition (make now.defs).1) record)
    (hbuilds : now.defs.Builds (make now.defs).2) :
    LeadsTo asked bound now rest (SessionTask.makeDef make) fun made next =>
      ∀ world, next.world.Quiet world →
        (next.withState next.session world).Located rest declaration (toDefinition made) true := by
  have hstep : Step asked {} now _ :=
    .create hstack hasked hwritable hpolicy hmissing hparent hholder hkind hrenders hadds hbuilds
  refine LeadsTo.ofStep _ (SessionTask.on_makeDef make now.state) hstep fun world hquiet => ?_
  exact (located_of_renders hsound hstack hwritable hkind hrenders hcovers hadds).withState hquiet

/-- The first member of a holder that a search accepts is what a declaration inside the holder
stands for, if the search accepts what has the declared name. -/
theorem find?_spec {ι : Type} (members : List ι) (toDefinition : ι → Definition)
    (accepts : ι → Bool)
    (hparent : now.decls.parent? declaration = some parent)
    (hholder : now.answer parent = some holder)
    (hmembers : now.defs.members holder declaration.kind = members.map toDefinition)
    (hkind : ∀ id, (toDefinition id).kind = declaration.kind)
    (haccepts : ∀ id ∈ members,
      (accepts id = true ↔ now.Matches declaration (toDefinition id))) :
    (∀ existing, members.find? accepts = some existing →
        now.Found declaration (toDefinition existing)) ∧
      (members.find? accepts = none → now.Missing declaration) := by
  refine ⟨fun existing hfind => ?_, fun hfind => .member hparent hholder ?_⟩
  · obtain ⟨haccepted, front, rest, rfl, hfirst⟩ := List.find?_eq_some_iff_append.mp hfind
    have hsplit : now.defs.members holder declaration.kind =
        front.map toDefinition ++ toDefinition existing :: rest.map toDefinition := by
      simp [hmembers]
    refine .member hparent hholder (hkind existing) hsplit
      ((haccepts existing (by simp)).mp haccepted) ?_
    intro other hother
    obtain ⟨id, hid, rfl⟩ := List.mem_map.mp hother
    intro hmatches
    have hrefused := hfirst id hid
    rw [(haccepts id (by simp [hid])).mpr hmatches] at hrefused
    simp at hrefused
  · rw [hmembers]
    intro other hother
    obtain ⟨id, hid, rfl⟩ := List.mem_map.mp hother
    rw [← haccepts id hid]
    exact List.find?_eq_none.mp hfind id hid

/-- The module with a name, if the session or its source has one. -/
theorem leads_module? {id : DeclId .module} (hstack : now.stack = (.module id, none) :: rest)
    (hasked : asked (.module id)) :
    Leads asked bound now (SessionTask.module? (now.decls.module id).name) fun found next =>
      next.session.modules.get? (now.decls.module id).name = found ∧
        (found = none → next.Missing (.module id)) := by
  intro _
  rw [SessionTask.module?, SessionTask.on_bind, SessionTask.on_get]
  dsimp only
  cases hmodule : now.session.modules.get? (now.decls.module id).name with
  | some module => exact ⟨now, rfl, .refl, rfl, hmodule, by simp⟩
  | none =>
      dsimp only
      rw [SessionTask.on_bind, SessionTask.on_attempt]
      cases hload : (Task.load now.session.source (now.decls.module id).name).on now.world with
      | mk outcome world =>
          cases outcome with
          | ok module =>
              exact ⟨now.withState { now.session with
                modules := now.session.modules.insert (now.decls.module id).name module } world,
                rfl, .single (.load hstack hasked rfl hmodule hload), rfl, by simp⟩
          | error error =>
              have hworld := Task.load_error hload
              have hfails := congrArg Prod.fst hload
              subst hworld
              have hmissing (name : String) (h : error = .moduleNotFound name) :
                  now.Missing (.module id) := .module rfl hmodule (h ▸ hfails)
              have hfault (h : ∀ name, error ≠ .moduleNotFound name) : now.Fault error :=
                .unloadable hstack hmodule hfails h
              cases error with
              | moduleNotFound => exact ⟨now, rfl, .refl, rfl, hmodule, fun _ => hmissing _ rfl⟩
              | _ => exact ⟨now, rfl, List.suffix_rfl, .refl, fun _ => hfault fun _ => nofun⟩

theorem leads_locateModule {id : DeclId .module} (hsound : now.Sound)
    (htop : now.stack = (.module id, none) :: rest) (hasked : asked (.module id)) :
    LeadsTo asked bound now rest (Search.locateModule id) fun located next =>
      next.Located rest (.module id) (.module located.1) located.2 := by
  refine LeadsTo.world (Leads.andThen hsound (leads_module? htop hasked)
    (htop ▸ List.suffix_cons _ _) ?_)
  rintro found next hafter ⟨hmodule, hnone⟩
  have hdecls := hafter.later.decls
  have hstack := hafter.stack.trans htop
  refine leads_findOrCreate hafter.sound hstack hasked covers_nil ?_ hnone ?_
  · rintro existing rfl
    exact .module (by rw [hdecls]; exact hmodule)
  · intro hmissing hwritable hpolicy
    have hfound : found = none := by
      cases hmissing with
      | module hname hnone =>
          rw [← hmodule, ← hnone, ← hname, hdecls]
      | member hparent => cases hparent
    subst hfound
    have hname : (next.decls.module id).name = (now.decls.module id).name := by rw [hdecls]
    have hstep : Step asked {} next _ :=
      .makeModule hstack hasked hwritable hname hpolicy hmodule hmissing
    refine LeadsTo.ofStep ⟨next.defs.modules.next⟩ rfl hstep fun world hquiet => ?_
    refine Located.withState ⟨rfl, rfl, covers_nil, nofun, fun _ => ⟨⟨hwritable, _,
      (Definitions.makeModule_makes _ _).record_made, ?_, rfl, ?_⟩, List.mem_cons_self⟩, nofun⟩ hquiet
    · simp [Declarations.statement, Shape.targets]
    · simp [Declarations.statement]

/-- A nested type is found by its name in the type around it, or it is made there. -/
theorem leads_locateWithinType {id : DeclId .type} {outer : DeclId .type} {owner : DefId .type}
    (hsound : now.Sound) (hstack : now.stack = (.type id, none) :: rest) (hasked : asked (.type id))
    (houter : now.decls.outer? id = some outer)
    (hholder : now.answer (.type outer) = some (.type owner)) :
    LeadsTo asked bound now rest (do
      let world ← SessionTask.world
      let decl := world.decls.type id
      SessionTask.findOrCreate (.type id)
        ((world.defs.type owner).nested.find? fun other => (world.defs.type other).name == decl.name)
        (SessionTask.makeDef (·.addNested owner
          { name := decl.name, flags := decl.flags.getD Flags.nestedPrivate })))
      fun located next => next.Located rest (.type id) (.type located.1) located.2 := by
  have hparent : now.decls.parent? (.type id) = some (.type outer) := by
    simp [Declarations.parent?, houter]
  have hnamespace : (now.decls.type id).namespaceName? = none := by
    unfold Declarations.outer? at houter
    unfold TypeDecl.namespaceName?
    split at houter <;> simp_all
  obtain ⟨hfound, hmissing⟩ := find?_spec (now.defs.type owner).nested .type
    (fun other => (now.defs.type other).name == (now.decls.type id).name)
    hparent hholder rfl (fun _ => rfl) fun other hother => by
      have hmem : Definition.type other ∈ now.defs.members (.type owner) .type :=
        List.mem_map_of_mem hother
      have hrecord := Definitions.record?_type (hsound.held _ _ _ hmem)
      simp [Matches, hrecord, hparent, Declarations.statement, TypeDef.record, Declaration.kind]
  refine LeadsTo.world (leads_findOrCreate hsound hstack hasked covers_nil hfound hmissing ?_)
  intro hmissing hwritable hpolicy
  let made : TypeDef :=
    { name := (now.decls.type id).name
      flags := (now.decls.type id).flags.getD Flags.nestedPrivate }
  have hempty : made.record.members = fun _ => [] := TypeDef.members_eq_nil rfl rfl rfl rfl rfl
  have howner := hsound.has_answer hholder
  obtain ⟨token, hadds⟩ := Definitions.addNested_adds made howner hempty
  refine leads_create hsound hstack hasked hmissing hwritable hpolicy hparent hholder rfl
    ?_ covers_nil hadds (.addNested howner ⟨hempty, rfl, rfl, rfl⟩)
  constructor
  case members => exact hempty
  all_goals
    simp [made, Declarations.statement, TypeDef.record, Shape.relink, Shape.targets, ownerIn, moduleIn,
      Declaration.kind, hnamespace, presetFlags, houter]

/-- A type at top level is found by its namespace and name in its module, or it is made there. -/
theorem leads_locateWithinModule {id : DeclId .type} {module : DeclId .module}
    {found : DefId .module} (hsound : now.Sound) (hstack : now.stack = (.type id, none) :: rest)
    (hasked : asked (.type id)) (houter : now.decls.outer? id = none)
    (hmodule : now.decls.moduleOf? id = some module)
    (hholder : now.answer (.module module) = some (.module found)) :
    LeadsTo asked bound now rest (do
      let world ← SessionTask.world
      let decl := world.decls.type id
      let namespaceName := decl.namespaceName?.getD ""
      SessionTask.findOrCreate (.type id) (world.defs.findType? found namespaceName decl.name)
        (SessionTask.makeDef (·.addType found
          { namespaceName, name := decl.name, flags := decl.flags.getD 0 })))
      fun located next => next.Located rest (.type id) (.type located.1) located.2 := by
  have hparent : now.decls.parent? (.type id) = some (.module module) := by
    simp [Declarations.parent?, houter, hmodule]
  obtain ⟨hfound, hmissing⟩ := find?_spec (now.defs.module found).types .type
    (fun other =>
      (now.defs.type other).namespaceName == (now.decls.type id).namespaceName?.getD "" &&
        (now.defs.type other).name == (now.decls.type id).name)
    hparent hholder rfl (fun _ => rfl) fun other hother => by
      have hmem : Definition.type other ∈ now.defs.members (.module found) .type :=
        List.mem_map_of_mem hother
      have hrecord := Definitions.record?_type (hsound.held _ _ _ hmem)
      simp [Matches, hrecord, hparent, Declarations.statement, TypeDef.record, Declaration.kind,
        and_comm]
  refine LeadsTo.world (leads_findOrCreate hsound hstack hasked covers_nil hfound hmissing ?_)
  intro hmissing hwritable hpolicy
  let made : TypeDef :=
    { namespaceName := (now.decls.type id).namespaceName?.getD ""
      name := (now.decls.type id).name
      flags := (now.decls.type id).flags.getD 0 }
  have hempty : made.record.members = fun _ => [] := TypeDef.members_eq_nil rfl rfl rfl rfl rfl
  have hhas := hsound.has_answer hholder
  obtain ⟨token, hadds⟩ := Definitions.addType_adds made hhas hempty
  refine leads_create hsound hstack hasked hmissing hwritable hpolicy hparent hholder rfl
    ?_ covers_nil hadds (.addType hhas ⟨hempty, rfl, rfl, rfl⟩)
  constructor
  case members => exact hempty
  all_goals
    simp [made, Declarations.statement, TypeDef.record, Shape.relink, Shape.targets, ownerIn, moduleIn,
      Declaration.kind, presetFlags, houter]

section Locate

variable (hfinds : Finds asked bound stack search) (hsound : now.Sound) (hstack : now.stack = stack)
  (hclosed : now.decls.Closed asked)

include hfinds hsound hstack hclosed

theorem leads_ownerOf {owner : DeclId .type} (htop : stack = (declaration, none) :: rest)
    (hmodule : declaration.kind ≠ .module) (hasked : asked declaration)
    (hparent : now.decls.parent? declaration = (now.decls.living? owner).map .type) :
    Leads asked bound now (search.ownerOf declaration owner) fun found next =>
      ∃ parent, next.decls.parent? declaration = some parent ∧
        next.answer parent = some (.type found) := by
  refine Leads.world ?_
  cases hliving : now.decls.living? owner with
  | none =>
      rw [hliving, Option.map_none] at hparent
      exact Leads.throw fun _ => .detached (hstack.trans htop) hmodule hparent
  | some owner =>
      rw [hliving, Option.map_some] at hparent
      have hasked' := hclosed.parent declaration _ hasked hparent
      refine Leads.mono hsound (leads_type hfinds hsound hstack hasked') ?_
      intro found next hafter hanswer
      exact ⟨.type owner, by rwa [hafter.later.decls], hanswer⟩

/-- A member is located in two steps: the type around it and the declared signature are resolved,
and then the member is looked for in the type. -/
theorem leads_locateMember {α ι : Type} {owner : DeclId .type} {signature : SessionTask α}
    {resolved : α → Moment → Prop} {finish : DefId .type → α → SessionTask (ι × Bool)}
    {toDefinition : ι → Definition} (htop : stack = (declaration, none) :: rest)
    (hmodule : declaration.kind ≠ .module) (hasked : asked declaration)
    (hparent : now.decls.parent? declaration = (now.decls.living? owner).map .type)
    (hsignature : ∀ next, now.After next →
      Reads asked bound next (now.decls.statement declaration).shape.targets
        (now.decls.statement declaration).shape.slots → Leads asked bound next signature resolved)
    (hfinish : ∀ found value parent next, now.After next → resolved value next →
      next.decls.parent? declaration = some parent →
      next.answer parent = some (.type found) →
      LeadsTo asked bound next rest (finish found value) fun located last =>
        last.Located rest declaration (toDefinition located.1) located.2) :
    LeadsTo asked bound now rest (do
      let owner ← search.ownerOf declaration owner
      let value ← signature
      finish owner value) fun located next =>
        next.Located rest declaration (toDefinition located.1) located.2 := by
  have hbase : rest <:+ now.stack := hstack ▸ htop ▸ List.suffix_cons _ _
  refine Leads.andThen hsound
    (leads_ownerOf hfinds hsound hstack hclosed htop hmodule hasked hparent) hbase ?_
  rintro found next hafter ⟨parent, hparent', hanswer⟩
  refine Leads.andThen hafter.sound
    (hsignature next hafter (hafter.reads (reads_shape hclosed (hstack.trans htop) hasked)))
    (hafter.stack ▸ hbase) ?_
  intro value last hafter' hresolved
  exact hfinish found value parent last (hafter.trans hafter') hresolved
    (hafter'.later.decls ▸ hparent') (hafter'.answers _ _ hanswer)

theorem leads_locateField {id : DeclId .field} (htop : stack = (.field id, none) :: rest)
    (hasked : asked (.field id)) :
    LeadsTo asked bound now rest (search.locateField id) fun located next =>
      next.Located rest (.field id) (.field located.1) located.2 := by
  refine LeadsTo.world (leads_locateMember hfinds hsound hstack hclosed htop nofun hasked rfl
    (fun next hafter hreads => leads_resolveTypeSig hfinds hafter.sound (hafter.stack.trans hstack) _
      hreads) ?_)
  rintro owner _ parent next hafter ⟨hcovers, rfl⟩ hparent hholder
  have hdecls := hafter.later.decls
  have hsettled := hcovers.settled
  replace hcovers : next.Covers (next.decls.statement (.field id)).shape.targets
      (next.decls.statement (.field id)).shape.slots := by rwa [hdecls]
  have hstack' := hafter.stack.trans (hstack.trans htop)
  obtain ⟨hfound, hmissing⟩ := find?_spec (next.defs.type owner).fields .field
    (fun other => (next.defs.field other).name == (now.decls.field id).name)
    hparent hholder rfl (fun _ => rfl) fun other hother => by
      have hmem : Definition.field other ∈ next.defs.members (.type owner) .field :=
        List.mem_map_of_mem hother
      have hrecord := Definitions.record?_field (hafter.sound.held _ _ _ hmem)
      simp [Matches, hrecord, hdecls, Declarations.statement, FieldDef.record,
        Declaration.kind]
  refine LeadsTo.world (leads_findOrCreate hafter.sound hstack' hasked hcovers hfound hmissing ?_)
  intro hmissing hwritable hpolicy
  have howner := hafter.sound.has_answer hholder
  obtain ⟨token, hadds⟩ := Definitions.addField_adds howner
  refine leads_create hafter.sound hstack' hasked hmissing hwritable hpolicy hparent hholder rfl ?_
    hcovers hadds (.addField howner ⟨rfl, rfl, rfl, rfl⟩)
  constructor <;> simp [hdecls, Declarations.statement, FieldDef.record, Shape.relink,
    Shape.targets, ownerIn, Declaration.kind, hsettled, presetFlags]

theorem leads_locateMethod {id : DeclId .method} (htop : stack = (.method id, none) :: rest)
    (hasked : asked (.method id)) :
    LeadsTo asked bound now rest (search.locateMethod id) fun located next =>
      next.Located rest (.method id) (.method located.1) located.2 := by
  refine LeadsTo.world (leads_locateMember hfinds hsound hstack hclosed htop nofun hasked rfl
    (fun next hafter hreads => leads_resolveMethodSig hfinds hafter.sound (hafter.stack.trans hstack) _
      hreads) ?_)
  rintro owner _ parent next hafter ⟨hcovers, rfl⟩ hparent hholder
  have hdecls := hafter.later.decls
  have hsettled := hcovers.settled
  replace hcovers : next.Covers (next.decls.statement (.method id)).shape.targets
      (next.decls.statement (.method id)).shape.slots := by rwa [hdecls]
  have hstack' := hafter.stack.trans (hstack.trans htop)
  obtain ⟨hfound, hmissing⟩ := find?_spec (next.defs.type owner).methods .method
    (fun other => (next.defs.method other).name == (now.decls.method id).name &&
      Comparison.overload.admits (next.defs.method other).flags &&
      (next.defs.method other).signature.same next.world.typeNames .overload
        ((now.decls.method id).signature.relink next.fill))
    hparent hholder rfl (fun _ => rfl) fun other hother => by
      have hmem : Definition.method other ∈ next.defs.members (.type owner) .method :=
        List.mem_map_of_mem hother
      have hrecord := Definitions.record?_method (hafter.sound.held _ _ _ hmem)
      simp [Matches, Holds, hrecord, hdecls, Declarations.statement,
        MethodDef.record, Declaration.kind, Comparison.admits, Shape.relink, Shape.targets,
        Shape.Overloads, hsettled]
  refine LeadsTo.world (leads_findOrCreate hafter.sound hstack' hasked hcovers hfound hmissing ?_)
  intro hmissing hwritable hpolicy
  have howner := hafter.sound.has_answer hholder
  obtain ⟨token, hadds⟩ := Definitions.addMethod_adds howner
  refine leads_create hafter.sound hstack' hasked hmissing hwritable hpolicy hparent hholder rfl ?_
    hcovers hadds (.addMethod howner ⟨rfl, rfl, rfl, rfl⟩)
  constructor <;> simp [hdecls, Declarations.statement, MethodDef.record, Shape.relink,
    Shape.targets, ownerIn, Declaration.kind, hsettled, presetFlags, Search.defaultMethodFlags_relink]

theorem leads_locateProperty {id : DeclId .property} (htop : stack = (.property id, none) :: rest)
    (hasked : asked (.property id)) :
    LeadsTo asked bound now rest (search.locateProperty id) fun located next =>
      next.Located rest (.property id) (.property located.1) located.2 := by
  refine LeadsTo.world (leads_locateMember hfinds hsound hstack hclosed htop nofun hasked rfl
    (fun next hafter hreads => leads_resolvePropertySig hfinds hafter.sound (hafter.stack.trans hstack) _
      hreads) ?_)
  rintro owner _ parent next hafter ⟨hcovers, rfl⟩ hparent hholder
  have hdecls := hafter.later.decls
  have hsettled := hcovers.settled
  replace hcovers : next.Covers (next.decls.statement (.property id)).shape.targets
      (next.decls.statement (.property id)).shape.slots := by rwa [hdecls]
  have hstack' := hafter.stack.trans (hstack.trans htop)
  obtain ⟨hfound, hmissing⟩ := find?_spec (next.defs.type owner).properties .property
    (fun other => (next.defs.property other).name == (now.decls.property id).name)
    hparent hholder rfl (fun _ => rfl) fun other hother => by
      have hmem : Definition.property other ∈ next.defs.members (.type owner) .property :=
        List.mem_map_of_mem hother
      have hrecord := Definitions.record?_property (hafter.sound.held _ _ _ hmem)
      simp [Matches, hrecord, hdecls, Declarations.statement, PropertyDef.record,
        Declaration.kind]
  refine LeadsTo.world (leads_findOrCreate hafter.sound hstack' hasked hcovers hfound hmissing ?_)
  intro hmissing hwritable hpolicy
  have howner := hafter.sound.has_answer hholder
  obtain ⟨token, hadds⟩ := Definitions.addProperty_adds howner
  refine leads_create hafter.sound hstack' hasked hmissing hwritable hpolicy hparent hholder rfl ?_
    hcovers hadds (.addProperty howner ⟨rfl, rfl, rfl, rfl⟩)
  constructor <;> simp [hdecls, Declarations.statement, PropertyDef.record, Shape.relink,
    Shape.targets, ownerIn, Declaration.kind, hsettled, presetFlags]

theorem leads_locateEvent {id : DeclId .event} (htop : stack = (.event id, none) :: rest)
    (hasked : asked (.event id)) :
    LeadsTo asked bound now rest (search.locateEvent id) fun located next =>
      next.Located rest (.event id) (.event located.1) located.2 := by
  refine LeadsTo.world (leads_locateMember hfinds hsound hstack hclosed htop nofun hasked rfl
    (fun next hafter hreads => leads_resolveTypeRef hfinds hafter.sound (hafter.stack.trans hstack) _
      hreads) ?_)
  rintro owner _ parent next hafter ⟨hcovers, rfl⟩ hparent hholder
  have hdecls := hafter.later.decls
  have hsettled := hcovers.settled
  replace hcovers : next.Covers (next.decls.statement (.event id)).shape.targets
      (next.decls.statement (.event id)).shape.slots := by rwa [hdecls]
  have hstack' := hafter.stack.trans (hstack.trans htop)
  obtain ⟨hfound, hmissing⟩ := find?_spec (next.defs.type owner).events .event
    (fun other => (next.defs.event other).name == (now.decls.event id).name)
    hparent hholder rfl (fun _ => rfl) fun other hother => by
      have hmem : Definition.event other ∈ next.defs.members (.type owner) .event :=
        List.mem_map_of_mem hother
      have hrecord := Definitions.record?_event (hafter.sound.held _ _ _ hmem)
      simp [Matches, hrecord, hdecls, Declarations.statement, EventDef.record,
        Declaration.kind]
  refine LeadsTo.world (leads_findOrCreate hafter.sound hstack' hasked hcovers hfound hmissing ?_)
  intro hmissing hwritable hpolicy
  have howner := hafter.sound.has_answer hholder
  obtain ⟨token, hadds⟩ := Definitions.addEvent_adds howner
  refine leads_create hafter.sound hstack' hasked hmissing hwritable hpolicy hparent hholder rfl ?_
    hcovers hadds (.addEvent howner ⟨rfl, rfl, rfl, rfl⟩)
  constructor <;> simp [hdecls, Declarations.statement, EventDef.record, Shape.relink,
    Shape.targets, ownerIn, Declaration.kind, hsettled, presetFlags]

theorem leads_locateType {id : DeclId .type} (htop : stack = (.type id, none) :: rest)
    (hasked : asked (.type id)) :
    LeadsTo asked bound now rest (search.locateType id) fun located next =>
      next.Located rest (.type id) (.type located.1) located.2 := by
  have hbase : rest <:+ now.stack := hstack ▸ htop ▸ List.suffix_cons _ _
  refine LeadsTo.world ?_
  -- A nested type is looked for in the type around it, any other in its module.
  cases houter : now.decls.outer? id with
  | some outer =>
      have hparent : now.decls.parent? (.type id) = some (.type outer) := by
        simp [Declarations.parent?, houter]
      refine Leads.andThen hsound (leads_type hfinds hsound hstack
        (hclosed.parent _ _ hasked hparent)) hbase fun owner next hafter hholder => ?_
      exact leads_locateWithinType hafter.sound (hafter.stack.trans (hstack.trans htop)) hasked
        (by rwa [hafter.later.decls]) hholder
  | none =>
      dsimp only
      cases hmodule : now.decls.moduleOf? id with
      | none =>
          -- A type that is neither in a type nor in a module has no place.
          have hparent : now.decls.parent? (.type id) = none := by
            simp [Declarations.parent?, houter, hmodule]
          exact fun _ => ⟨now, rfl, hbase, .refl, fun _ =>
            .detached (hstack.trans htop) (by simp [Declaration.kind]) hparent⟩
      | some module =>
          have hparent : now.decls.parent? (.type id) = some (.module module) := by
            simp [Declarations.parent?, houter, hmodule]
          refine Leads.andThen hsound (leads_module hfinds hsound hstack
            (hclosed.parent _ _ hasked hparent)) hbase fun found next hafter hholder => ?_
          exact leads_locateWithinModule hafter.sound (hafter.stack.trans (hstack.trans htop)) hasked
            (by rwa [hafter.later.decls]) (by rwa [hafter.later.decls]) hholder

theorem leads_locate (htop : stack = (declaration, none) :: rest) (hasked : asked declaration) :
    LeadsTo asked bound now rest (search.locate declaration) fun located next =>
      next.Located rest declaration located.1 located.2 := by
  have hdecls (next : Moment) (hrun : Run asked {} now next) : next.decls = now.decls :=
    (hrun.later hsound).decls
  have hdone {made : Bool} {found : Definition} (next : Moment)
      (hlocated : next.Located rest declaration found made) :
      LeadsTo asked bound next rest (pure (found, made)) fun located next =>
        next.Located rest declaration located.1 located.2 :=
    fun _ => ⟨next, rfl, .refl, hlocated⟩
  cases declaration with
  | module id =>
      exact LeadsTo.bind (leads_locateModule hsound (hstack.trans htop) hasked) hdecls
        fun _ next _ hlocated => hdone next hlocated
  | type id =>
      exact LeadsTo.bind (leads_locateType hfinds hsound hstack hclosed htop hasked) hdecls
        fun _ next _ hlocated => hdone next hlocated
  | field id =>
      exact LeadsTo.bind (leads_locateField hfinds hsound hstack hclosed htop hasked) hdecls
        fun _ next _ hlocated => hdone next hlocated
  | method id =>
      exact LeadsTo.bind (leads_locateMethod hfinds hsound hstack hclosed htop hasked) hdecls
        fun _ next _ hlocated => hdone next hlocated
  | property id =>
      exact LeadsTo.bind (leads_locateProperty hfinds hsound hstack hclosed htop hasked) hdecls
        fun _ next _ hlocated => hdone next hlocated
  | event id =>
      exact LeadsTo.bind (leads_locateEvent hfinds hsound hstack hclosed htop hasked) hdecls
        fun _ next _ hlocated => hdone next hlocated

end Locate

end Moment

end Graft
