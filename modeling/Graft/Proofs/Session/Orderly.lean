import Graft.Proofs.Declaration.Naming
import Graft.Proofs.Session.Holding

/-!
# Orderly sessions

Where the graph is well-formed and no two declarations are for the same thing, a session is orderly:
every answer is in the list of the answer for the declaration around it, under the declared name,
and what has been confirmed holds (`Orderly`). Different declarations then stand for different
definitions (`Orderly.injective`), and that is why a step taken for one of them spoils nothing that
was confirmed about another (`Step.orderly`).
-/

namespace Graft

/-- Whether two declarations are for the same thing: in the same scope, of the same kind and with
the same name, and for methods with the same parameters. -/
structure World.Alike (world : World) (left right : Declaration) : Prop where
  kind : left.kind = right.kind
  parent : world.decls.parent? left = world.decls.parent? right
  name : (world.decls.statement left).name = (world.decls.statement right).name
  namespaceName :
    (world.decls.statement left).namespaceName = (world.decls.statement right).namespaceName
  overload : left.kind = .method → (world.decls.statement left).shape.Overloads world.typeNames
    (world.decls.statement right).shape

/-- A codec that reads well-formed modules, each under the name that it is asked for. -/
def Codec.Faithful (codec : Codec) : Prop :=
  ∀ name bytes (defs defs' : Definitions) module, defs.WellFormed →
    codec.decode name bytes defs = .ok (module, defs') →
    defs'.WellFormed ∧ (defs'.module module).name = name

/-- Whether a source hands out well-formed modules, each under its own name. -/
def Source.Faithful (defs : Definitions) : Source → Prop
  | .memory modules _ => ∀ name module, modules.get? name = some module →
      (defs.module module).name = name
  | .streamed _ codec => codec.Faithful

/-- What a faithful source hands out. -/
theorem Task.load_faithful {source : SourceId} {name : String} {world world' : World}
    {module : DefId .module} (hfaithful : (world.source source).Faithful world.defs)
    (hwell : world.defs.WellFormed)
    (hload : (Task.load source name).on world = (.ok module, world')) :
    world'.defs.WellFormed ∧ (world'.defs.module module).name = name := by
  cases hsource : world.source source with
  | memory modules saves =>
      rw [hsource] at hfaithful
      rw [Task.load_memory hsource] at hload
      cases hmodule : modules.get? name with
      | none => simp [hmodule] at hload
      | some found =>
          simp only [hmodule, Option.elim_some, Prod.mk.injEq, Except.ok.injEq] at hload
          obtain ⟨rfl, rfl⟩ := hload
          exact ⟨hwell, hfaithful name found hmodule⟩
  | streamed store codec =>
      rw [hsource] at hfaithful
      obtain ⟨bytes, defs, hdecode, rfl⟩ := Task.load_streamed hsource hload
      exact hfaithful name bytes world.defs defs module hwell hdecode

theorem Source.Faithful.grows {defs defs' : Definitions} {source : Source}
    (h : source.Faithful defs) (hsound : source.Sound defs) (hgrows : defs.Grows defs') :
    source.Faithful defs' := by
  cases source with
  | memory modules saves =>
      intro name module hmodule
      rw [hgrows.module_name (hsound name module hmodule)]
      exact h name module hmodule
  | streamed store codec => exact h

theorem Source.faithful_memory {defs : Definitions} {modules : Dictionary String (DefId .module)}
    {saves : Dictionary String Nat}
    (h : ∀ entry ∈ modules.entries, (defs.module entry.2).name = entry.1) :
    (Source.memory modules saves).Faithful defs :=
  fun _ _ hmodule => h _ (Dictionary.mem_of_get? hmodule)

/-- Whether declarations can be resolved in an orderly way: the graph and the source are
well-formed, each of the declarations is alive, belongs to a module and refers to types that have
been made, and no two of them are for the same thing. -/
structure World.Prepared (world : World) (source : SourceId) (asked : Declaration → Prop) :
    Prop where
  wellFormed : world.defs.WellFormed
  sound : (world.source source).Sound world.defs
  faithful : (world.source source).Faithful world.defs
  living : ∀ declaration, asked declaration → world.decls.has declaration = true
  moored : ∀ id, asked (.type id) → ∃ module, world.decls.moduleOf? id = some module
  known : ∀ declaration, asked declaration →
    world.defs.Knows (world.decls.statement declaration).targets
  apart : ∀ left right, asked left → asked right → world.Alike left right → left = right

theorem World.Prepared.knows_shape {world : World} {source : SourceId}
    {asked : Declaration → Prop} (h : world.Prepared source asked) {declaration : Declaration}
    (hasked : asked declaration) : world.defs.Knows (world.decls.statement declaration).shape.targets :=
  fun id hmem => h.known declaration hasked id (by simp [Statement.targets, hmem])

namespace Moment

/-- Whether a definition is where its declaration says, and has the name that it gives. -/
inductive Placed (now : Moment) : Declaration → Definition → Prop where
  | module {id : DeclId .module} {found : DefId .module}
      (hmodule : now.session.modules.get? (now.decls.module id).name = some found) :
      Placed now (.module id) (.module found)
  | member {declaration parent : Declaration} {definition holder : Definition}
      (hparent : now.decls.parent? declaration = some parent)
      (hholder : now.answer parent = some holder)
      (hmem : definition ∈ now.defs.members holder declaration.kind)
      (hmatches : now.Matches declaration definition) : Placed now declaration definition

/-- Whether a session is in order: every answer is in its place, and all that was confirmed holds.
-/
structure Orderly (asked : Declaration → Prop) (start : World) (now : Moment) : Prop where
  sound : now.Sound
  wellFormed : now.defs.WellFormed
  faithful : (now.world.source now.session.source).Faithful now.defs
  decls : now.decls = start.decls
  grows : start.defs.Grows now.defs
  modules : ∀ name module, now.session.modules.get? name = some module →
    (now.defs.module module).name = name
  asked : ∀ declaration definition, now.answer declaration = some definition → asked declaration
  placed : ∀ declaration definition, now.answer declaration = some definition →
    now.Placed declaration definition
  confirmed : ∀ declaration detail, (declaration, detail) ∈ now.confirmed →
    detail ∈ now.decls.details declaration →
    ∃ definition, now.answer declaration = some definition ∧
      now.Holds declaration definition detail

variable {asked : Declaration → Prop} {mode : Mode} {start : World} {source : SourceId}
  {now next : Moment} {declaration other : Declaration} {definition : Definition} {detail : Detail}
  {rest : InFlight} {targets : List Target}

theorem Found.placed (h : now.Found declaration definition) : now.Placed declaration definition := by
  cases h with
  | module hmodule => exact .module hmodule
  | member hparent hholder hkind hmembers hmatches =>
      exact .member hparent hholder (hmembers ▸ List.mem_append_right _ List.mem_cons_self) hmatches

/-- Where nothing but the answers changes, and they are only added to, a name still fits. -/
theorem Matches.mono (h : now.Matches declaration definition) (hstate : next.state = now.state)
    (hanswers : now.answer.Extends next.answer) : next.Matches declaration definition :=
  (completes_of_extends hstate hanswers).matches h

theorem Placed.mono (h : now.Placed declaration definition) (hstate : next.state = now.state)
    (hanswers : now.answer.Extends next.answer) : next.Placed declaration definition := by
  cases h with
  | module hmodule => exact .module (by rwa [Moment.session, decls, hstate])
  | member hparent hholder hmem hmatches =>
      refine .member (by rwa [decls, hstate]) (hanswers _ _ hholder) (by rwa [defs, hstate])
        (hmatches.mono hstate hanswers)

/-! ## Names -/

section Orderly

variable (h : now.Orderly asked start)

include h

/-- The definition around a definition that is in its place is the one that it names itself. -/
theorem Orderly.liesIn (hanswer : now.answer declaration = some definition)
    (hkind : declaration.kind ≠ .module) : ∃ parent holder record,
      now.decls.parent? declaration = some parent ∧ now.answer parent = some holder ∧
      definition ∈ now.defs.members holder declaration.kind ∧
      now.defs.record? definition = some record ∧ record.LiesIn holder := by
  cases h.placed _ _ hanswer with
  | module => exact absurd rfl hkind
  | member hparent hholder hmem hmatches =>
      obtain ⟨record, hrecord, hlies⟩ := h.wellFormed.linked _ _ _ hmem
      exact ⟨_, _, record, hparent, hholder, hmem, hrecord, hlies⟩

/-- A declared type is nested as its definition is, and they have the same name. -/
theorem Orderly.nested {id : DeclId .type} {type : DefId .type}
    (hanswer : now.answer (.type id) = some (.type type)) :
    (now.defs.type type).name = (now.decls.type id).name ∧
    ((∃ outer owner, now.decls.outer? id = some outer ∧ now.defs.outer? type = some owner ∧
        now.answer (.type outer) = some (.type owner)) ∨
      (now.decls.outer? id = none ∧ now.defs.outer? type = none ∧
        (now.defs.type type).namespaceName =
          (now.decls.statement (.type id)).namespaceName)) := by
  cases h.placed _ _ hanswer with
  | @member _ parent _ holder hparent hholder hmem hmatches =>
      obtain ⟨record, hrecord, hlies⟩ := h.wellFormed.linked _ _ _ hmem
      obtain ⟨_, hrecord', hname, hspace, -⟩ := hmatches
      cases hrecord.symm.trans hrecord'
      have houter : now.defs.outer? type =
          record.nature.owner.filter fun owner => now.defs.has (.type owner) := by
        rw [Definitions.outer?_eq, hrecord, Option.bind_some]
      rw [Definitions.record?_type (h.sound.has_answer hanswer)] at hrecord
      cases hrecord
      have hkind := h.sound.kinds _ _ hholder
      refine ⟨hname, ?_⟩
      cases hdeclared : now.decls.outer? id with
      | some outer =>
          simp only [Declarations.parent?, hdeclared, Option.some.injEq] at hparent
          subst hparent
          cases holder with
          | type owner =>
              refine .inl ⟨outer, owner, rfl, ?_, hholder⟩
              rw [houter, hlies, Option.filter_some, if_pos (h.sound.has_answer hholder)]
          | module | field | method | property | event => cases hkind
      | none =>
          have hplace : now.decls.parent? (.type id) =
              (now.decls.moduleOf? id).map Declaration.module := by
            simp only [Declarations.parent?, hdeclared]
          obtain ⟨module, -, rfl⟩ := Option.map_eq_some_iff.mp (hplace.symm.trans hparent)
          cases holder with
          | module =>
              exact .inr ⟨rfl, by rw [houter, hlies.1, Option.filter_none], hspace _ hparent rfl⟩
          | type | field | method | property | event => cases hkind

variable (hprepared : start.Prepared source asked)

include hprepared

/-- The definition of a declared type has the full name that is declared. -/
theorem Orderly.typeName_eq {id : DeclId .type} {type : DefId .type}
    (hanswer : now.answer (.type id) = some (.type type)) :
    now.defs.typeName type = now.decls.typeName id := by
  have hhas := h.sound.has_answer hanswer
  obtain ⟨depth, -, hnests⟩ := h.wellFormed.nested type hhas
  induction hnests generalizing id with
  | top houter =>
      obtain ⟨hname, ⟨_, _, -, houter', -⟩ | ⟨hdeclared, -, hspace⟩⟩ := h.nested hanswer
      · simp [houter] at houter'
      · obtain ⟨module, hmodule⟩ := hprepared.moored id (h.asked _ _ hanswer)
        rw [h.wellFormed.typeName_top hhas houter, hname, hspace,
          Declarations.typeName_top (h.decls ▸ hmodule) hdeclared]
  | inside houter _ ih =>
      obtain ⟨hname, ⟨_, _, hdeclared, houter', hholder⟩ | ⟨-, houter', -⟩⟩ := h.nested hanswer
      · cases houter.symm.trans houter'
        obtain ⟨module, hmodule⟩ := hprepared.moored id (h.asked _ _ hanswer)
        rw [h.wellFormed.typeName_nested hhas houter, hname,
          Declarations.typeName_nested (h.decls ▸ hmodule) hdeclared,
          ih hholder (h.sound.has_answer hholder)]
      · simp [houter] at houter'

/-- What is put in for a declared reference has the name that is declared. -/
theorem Orderly.fills (hsettles : now.answer.SettlesAll targets) (hknows : start.defs.Knows targets) :
    now.world.typeNames.Fills start.typeNames now.answer targets := by
  intro target htarget
  have hdecls : now.world.decls = start.decls := h.decls
  match target with
  | .definition (.type id) =>
      have hissued := hknows id htarget
      have hhas : now.defs.has (.type id) = start.defs.has (.type id) :=
        Bool.eq_iff_iff.mpr ⟨h.grows.has_of_issued hissued, h.grows.has⟩
      replace hhas : now.world.defs.types.has id.index = start.defs.types.has id.index := hhas
      change now.world.typeNames.definition id = start.typeNames.definition id
      simp only [World.typeNames, hhas]
      split
      · exact congrArg some (h.grows.typeName_eq hprepared.wellFormed h.wellFormed ‹_›)
      · rfl
  | .declaration (.type id) =>
      obtain ⟨found, hanswer, hkind⟩ := hsettles _ htarget
      cases found with
      | type found =>
          refine ⟨found, hanswer, ?_⟩
          have hhas : now.world.defs.types.has found.index = true := h.sound.has_answer hanswer
          have hliving : start.decls.types.has id.index = true :=
            hprepared.living _ (h.asked _ _ hanswer)
          have hname := h.typeName_eq hprepared hanswer
          simp only [World.typeNames, hhas, hliving, if_true]
          exact congrArg some (hname.trans (by rw [h.decls]))
      | module | field | method | property | event => cases hkind
  | .definition (.module _) | .definition (.field _) | .definition (.method _)
  | .definition (.property _) | .definition (.event _) | .declaration (.module _)
  | .declaration (.field _) | .declaration (.method _) | .declaration (.property _)
  | .declaration (.event _) | .unknown => trivial

/-! ## Different declarations -/

/-- Declarations of the same kind inside the same one stand for different definitions. -/
theorem Orderly.eq_of_parent {parent : Declaration} (hkind : declaration.kind = other.kind)
    (hparent : now.decls.parent? declaration = some parent)
    (hparent' : now.decls.parent? other = some parent)
    (hmatches : now.Matches declaration definition) (hmatches' : now.Matches other definition)
    (hasked : asked declaration) (hasked' : asked other) : declaration = other := by
  obtain ⟨record, hrecord, hname, hspace, hoverload⟩ := hmatches
  obtain ⟨_, hrecord', hname', hspace', hoverload'⟩ := hmatches'
  cases hrecord.symm.trans hrecord'
  rw [h.decls] at hparent hparent' hname hname' hspace hspace'
  refine hprepared.apart declaration other hasked hasked'
    ⟨hkind, hparent.trans hparent'.symm, hname.symm.trans hname', ?_, fun hmethod => ?_⟩
  · obtain htype | ⟨hmodule, -⟩ := Declarations.kind_of_parent? hparent
    · rw [Declarations.namespaceName_of_parent? hparent htype,
        Declarations.namespaceName_of_parent? hparent' htype]
    · exact (hspace parent hparent hmodule).symm.trans (hspace' parent hparent' hmodule)
  · obtain ⟨_, hsame, hsettles, hsignature⟩ := hoverload hmethod
    obtain ⟨_, hsame', hsettles', hsignature'⟩ := hoverload' (hkind ▸ hmethod)
    cases hrecord.symm.trans hsame
    cases hrecord.symm.trans hsame'
    rw [h.decls] at hsettles hsignature hsettles' hsignature'
    exact Shape.overloads_fill hsignature hsignature'
      (h.fills hprepared hsettles (hprepared.knows_shape hasked))
      (h.fills hprepared hsettles' (hprepared.knows_shape hasked'))

/-- Different modules stand for different definitions. -/
theorem Orderly.module_injective {module : DefId .module}
    (hanswer : now.answer declaration = some (.module module))
    (hanswer' : now.answer other = some (.module module)) : declaration = other := by
  have hnamed {declaration : Declaration}
      (hanswer : now.answer declaration = some (.module module)) :
      ∃ id, declaration = .module id ∧
        (now.defs.module module).name = (now.decls.module id).name := by
    have hkind := h.sound.kinds _ _ hanswer
    cases h.placed _ _ hanswer with
    | module hmodule => exact ⟨_, rfl, h.modules _ _ hmodule⟩
    | member hparent =>
        cases declaration with
        | module => cases hparent
        | type | field | method | property | event => cases hkind
  obtain ⟨id, rfl, hname⟩ := hnamed hanswer
  obtain ⟨id', rfl, hname'⟩ := hnamed hanswer'
  rw [h.decls] at hname hname'
  exact hprepared.apart _ _ (h.asked _ _ hanswer) (h.asked _ _ hanswer')
    ⟨rfl, rfl, hname.symm.trans hname', rfl, nofun⟩

/-- What is inside the same definition for different declarations is different. -/
theorem Orderly.eq_of_holder (hanswer : now.answer declaration = some definition)
    (hanswer' : now.answer other = some definition) (hmodule : declaration.kind ≠ .module)
    (htypes : ∀ parent parent' owner, now.answer parent = some (.type owner) →
      now.answer parent' = some (.type owner) →
      definition ∈ now.defs.members (.type owner) declaration.kind → parent = parent') :
    declaration = other := by
  have hkind : declaration.kind = other.kind :=
    (h.sound.kinds _ _ hanswer).symm.trans (h.sound.kinds _ _ hanswer')
  cases h.placed _ _ hanswer with
  | module => exact absurd rfl hmodule
  | @member _ parent _ holder hparent hholder hmem hmatches =>
      cases h.placed _ _ hanswer' with
      | module => exact absurd hkind hmodule
      | @member _ parent' _ holder' hparent' hholder' hmem' hmatches' =>
          cases h.wellFormed.holder_eq hmem hmem'
          have hsame : parent = parent' := by
            cases holder with
            | module => exact h.module_injective hprepared hholder hholder'
            | type => exact htypes _ _ _ hholder hholder' hmem
            | field | method | property | event => cases hmem
          subst hsame
          exact h.eq_of_parent hprepared hkind hparent hparent' hmatches hmatches'
            (h.asked _ _ hanswer) (h.asked _ _ hanswer')

/-- Different types stand for different definitions: by induction on how deep they are nested. -/
theorem Orderly.type_injective {type : DefId .type}
    (hanswer : now.answer declaration = some (.type type))
    (hanswer' : now.answer other = some (.type type)) : declaration = other := by
  have hhas := h.sound.has_answer hanswer
  obtain ⟨depth, -, hnests⟩ := h.wellFormed.nested type hhas
  have hkind : declaration.kind ≠ .module := by simp [← h.sound.kinds _ _ hanswer, Definition.kind]
  induction hnests generalizing declaration other with
  | top houter =>
      refine h.eq_of_holder hprepared hanswer hanswer' hkind ?_
      intro parent parent' owner _ _ hmem
      simp [h.wellFormed.outer?_eq_some hmem] at houter
  | inside houter _ ih =>
      refine h.eq_of_holder hprepared hanswer hanswer' hkind ?_
      intro parent parent' owner hparent hparent' hmem
      cases houter.symm.trans (h.wellFormed.outer?_eq_some hmem)
      refine ih hparent hparent' (h.sound.has_answer hparent) ?_
      simp [← h.sound.kinds _ _ hparent, Definition.kind]

/-- Different declarations stand for different definitions. -/
theorem Orderly.injective (hanswer : now.answer declaration = some definition)
    (hanswer' : now.answer other = some definition) : declaration = other := by
  by_cases hmodule : declaration.kind = .module
  · have hkind := h.sound.kinds _ _ hanswer
    cases definition with
    | module => exact h.module_injective hprepared hanswer hanswer'
    | type | field | method | property | event => simp [hmodule] at hkind; cases hkind
  · exact h.eq_of_holder hprepared hanswer hanswer' hmodule
      fun _ _ _ hparent hparent' _ => h.type_injective hprepared hparent hparent'

end Orderly

/-! ## Every step -/

/-- What a detail says about a declaration is part of what the declaration states. -/
theorem named_subset {decls : Declarations} (hdetail : detail ∈ decls.details declaration) :
    (decls.statement declaration).named detail ⊆ (decls.statement declaration).targets := by
  intro target hmem
  cases detail with
  | base => simp [Statement.targets, show target ∈ Option.elim _ _ _ from hmem]
  | interface type =>
      have hdeclared : type ∈ (decls.statement declaration).interfaces := by
        cases declaration <;> simp [Declarations.details] at hdetail
        exact hdetail
      have hmem : target ∈ type.targets := hmem
      simp only [Statement.targets, List.mem_append, List.mem_flatMap]
      exact .inl (.inl (.inr ⟨type, hdeclared, hmem⟩))
  | signature | overload | result =>
      simp [Statement.targets, show target ∈ Shape.targets _ from hmem]
  | flags | generics | override | accessor => cases hmem

theorem Orderly.knows (h : now.Orderly asked start) (hprepared : start.Prepared source asked)
    (hasked : asked declaration) (hdetail : detail ∈ now.decls.details declaration) :
    now.defs.Knows ((now.decls.statement declaration).named detail) := by
  rw [h.decls] at hdetail ⊢
  intro id hmem
  exact h.grows.issued _ (hprepared.known _ hasked id (named_subset hdetail hmem))

section Onward

variable (h : now.Orderly asked start) (hprepared : start.Prepared source asked)

include h hprepared

/-- What holds of an answer goes on to hold as long as its details stay. -/
theorem Orderly.holds_later (hlater : now.Later next) (hwell : next.defs.WellFormed)
    (hanswers : now.answer.Extends next.answer)
    (hkept : now.defs.KeepsDetails next.defs)
    (hanswer : now.answer declaration = some definition)
    (hdetail : detail ∈ now.decls.details declaration)
    (hholds : now.Holds declaration definition detail) :
    next.Holds declaration definition detail := by
  refine hholds.later hlater hanswers h.sound h.wellFormed hwell
    (h.knows hprepared (h.asked _ _ hanswer) hdetail) ?_
  intro record record' hrecord hrecord'
  rw [hkept.details_eq hrecord hrecord']
  exact detail.survives_self _

omit hprepared in
/-- What is in its place stays there. -/
theorem Orderly.placed_later (hlater : now.Later next) (hanswers : now.answer.Extends next.answer)
    (hholds : ∀ declaration definition detail, now.answer declaration = some definition →
      detail ∈ now.decls.details declaration → now.Holds declaration definition detail →
      next.Holds declaration definition detail)
    (hanswer : now.answer declaration = some definition) : next.Placed declaration definition := by
  have hdecls : next.decls = now.decls := hlater.decls
  cases h.placed _ _ hanswer with
  | module hmodule => exact .module (hlater.modules _ _ (hdecls ▸ hmodule))
  | member hparent hholder hmem hmatches =>
      obtain ⟨record, hrecord, hname, hspace, hoverload⟩ := hmatches
      obtain ⟨record', hrecord', hnature, -⟩ := hlater.grows.kept _ _ hrecord
      refine .member (hdecls ▸ hparent) (hanswers _ _ hholder) (hlater.grows.mem_members hmem)
        ⟨record', hrecord', ?_, ?_, fun hmethod => hholds _ _ _ hanswer ?_ (hoverload hmethod)⟩
      · rw [hnature, hdecls, hname]
      · rw [hnature, hdecls]
        exact hspace
      · cases declaration with
        | method => simp [Declarations.details]
        | module | type | field | property | event => cases hmethod

omit hprepared in
/-- What keeps a session in order: a graph that stays well-formed, new answers in their places, and
nothing that was confirmed spoiled. -/
theorem Orderly.onward (hlater : now.Later next) (hsound : next.Sound)
    (hwell : next.defs.WellFormed) (hanswers : now.answer.Extends next.answer)
    (hmodules : ∀ name module, next.session.modules.get? name = some module →
      now.session.modules.get? name = some module ∨ (next.defs.module module).name = name)
    (hnew : ∀ declaration definition, next.answer declaration = some definition →
      now.answer declaration = some definition ∨
        asked declaration ∧ next.Placed declaration definition)
    (hholds : ∀ declaration definition detail, now.answer declaration = some definition →
      detail ∈ now.decls.details declaration → now.Holds declaration definition detail →
      next.Holds declaration definition detail)
    (hconfirmed : ∀ declaration detail, (declaration, detail) ∈ next.confirmed →
      (declaration, detail) ∈ now.confirmed ∨ ∃ definition,
        next.answer declaration = some definition ∧ next.Holds declaration definition detail) :
    next.Orderly asked start where
  sound := hsound
  wellFormed := hwell
  faithful := by
    have hsource : next.world.source next.session.source = now.world.source now.session.source := by
      rw [hlater.source, World.source, hlater.sources, World.source]
    rw [hsource]
    exact h.faithful.grows h.sound.source hlater.grows
  decls := hlater.decls.trans h.decls
  grows := h.grows.trans hlater.grows
  modules name module hmodule := by
    obtain hold | hname := hmodules name module hmodule
    · rw [hlater.grows.module_name (h.sound.modules _ _ hold), h.modules _ _ hold]
    · exact hname
  asked declaration definition hanswer :=
    (hnew _ _ hanswer).elim (h.asked _ _) And.left
  placed declaration definition hanswer :=
    (hnew _ _ hanswer).elim (h.placed_later hlater hanswers hholds) And.right
  confirmed declaration detail hmem hdetail := by
    obtain hold | hnew := hconfirmed declaration detail hmem
    · rw [hlater.decls] at hdetail
      obtain ⟨definition, hanswer, hheld⟩ := h.confirmed _ _ hold hdetail
      exact ⟨definition, hanswers _ _ hanswer, hholds _ _ _ hanswer hdetail hheld⟩
    · exact hnew

/-- A step that makes no answers and changes no details keeps a session in order. -/
theorem Orderly.moved (hlater : now.Later next) (hsound : next.Sound)
    (hwell : next.defs.WellFormed) (hanswer : next.answer = now.answer)
    (hmodules : ∀ name module, next.session.modules.get? name = some module →
      now.session.modules.get? name = some module ∨ (next.defs.module module).name = name)
    (hkept : now.defs.KeepsDetails next.defs)
    (hconfirmed : next.confirmed = now.confirmed) : next.Orderly asked start := by
  have hanswers : now.answer.Extends next.answer := hanswer ▸ fun _ _ h => h
  refine h.onward hlater hsound hwell hanswers hmodules (fun _ _ hnew => .inl (hanswer ▸ hnew)) ?_
    fun _ _ hmem => .inl (hconfirmed ▸ hmem)
  intro declaration definition detail
  exact h.holds_later hprepared hlater hwell hanswers hkept

end Onward

/-- What is made for a declaration lies in the definition that it is made in. -/
theorem Renders.liesIn {parent : Declaration} {holder : Definition} {record : Record}
    (hsound : now.Sound) (hparent : now.decls.parent? declaration = some parent)
    (hholder : now.answer parent = some holder) (h : now.Renders declaration holder record) :
    record.LiesIn holder := by
  have hkind := hsound.kinds _ _ hholder
  obtain htype | ⟨hmodule, hdeclared⟩ := Declarations.kind_of_parent? hparent
  · cases holder with
    | type => exact h.owner
    | module | field | method | property | event => simp [htype] at hkind; cases hkind
  · cases holder with
    | module => exact ⟨h.owner, by rw [h.module, if_pos hdeclared]; rfl⟩
    | type | field | method | property | event => simp [hmodule] at hkind; cases hkind

/-- What an amendment writes refers to types that have been made. -/
theorem Orderly.knows_amend (h : now.Orderly asked start)
    (hprepared : start.Prepared source asked) (hasked : asked declaration) {amendment : Amendment}
    (hstated : amendment.Stated now declaration definition) {record : Record}
    (hrecord : now.defs.record? definition = some record) :
    now.defs.Knows (Record.alter (amendment.apply ·) record).named := by
  have hnamed := h.wellFormed.named definition record hrecord
  have hknown : now.defs.Knows (now.decls.statement declaration).targets := by
    rw [h.decls]
    exact (hprepared.known _ hasked).mono h.grows
  have hfilled {declared : TypeRef} (hdeclared : declared.targets ⊆
      (now.decls.statement declaration).targets) (hsettles : now.answer.SettlesAll declared.targets) :
      now.defs.Knows (declared.relink now.fill).targets := by
    rw [TypeRef.targets_relink]
    exact h.sound.knows_fill hsettles fun id hmem => hknown id (hdeclared hmem)
  simp only [Record.named, Definitions.knows_append] at hnamed ⊢
  obtain ⟨⟨hshape, hbase⟩, hinterfaces⟩ := hnamed
  cases amendment with
  | base type =>
      obtain ⟨declared, hdeclared, hsettles, rfl, -⟩ := hstated
      refine ⟨⟨hshape, hfilled (fun target hmem => ?_) hsettles⟩, hinterfaces⟩
      simp [Statement.targets, hdeclared, hmem]
  | interface type =>
      obtain ⟨front, declared, more, hdeclared, hsettles, rfl, -⟩ := hstated
      refine ⟨⟨hshape, hbase⟩, fun id hmem => ?_⟩
      simp only [Record.alter, Amendment.apply, List.flatMap_append, List.mem_append,
        List.flatMap_singleton] at hmem
      obtain hmem | hmem := hmem
      · exact hinterfaces id hmem
      · refine hfilled (fun target hmem => ?_) hsettles id hmem
        simp [Statement.targets, hdeclared, hmem]
  | flags | generics | override | accessor => exact ⟨⟨hshape, hbase⟩, hinterfaces⟩

/-- A step that puts a definition into its place keeps a session in order. -/
theorem Orderly.locate (h : now.Orderly asked start) (hprepared : start.Prepared source asked)
    (hlater : now.Later next) (hsound : next.Sound) (hwell : next.defs.WellFormed)
    (hanswer : ∀ other, next.answer other =
      if other = declaration then some definition else now.answer other)
    (hanswers : now.answer.Extends next.answer)
    (hmodules : ∀ name module, next.session.modules.get? name = some module →
      now.session.modules.get? name = some module ∨ (next.defs.module module).name = name)
    (hkept : now.defs.KeepsDetails next.defs) (hasked : asked declaration)
    (hplaced : next.Placed declaration definition) (hconfirmed : next.confirmed = now.confirmed) :
    next.Orderly asked start := by
  refine h.onward hlater hsound hwell hanswers hmodules (fun other found hnew => ?_) ?_
    fun _ _ hmem => .inl (hconfirmed ▸ hmem)
  · rw [hanswer] at hnew
    split at hnew
    · rename_i heq
      subst heq
      cases hnew
      exact .inr ⟨hasked, hplaced⟩
    · exact .inl hnew
  · intro declaration definition detail
    exact h.holds_later hprepared hlater hwell hanswers hkept

/-- While nothing is given up, every step keeps a session in order. -/
theorem Step.orderly (hstep : Step asked mode now next) (hmode : mode.fails = false)
    (hprepared : start.Prepared source asked) (h : now.Orderly asked start) :
    next.Orderly asked start := by
  have hlater := hstep.later h.sound
  have hsound := hstep.sound h.sound
  have hanswers := hstep.answers hmode h.sound
  cases hstep with
  | @quiet world hits hquiet hslots =>
      have hdefs : world.defs = now.defs := hquiet.defs
      refine h.moved hprepared hlater hsound ?_ rfl (fun _ _ hold => .inl hold) ?_ rfl
      · rw [withState_defs, hdefs]
        exact h.wellFormed
      · rw [withState_defs, hdefs]
        exact .refl _
  | @load id rest name module world hstack hasked hname hnone hload =>
      obtain ⟨hwell, hmodule⟩ := Task.load_faithful h.faithful h.wellFormed hload
      refine h.moved hprepared hlater hsound hwell rfl ?_
        (Task.load_ok h.sound.source h.sound.held hload).1.keepsDetails rfl
      intro other found hfound
      obtain ⟨rfl, rfl⟩ | hfound := Dictionary.of_get?_insert hfound
      · exact .inr hmodule
      · exact .inl hfound
  | enter hasked hmemo hstack hlets =>
      exact h.moved hprepared hlater hsound h.wellFormed (answer_enter hstack)
        (fun _ _ hold => .inl hold) (.refl _) rfl
  | @makeModule id rest name hstack hasked hwritable hname hpolicy hnone hmissing =>
      have hmakes := Definitions.makeModule_makes now.defs { name }
      have hmodule : ((now.defs.makeModule { name }).2.module ⟨now.defs.modules.next⟩).name = name := by
        have hrecord := Definitions.record?_module
          (Definitions.has_iff.mpr ⟨_, hmakes.record_made⟩)
        exact (congrArg (·.nature.name) (Option.some.inj (hmakes.record_made.symm.trans hrecord))).symm
      refine h.locate hprepared hlater hsound (h.wellFormed.makeModule name)
        (h.sound.answer_locate hstack) hanswers ?_ hmakes.keepsDetails hasked (.module ?_) rfl
      · intro other found hfound
        obtain ⟨rfl, rfl⟩ | hfound := Dictionary.of_get?_insert hfound
        · exact .inr hmodule
        · exact .inl hfound
      · simp [hname]
  | @create declaration parent rest holder made record defs hstack hasked hwritable hpolicy hmissing
      hparent hholder hkind hrenders hadds =>
      have hlies := hrenders.liesIn h.sound hparent hholder
      -- All that the new record names was looked up for its declaration, so it is there by now.
      have hnamed : now.defs.Knows record.named := by
        rw [Record.named, hrenders.details, hrenders.shape]
        simp only [Option.elim_none, List.flatMap_nil, List.append_nil]
        rw [Shape.targets_relink]
        refine h.sound.knows_fill hrenders.settled ?_
        rw [h.decls]
        exact (hprepared.knows_shape hasked).mono h.grows
      refine h.locate hprepared hlater hsound
        (hadds.wellFormed hrenders.members (h.sound.has_answer hholder) hlies hnamed h.wellFormed)
        (h.sound.answer_locate hstack) hanswers (fun _ _ hold => .inl hold) hadds.keepsDetails
        hasked ?_ rfl
      refine .member hparent (hanswers _ _ hholder) ?_ ((hrenders.matches hadds).mono rfl hanswers)
      exact (hadds.mem_members hrenders.members).mpr
        (.inr ⟨rfl, hkind.symm, rfl, h.sound.has_answer hholder⟩)
  | locate hstack hasked hpolicy hfound =>
      exact h.locate hprepared hlater hsound h.wellFormed (h.sound.answer_locate hstack) hanswers
        (fun _ _ hold => .inl hold) (.refl _) hasked (hfound.placed.mono rfl hanswers) rfl
  | @confirm declaration definition rest detail hstack hholds =>
      refine h.onward hlater hsound h.wellFormed hanswers (fun _ _ hold => .inl hold)
        (fun _ _ hold => .inl hold) (fun _ _ _ _ _ hheld => hheld.mono rfl hanswers) ?_
      intro other detail' hmem
      rcases List.mem_cons.mp hmem with heq | hmem
      · cases heq
        exact .inr ⟨definition, h.sound.answer_top hstack, hholds.mono rfl hanswers⟩
      · exact .inl hmem
  | @amend declaration definition rest amendment defs hstack hasked hwritable hstated hchanges =>
      have hwell := hchanges.wellFormed (fun _ => rfl) (fun _ => rfl)
        (fun record hrecord => h.knows_amend hprepared hasked hstated hrecord) h.wellFormed
      refine h.onward hlater hsound hwell hanswers (fun _ _ hold => .inl hold)
        (fun _ _ hold => .inl hold) ?_ fun _ _ hmem => .inl hmem
      intro other found detail hanswer hdetail hholds
      have hknows := h.knows hprepared (h.asked _ _ hanswer) hdetail
      -- Only the definition on top is changed, so only details of its own could be lost by that.
      by_cases heq : found = definition
      · subst heq
        cases h.injective hprepared hanswer (h.sound.answer_top hstack)
        exact hholds.amend hstated hchanges (hholds.later hlater hanswers h.sound h.wellFormed hwell
          hknows)
      · refine hholds.later hlater hanswers h.sound h.wellFormed hwell hknows ?_
        intro record record' hrecord hrecord'
        rw [withDefs_defs, hchanges.record?, if_neg heq] at hrecord'
        cases hrecord.symm.trans hrecord'
        exact detail.survives_self _
  | remember hstack hconfirmed =>
      exact h.moved hprepared hlater hsound h.wellFormed (h.sound.answer_remember hstack)
        (fun _ _ hold => .inl hold) (.refl _) rfl
  | abandon hfails => simp [hmode] at hfails
  | @hide id method hidden owner record made defs hhides hasked hwritable hmemo hrecord howner hunused
      hnature hdetails hbody hmembers hadds =>
      obtain ⟨_, holder, _, -, hholder, -, hrecord', hlies⟩ :=
        h.liesIn (answer_of_remembered hmemo) (by simp [Declaration.kind])
      cases hrecord.symm.trans hrecord'
      have hhas : now.defs.has (.type owner) = true := by
        cases holder with
        | module => simp [hlies.1] at howner
        | type outer =>
            cases hlies.symm.trans howner
            exact h.sound.has_answer hholder
        | field | method | property | event => exact hlies.elim
      -- A hidden method has the shape of its original and names nothing else.
      have hnamed : now.defs.Knows made.named := by
        have hknown := h.wellFormed.named _ _ hrecord
        rw [Record.named, Definitions.knows_append, Definitions.knows_append] at hknown
        rw [Record.named, hnature, hdetails]
        simpa using hknown.1.1
      refine h.moved hprepared hlater hsound (hadds.wellFormed hmembers hhas ?_ hnamed h.wellFormed)
        rfl (fun _ _ hold => .inl hold) hadds.keepsDetails rfl
      exact congrArg Nature.owner hnature
  | graft hgrafts hasked hwritable hmemo hchanges =>
      refine h.moved hprepared hlater hsound
        (hchanges.wellFormed (fun _ => rfl) (fun _ => rfl) ?_ h.wellFormed) rfl
        (fun _ _ hold => .inl hold) (hchanges.keepsDetails fun _ => rfl) rfl
      exact fun record hrecord => h.wellFormed.named _ record hrecord

/-- A run in which nothing is given up keeps a session in order. -/
theorem Run.orderly (hrun : Run asked mode now next) (hmode : mode.fails = false)
    (hprepared : start.Prepared source asked) (h : now.Orderly asked start) :
    next.Orderly asked start :=
  hrun.keeps h.sound (fun hstep _ horderly => hstep.orderly hmode hprepared horderly) h

end Moment

end Graft
