import Graft.Proofs.Declaration.Naming
import Graft.Proofs.Definition.Apart
import Graft.Proofs.Definition.WellFormed
import Graft.Proofs.Session.Leads
import Graft.Proofs.Signature.Renaming

/-!
# Sessions in which all types are resolved

Once the modules and types that are asked for have been resolved, it is settled which definition a
member is looked for in, under which name and with which signature (`SessionState.Describes`), and
with that which definition it stands for unless one has to be made for it (`SessionState.finds?`).
`Rooted` gathers what makes this independent of the order in which members are resolved.
-/

namespace Graft

/-! ## Names of types -/

namespace Definitions

variable {defs defs' : Definitions}

/-- As long as no type is made the same types exist. -/
theorem Grows.has_type_eq (h : defs.Grows defs') (hnext : defs'.types.next = defs.types.next)
    (id : DefId .type) : defs'.has (.type id) = defs.has (.type id) := by
  refine Bool.eq_iff_iff.mpr ⟨fun hhas => h.has_of_issued ?_ hhas, h.has⟩
  have hissued : id.index < defs'.types.next := issued_of_has hhas
  change id.index < defs.types.next
  rwa [← hnext]

/-- As long as no type is made types keep their names. -/
theorem Grows.typeName_of_next (h : defs.Grows defs') (hnext : defs'.types.next = defs.types.next)
    {id : DefId .type} (hhas : defs.has (.type id) = true) :
    defs'.typeName id = defs.typeName id := by
  rw [typeName, typeName, hnext]
  generalize defs.types.next = depth
  induction depth generalizing id with
  | zero => exact congrArg Nature.name (h.nature_eq (record?_type hhas) (record?_type (h.has hhas)))
  | succ depth ih =>
      have hrecord := record?_type hhas
      have hrecord' := record?_type (h.has hhas)
      have hnature := h.nature_eq hrecord hrecord'
      have hname : (defs'.type id).name = (defs.type id).name := congrArg Nature.name hnature
      have hspace : (defs'.type id).namespaceName = (defs.type id).namespaceName :=
        congrArg Nature.namespaceName hnature
      have houter : defs'.outer? id = defs.outer? id := by
        simp only [Definitions.outer?_eq, hrecord, hrecord', Option.bind_some, hnature,
          h.has_type_eq hnext]
      rw [typeNameWithin, typeNameWithin, houter, hname, hspace]
      cases hlinked : defs.outer? id with
      | none => rfl
      | some outer => simp only [ih (has_of_outer? hlinked)]

end Definitions

/-- Whether a target has been made at some time, if it is a definition. -/
def Target.IssuedIn (defs : Definitions) : Target → Prop
  | .definition found => defs.Issued found
  | .declaration _ | .unknown => True

instance (defs : Definitions) : DecidablePred (Target.IssuedIn defs)
  | .definition found => inferInstanceAs (Decidable (found.index < defs.next found.kind))
  | .declaration _ | .unknown => .isTrue trivial

/-! ## What members are looked for -/

instance Shape.decidableOverloads (names : TypeNames) :
    (left right : Shape) → Decidable (left.Overloads names right)
  | .method left, .method right => inferInstanceAs (Decidable (left.same names .overload right = true))
  | .none, _ | .field _, _ | .property _, _ | .event _, _ => .isFalse id
  | .method _, .none | .method _, .field _ | .method _, .property _ | .method _, .event _ =>
    .isFalse id

theorem Shape.targets_ofType (shape : Shape) : ∀ target ∈ shape.targets, target.OfType := by
  cases shape with
  | none => simp [targets]
  | field signature => exact signature.targets_ofType
  | method signature => exact signature.targets_ofType
  | property signature =>
      simpa only [targets, PropertySig.targets, List.forall_mem_append] using
        ⟨signature.type.targets_ofType, TypeSig.targetsList_ofType signature.params⟩
  | event type => exact type.targets_ofType

namespace SessionState

variable (state : SessionState)

/-- The definition that a member is looked for in: what the type around its declaration was resolved
to. -/
def holder? (declaration : Declaration) : Option Definition :=
  (state.world.decls.parent? declaration).bind state.session.resolved.get?

/-- The declared signature of a member, with what types were resolved to put in. -/
def shape (declaration : Declaration) : Shape :=
  (state.world.decls.statement declaration).shape.relink (.fill state.session.resolved.get?)

/-- Whether something has the name that a member is looked for under, and for methods the
parameters. -/
def Describes (declaration : Declaration) (nature : Nature) : Prop :=
  nature.name = (state.world.decls.statement declaration).name ∧
    (declaration.kind = .method →
      nature.shape.Overloads state.world.typeNames (state.shape declaration))

instance (declaration : Declaration) : DecidablePred (state.Describes declaration) :=
  fun nature => inferInstanceAs (Decidable (nature.name = _ ∧ (_ → nature.shape.Overloads _ _)))

/-- Whether a definition is one that a member could stand for. -/
def describes (declaration : Declaration) (definition : Definition) : Bool :=
  (state.world.defs.record? definition).any fun record => state.Describes declaration record.nature

/-- What a member stands for: what it was resolved to, or else the first definition it could stand
for. If there is none, one has to be made. -/
def finds? (declaration : Declaration) : Option Definition :=
  (state.session.resolved.get? declaration).or <|
    (state.holder? declaration).bind fun holder =>
      (state.world.defs.members holder declaration.kind).find? (state.describes declaration)

variable {state : SessionState} {declaration : Declaration} {definition : Definition}

/-- What a member finds, if it was not resolved before, is listed where the member is looked for,
and is as the member describes it. -/
theorem exists_of_finds? (h : state.finds? declaration = some definition)
    (hmemo : state.session.resolved.get? declaration = none) :
    ∃ holder record, state.holder? declaration = some holder ∧
      definition ∈ state.world.defs.members holder declaration.kind ∧
      state.world.defs.record? definition = some record ∧
      state.Describes declaration record.nature := by
  rw [finds?, hmemo, Option.none_or, Option.bind_eq_some_iff] at h
  obtain ⟨holder, hholder, hfind⟩ := h
  have hdescribes := List.find?_some hfind
  rw [describes, Option.any_eq_true] at hdescribes
  obtain ⟨record, hrecord, hdescribes⟩ := hdescribes
  exact ⟨holder, record, hholder, List.mem_of_find?_eq_some hfind, hrecord,
    of_decide_eq_true hdescribes⟩

variable (state)

/-- What is made for a member. -/
def nature (declaration : Declaration) (holder : Definition) (token : Option Token) : Nature where
  name := (state.world.decls.statement declaration).name
  namespaceName := (state.world.decls.statement declaration).namespaceName
  shape := state.shape declaration
  token
  owner := Moment.ownerIn holder

/-- Whether all modules and types among some declarations have been resolved. Everything that is
referred to has been declared or made. -/
structure Scoped (asked : Declaration → Prop) : Prop where
  sound : Moment.Sound { state }
  closed : state.world.decls.Closed asked
  living : ∀ declaration, asked declaration → state.world.decls.has declaration = true
  referred : ∀ declaration other, asked declaration →
    .declaration other ∈ (state.world.decls.statement declaration).targets →
    state.world.decls.has other = true
  scopes : ∀ declaration, asked declaration → declaration.kind.isScope = true →
    ∃ definition, state.session.resolved.get? declaration = some definition
  issued : ∀ declaration target, asked declaration →
    target ∈ (state.world.decls.statement declaration).targets → target.IssuedIn state.world.defs
  linked : ∀ definition record target, state.world.defs.record? definition = some record →
    target ∈ record.details.targets → target.IssuedIn state.world.defs

/-- Whether, besides, no two members that have not been resolved are about the same definition: they
do not find the same one, and neither of them describes what has to be made for the other. -/
structure Rooted (asked : Declaration → Prop) : Prop extends state.Scoped asked where
  single : ∀ left right definition, asked left → asked right →
    state.session.resolved.get? left = none → state.session.resolved.get? right = none →
    state.finds? left = some definition → state.finds? right = some definition → left = right
  apart : ∀ left right holder, asked left → asked right → left.kind.isScope = false →
    left.kind = right.kind → state.finds? left = none → state.session.resolved.get? right = none →
    state.holder? left = some holder → state.holder? right = some holder →
    state.Describes right (state.nature left holder none) → left = right

end SessionState

end Graft
