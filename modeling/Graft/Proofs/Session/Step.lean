import Graft.Proofs.Definition.Building
import Graft.Proofs.Import.Importing
import Graft.Proofs.Session.Moment
import Mathlib.Logic.Relation

/-!
# Steps of a resolution

All that resolving declarations and transplanting bodies ever does, one change at a time. A `Step`
states under which conditions it is taken: whatever is written is written for a declaration that
was asked for and may be changed, and what is written is what that declaration states. Everything
about resolutions is proved for one step and carried along a `Run`.
-/

namespace Graft

/-- What a run may contain besides resolutions that succeed. -/
structure Mode where
  /-- A resolution may be given up. -/
  fails : Bool := false
  /-- Hidden methods may be made, and references imported. -/
  hides : Bool := false
  /-- Bodies may be replaced. -/
  grafts : Bool := false

/-- Whether declarations of a kind are scopes of other declarations: modules and types are. -/
def SymbolKind.isScope : SymbolKind → Bool
  | .module | .type => true
  | .field | .method | .property | .event => false

namespace Moment

/-- Whether a declaration may be asked for on a stack: before the innermost declaration is located
only scopes are. -/
def Lets (stack : InFlight) (declaration : Declaration) : Prop :=
  ∀ other rest, stack = (other, none) :: rest → declaration.kind.isScope = true

variable (asked : Declaration → Prop) (mode : Mode)

/-- One step of a resolution. The declaration on top of the stack is the one being resolved. -/
inductive Step : Moment → Moment → Prop where
  /-- Nothing happens that anyone looks at. -/
  | quiet {now : Moment} {world : World} {hits : Nat} (hquiet : now.world.Quiet world)
      (hslots : mode.hides = false → world.slots = now.world.slots) :
      Step now (now.withState { now.session with hits } world)
  /-- The session gets a module that is asked for from its source. -/
  | load {now : Moment} {id : DeclId .module} {rest : InFlight} {name : String}
      {module : DefId .module} {world : World} (hstack : now.stack = (.module id, none) :: rest)
      (hasked : asked (.module id)) (hname : (now.decls.module id).name = name)
      (hnone : now.session.modules.get? name = none)
      (hload : (Task.load now.session.source name).on now.world = (.ok module, world)) :
      Step now (now.withState
        { now.session with modules := now.session.modules.insert name module } world)
  /-- A declaration is about to be resolved. -/
  | enter {now : Moment} {declaration : Declaration} (hasked : asked declaration)
      (hmemo : now.session.resolved.get? declaration = none)
      (hstack : now.stack.lookup declaration = none) (hlets : Lets now.stack declaration) :
      Step now (now.withStack ((declaration, none) :: now.stack))
  /-- A missing module is made. -/
  | makeModule {now : Moment} {id : DeclId .module} {rest : InFlight} {name : String}
      (hstack : now.stack = (.module id, none) :: rest) (hasked : asked (.module id))
      (hwritable : now.decls.Writable (.module id))
      (hname : (now.decls.module id).name = name)
      (hpolicy : (now.decls.terms (.module id)).policy ≠ .failIfMissing)
      (hnone : now.session.modules.get? name = none) (hmissing : now.Missing (.module id)) :
      Step now (((now.withState
        { now.session with modules := now.session.modules.insert name ⟨now.defs.modules.next⟩ }
        { now.world with defs := (now.defs.makeModule { name }).2 }).withStack
          ((.module id, some (.module ⟨now.defs.modules.next⟩)) :: rest)).withMade
            ((.module id, .module ⟨now.defs.modules.next⟩) :: now.made))
  /-- A missing definition is made and listed. -/
  | create {now : Moment} {declaration parent : Declaration} {rest : InFlight}
      {holder made : Definition} {record : Record} {defs : Definitions}
      (hstack : now.stack = (declaration, none) :: rest) (hasked : asked declaration)
      (hwritable : now.decls.Writable declaration)
      (hpolicy : (now.decls.terms declaration).policy ≠ .failIfMissing)
      (hmissing : now.Missing declaration)
      (hparent : now.decls.parent? declaration = some parent)
      (hholder : now.answer parent = some holder) (hkind : made.kind = declaration.kind)
      (hrenders : now.Renders declaration holder record)
      (hadds : now.defs.Adds defs holder made record) (hbuilds : now.defs.Builds defs) :
      Step now (((now.withDefs defs).withStack ((declaration, some made) :: rest)).withMade
        ((declaration, made) :: now.made))
  /-- The definition of a declaration has been found. -/
  | locate {now : Moment} {declaration : Declaration} {definition : Definition}
      {rest : InFlight} (hstack : now.stack = (declaration, none) :: rest)
      (hasked : asked declaration)
      (hpolicy : (now.decls.terms declaration).policy ≠ .failIfPresent)
      (hfound : now.Found declaration definition) :
      Step now (now.withStack ((declaration, some definition) :: rest))
  /-- The definition is seen to agree with its declaration on a detail. -/
  | confirm {now : Moment} {declaration : Declaration} {definition : Definition}
      {rest : InFlight} {detail : Detail}
      (hstack : now.stack = (declaration, some definition) :: rest)
      (hholds : now.Holds declaration definition detail)
      (hcovers : now.Covers ((now.decls.statement declaration).targetsOf detail)
        ((now.decls.statement declaration).slotsOf detail)) :
      Step now { now with confirmed := (declaration, detail) :: now.confirmed }
  /-- A detail of the definition is changed to what the declaration states. -/
  | amend {now : Moment} {declaration : Declaration} {definition : Definition}
      {rest : InFlight} {amendment : Amendment} {defs : Definitions}
      (hstack : now.stack = (declaration, some definition) :: rest)
      (hasked : asked declaration) (hwritable : now.decls.Writable declaration)
      (hstated : amendment.Stated now declaration definition)
      (hchanges : now.defs.Changes defs definition (Record.alter (amendment.apply ·))) :
      Step now (now.withDefs defs)
  /-- The declaration is resolved: every detail has been confirmed. -/
  | remember {now : Moment} {declaration : Declaration} {definition : Definition}
      {rest : InFlight} (hstack : now.stack = (declaration, some definition) :: rest)
      (hconfirmed : ∀ detail ∈ now.decls.details declaration,
        (declaration, detail) ∈ now.confirmed) :
      Step now ((now.withState
        { now.session with resolved := now.session.resolved.insert declaration definition }
        now.world).withStack rest)
  /-- The resolution of the declaration has failed, and what was made for it is forgotten. -/
  | abandon {now : Moment} {entry : Declaration × Option Definition} {rest : InFlight}
      (hfails : mode.fails = true) (hstack : now.stack = entry :: rest) :
      Step now ((now.withStack rest).withMade (now.made.filter (·.1 ≠ entry.1)))
  /-- A hidden method is made that holds the body of a method. -/
  | hide {now : Moment} {id : DeclId .method} {method hidden : DefId .method}
      {owner : DefId .type} {record made : Record} {defs : Definitions}
      (hhides : mode.hides = true) (hasked : asked (.method id))
      (hwritable : now.decls.Writable (.method id))
      (hmemo : now.session.resolved.get? (.method id) = some (.method method))
      (hrecord : now.defs.record? (.method method) = some record)
      (howner : record.nature.owner = some owner)
      (hunused : ∀ other ∈ now.defs.members (.type owner) .method,
        ∀ sibling, now.defs.record? other = some sibling →
          sibling.nature.name ≠ made.nature.name)
      (hnature : made.nature =
        { name := made.nature.name
          shape := record.nature.shape
          token := made.nature.token
          owner := some owner })
      (hdetails : made.details = { flags := record.details.flags &&& Flags.static })
      (hbody : made.body = record.body) (hmembers : made.members = fun _ => [])
      (hadds : now.defs.Adds defs (.type owner) (.method hidden) made)
      (hbuilds : now.defs.Builds defs) :
      Step now ((now.withDefs defs).withHidden (hidden :: now.hidden))
  /-- The body of a method is replaced. -/
  | graft {now : Moment} {id : DeclId .method} {method : DefId .method} {body : Body}
      {defs : Definitions} (hgrafts : mode.grafts = true)
      (hasked : asked (.method id)) (hwritable : now.decls.Writable (.method id))
      (hmemo : now.session.resolved.get? (.method id) = some (.method method))
      (hchanges : now.defs.Changes defs (.method method) (Record.graft body)) :
      Step now (now.withDefs defs)

/-- Any number of steps. -/
def Run : Moment → Moment → Prop :=
  Relation.ReflTransGen (Step asked mode)

end Moment

end Graft
