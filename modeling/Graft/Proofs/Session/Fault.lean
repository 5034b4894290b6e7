import Graft.Proofs.Session.Step

/-!
# Why a resolution fails

A `Fault` is what is wrong at the moment at which a resolution fails: what the declaration on top of
the stack says does not fit what is there, or resolutions run in a circle.
-/

namespace Graft

/-- Whether a detail of a definition that was there before is never changed. -/
def Detail.Fixed : Detail → Prop
  | .base | .generics | .signature | .overload | .result => True
  | .flags | .interface _ | .override _ | .accessor .. => False

namespace Moment

/-- Whether the declaration on top of the stack states all that a reference leads to. -/
def Mentions (now : Moment) (targets : List Target) (slots : List SlotId) : Prop :=
  ∃ declaration found rest, now.stack = (declaration, found) :: rest ∧
    targets ⊆ (now.decls.statement declaration).targets ∧
    slots ⊆ (now.decls.statement declaration).slots

section Mentions

variable {now : Moment} {targets targets' : List Target} {slots slots' : List SlotId}

theorem Mentions.mono (h : now.Mentions targets slots) (htargets : targets' ⊆ targets)
    (hslots : slots' ⊆ slots) : now.Mentions targets' slots' := by
  obtain ⟨declaration, found, rest, hstack, hstated, howned⟩ := h
  exact ⟨declaration, found, rest, hstack, List.Subset.trans htargets hstated,
    List.Subset.trans hslots howned⟩

theorem Mentions.left (h : now.Mentions (targets ++ targets') (slots ++ slots')) :
    now.Mentions targets slots :=
  h.mono (List.subset_append_left _ _) (List.subset_append_left _ _)

theorem Mentions.right (h : now.Mentions (targets ++ targets') (slots ++ slots')) :
    now.Mentions targets' slots' :=
  h.mono (List.subset_append_right _ _) (List.subset_append_right _ _)

/-- On the same stack the same is stated. -/
theorem Mentions.moved {next : Moment} (h : now.Mentions targets slots)
    (hdecls : next.decls = now.decls) (hstack : next.stack = now.stack) :
    next.Mentions targets slots := by
  unfold Mentions at h ⊢
  rwa [hdecls, hstack]

end Mentions

/-- What is wrong at the moment at which a resolution fails, and what it fails with. -/
inductive Fault (now : Moment) : Error → Prop where
  /-- A declaration is asked for before its definition has been located. -/
  | cyclic {declaration : Declaration}
      (hmemo : now.session.resolved.get? declaration = none)
      (hlookup : now.stack.lookup declaration = some none) (hlets : Lets now.stack declaration) :
      Fault now (.cyclic (now.world.declSymbol declaration))
  /-- More declarations are being resolved than there are. -/
  | exhausted {declaration : Declaration} (hcount : now.decls.count < now.stack.length) :
      Fault now (.cyclic (now.world.declSymbol declaration))
  /-- The source has the module but cannot hand it out. -/
  | unloadable {id : DeclId .module} {rest : InFlight} {error : Error}
      (hstack : now.stack = (.module id, none) :: rest)
      (hnone : now.session.modules.get? (now.decls.module id).name = none)
      (hload : ((Task.load now.session.source (now.decls.module id).name).on now.world).1 =
        .error error)
      (herror : ∀ name, error ≠ .moduleNotFound name) : Fault now error
  /-- The scope of the declaration is gone. -/
  | detached {declaration : Declaration} {rest : InFlight}
      (hstack : now.stack = (declaration, none) :: rest)
      (hkind : declaration.kind ≠ .module)
      (hparent : now.decls.parent? declaration = none) :
      Fault now (Graft.detached now.world declaration)
  /-- A declaration refers to one that is gone. -/
  | gone {declaration other : Declaration} {found : Option Definition} {rest : InFlight}
      (hstack : now.stack = (declaration, found) :: rest)
      (hmem : .declaration other ∈ (now.decls.statement declaration).targets)
      (hgone : now.decls.has other = false) : Fault now (.unresolved (.gone other.kind))
  /-- A signature has no known shape. -/
  | unknown {declaration : Declaration} {found : Option Definition} {rest : InFlight}
      (hstack : now.stack = (declaration, found) :: rest)
      (hmem : .unknown ∈ (now.decls.statement declaration).targets) :
      Fault now (.badSignature .resolveUnknown)
  /-- The owner of a generic variable is not known yet. -/
  | unowned {declaration : Declaration} {found : Option Definition} {rest : InFlight}
      {slot : SlotId} {kind : VarKind} {index : UInt32}
      (hstack : now.stack = (declaration, found) :: rest)
      (hmem : slot ∈ (now.decls.statement declaration).slots)
      (hnone : now.world.slot? slot = none) : Fault now (.badSignature (.unowned kind index))
  /-- What has to be there is missing. -/
  | missing {declaration : Declaration} {rest : InFlight}
      (hstack : now.stack = (declaration, none) :: rest)
      (hpolicy : (now.decls.terms declaration).policy = .failIfMissing)
      (hsettled : now.answer.SettlesAll (now.decls.statement declaration).shape.targets)
      (hmissing : now.Missing declaration) :
      Fault now (.notFound (now.world.declSymbol declaration))
  /-- What has to be made is there. -/
  | present {declaration : Declaration} {definition : Definition} {rest : InFlight}
      (hstack : now.stack = (declaration, none) :: rest)
      (hpolicy : (now.decls.terms declaration).policy = .failIfPresent)
      (hfound : now.Found declaration definition) :
      Fault now (.alreadyExists (now.world.declSymbol declaration))
  /-- What is missing may not be made. -/
  | locked {declaration : Declaration} {rest : InFlight}
      (hstack : now.stack = (declaration, none) :: rest)
      (hlocked : ¬ now.decls.Writable declaration)
      (hpolicy : (now.decls.terms declaration).policy ≠ .failIfMissing)
      (hsettled : now.answer.SettlesAll (now.decls.statement declaration).shape.targets)
      (hmissing : now.Missing declaration) :
      Fault now (.readOnly (now.world.declSymbol declaration))
  /-- A detail that differs may not be changed. -/
  | lockedDetail {declaration : Declaration} {definition : Definition} {rest : InFlight}
      {detail : Detail} (hstack : now.stack = (declaration, some definition) :: rest)
      (hlocked : ¬ now.decls.Writable declaration)
      (hmem : detail ∈ now.decls.details declaration)
      (hsettled : now.answer.SettlesAll ((now.decls.statement declaration).targetsOf detail))
      (hnot : ¬ now.Holds declaration definition detail) :
      Fault now (.readOnly (now.world.declSymbol declaration))
  /-- What was there before differs in a detail that is never changed. -/
  | differs {declaration : Declaration} {definition : Definition} {rest : InFlight}
      {detail : Detail} {mismatch : Mismatch}
      (hstack : now.stack = (declaration, some definition) :: rest)
      (hmade : (declaration, definition) ∉ now.made)
      (hmem : detail ∈ now.decls.details declaration) (hfixed : detail.Fixed)
      (hsettled : now.answer.SettlesAll ((now.decls.statement declaration).targetsOf detail))
      (hnot : ¬ now.Holds declaration definition detail) :
      Fault now (.incompatible (now.world.declSymbol declaration) mismatch)

end Moment

end Graft
