import Graft.Proofs.Pairing.Beneath
import Graft.Proofs.Pairing.Blaming
import Graft.Proofs.Session.Calls
import Graft.Proofs.Signature.Equality

/-!
# Members that exist exactly as declared

A declared method is looked up by its name and its overload, a declared property by its name, and only
the first member with that key is compared with the whole declared signature. So a member that is
exactly as declared is found if all members before it that have the key are exactly as declared, too
(`exact_member_found`), and it is missed behind one that has the key and differs
(`exact_cast_missed`).
-/

namespace Graft

open SessionTask

/-- Whether two signatures of methods or of properties are equal under a comparison. -/
def Shape.same (names : TypeNames) (options : Comparison) : Shape → Shape → Bool
  | .method left, .method right => left.same names options right
  | .property left, .property right => left.same names options right
  | _, _ => false

namespace World

/-- Whether a member has the name that a declaration gives, and the whole of a signature as
declarations give it, the result included. -/
def isExact (world : World) (declaration : Declaration) (shape : Shape) (member : Definition) :
    Bool :=
  match world.defs.record? member with
  | none => false
  | some record => record.nature.name == (world.decls.statement declaration).name &&
      record.nature.shape.same world.typeNames .declared shape

/-- Whether a member has the key that a declared method or property is looked up by: the name, and for
a method the signature as overloads are told apart. -/
def hasKey (world : World) (declaration : Declaration) (shape : Shape) (member : Definition) :
    Bool :=
  match world.defs.record? member with
  | none => false
  | some record => record.nature.name == (world.decls.statement declaration).name &&
      (declaration.kind != .method || record.nature.shape.same world.typeNames .overload shape)

variable {world : World} {declaration : Declaration} {shape : Shape} {member : Definition}
  {front rest : List Definition}

theorem isExact_iff : world.isExact declaration shape member = true ↔
    ∃ record, world.defs.record? member = some record ∧
      record.nature.name = (world.decls.statement declaration).name ∧
      record.nature.shape.same world.typeNames .declared shape = true := by
  unfold isExact
  cases world.defs.record? member <;> simp

theorem hasKey_iff : world.hasKey declaration shape member = true ↔
    ∃ record, world.defs.record? member = some record ∧
      record.nature.name = (world.decls.statement declaration).name ∧
      (declaration.kind = .method →
        record.nature.shape.same world.typeNames .overload shape = true) := by
  unfold hasKey
  cases world.defs.record? member <;> simp [Decidable.imp_iff_not_or]

/-- What is exactly as declared has the declared key. -/
theorem hasKey_of_isExact (h : world.isExact declaration shape member = true)
    (hkind : declaration.kind = .method → ∃ signature, shape = .method signature) :
    world.hasKey declaration shape member = true := by
  obtain ⟨record, hrecord, hname, hsame⟩ := isExact_iff.mp h
  refine hasKey_iff.mpr ⟨record, hrecord, hname, fun hmethod => ?_⟩
  obtain ⟨signature, rfl⟩ := hkind hmethod
  cases hshape : record.nature.shape with
  | none | field | property | event =>
      rw [hshape] at hsame
      cases hsame
  | method existing =>
      rw [hshape] at hsame
      exact MethodSig.same_of_coarser Comparison.overload_coarser hsame

/-- The first member with the declared key is exactly as declared, if that is so for one member and for
those before it that have the key. -/
theorem exists_first_exact (hkey : world.hasKey declaration shape member = true)
    (hexact : world.isExact declaration shape member = true)
    (hfront : ∀ other ∈ front, world.hasKey declaration shape other = true →
      world.isExact declaration shape other = true) :
    ∃ first ∈ front ++ member :: rest,
      (front ++ member :: rest).find? (world.hasKey declaration shape) = some first ∧
        world.isExact declaration shape first = true := by
  cases hfind : front.find? (world.hasKey declaration shape) with
  | some first =>
      have hmem := List.mem_of_find?_eq_some hfind
      refine ⟨first, List.mem_append_left _ hmem, ?_, hfront first hmem (List.find?_some hfind)⟩
      simp [List.find?_append, hfind]
  | none => exact ⟨member, by simp, by simp [List.find?_append, hfind, hkey], hexact⟩

end World

/-! ## Locating a member -/

section Locating

variable {search : Search} {state middle : SessionState} {declaration : Declaration}
  {owner : DefId .type} {shape : Shape} {first : Definition}

/-- What has to be there and is there is the answer. -/
theorem on_findOrCreate_found {ι : Type} {existing : ι} {create : SessionTask ι}
    (hpolicy : (state.world.decls.terms declaration).policy = .failIfMissing) :
    (findOrCreate declaration (some existing) create).on state =
      (.ok (existing, false), state) := by
  unfold findOrCreate
  rw [on_bind, on_world]
  simp only [Declaration.mustCreate, hpolicy, Option.isSome_some]
  rfl

/-- What is known before a member is located has been found out in two steps. -/
theorem bearings_ok {outer : DeclId .type}
    (hparent : state.world.decls.parent? declaration =
      (state.world.decls.living? outer).map .type)
    (hon : (search.bearings declaration).on state = (.ok (owner, shape), middle)) :
    ∃ between, (search.ownerOf declaration outer).on state = (.ok owner, between) ∧
      (search.resolveShape (state.world.decls.statement declaration).shape).on between =
        (.ok shape, middle) := by
  unfold Search.bearings at hon
  unfold Search.ownerOf
  rw [on_bind, on_world] at hon ⊢
  dsimp only at hon ⊢
  rw [hparent] at hon
  cases hliving : state.world.decls.living? outer with
  | none =>
      rw [hliving] at hon
      cases hon
  | some living =>
      rw [hliving] at hon
      obtain ⟨found, between, howner, hrest⟩ := on_bind_ok.mp hon
      obtain ⟨resolved, last, hshape, hpure⟩ := on_bind_ok.mp hrest
      cases hpure
      exact ⟨between, howner, hshape⟩

/-- The signature of a method is that of a method. -/
theorem method_of_bearings
    (hon : (search.bearings declaration).on state = (.ok (owner, shape), middle))
    (hkind : declaration.kind = .method) : ∃ signature, shape = .method signature := by
  cases declaration with
  | module | type | field | property | event => cases hkind
  | method id =>
      obtain ⟨between, -, hshape⟩ := bearings_ok rfl hon
      obtain ⟨signature, last, -, hpure⟩ := on_bind_ok.mp hshape
      cases hpure
      exact ⟨signature, rfl⟩

/-- The first definition with the key is that of the first item that is accepted. -/
theorem find?_of_map {ι : Type} {items : List ι} (toDefinition : ι → Definition)
    {accepts : ι → Bool} (key : Definition → Bool)
    (haccepts : ∀ item ∈ items, key (toDefinition item) = accepts item)
    (hfind : (items.map toDefinition).find? key = some first) :
    ∃ item, items.find? accepts = some item ∧ first = toDefinition item := by
  replace haccepts : ∀ item ∈ items, (key ∘ toDefinition) item = accepts item := haccepts
  rw [List.find?_map, ← List.head?_filter, List.filter_congr haccepts, List.head?_filter] at hfind
  obtain ⟨item, hitem, rfl⟩ := Option.map_eq_some_iff.mp hfind
  exact ⟨item, hitem, rfl⟩

/-- A method or property that has to be there is located at the first member with its key. -/
theorem on_locate_member (hkind : declaration.kind = .method ∨ declaration.kind = .property)
    (hheld : middle.world.defs.Held)
    (hpolicy : (middle.world.decls.terms declaration).policy = .failIfMissing)
    (hdecls : middle.world.decls = state.world.decls)
    (hbearings : (search.bearings declaration).on state = (.ok (owner, shape), middle))
    (hfind : (middle.world.defs.members (.type owner) declaration.kind).find?
      (middle.world.hasKey declaration shape) = some first) :
    (search.locate declaration).on state = (.ok (first, false), middle) := by
  -- The search of each kind tests its own fields; both tests amount to the key of the member.
  cases declaration with
  | module | type | field | event => rcases hkind with hkind | hkind <;> cases hkind
  | method id =>
      obtain ⟨between, howner, hshape⟩ := bearings_ok rfl hbearings
      obtain ⟨signature, last, hsignature, hpure⟩ := on_bind_ok.mp hshape
      cases hpure
      have haccepts (other : DefId .method) (h : other ∈ (middle.world.defs.type owner).methods) :
          middle.world.hasKey (.method id) (.method signature) (.method other) =
            ((middle.world.defs.method other).name == (state.world.decls.method id).name &&
              Comparison.overload.admits (middle.world.defs.method other).flags &&
              (middle.world.defs.method other).signature.same middle.world.typeNames .overload
                signature) := by
        have hrecord := Definitions.record?_method
          (hheld (.type owner) .method _ (List.mem_map_of_mem h))
        simp [World.hasKey, hrecord, hdecls, MethodDef.record, Declarations.statement, Shape.same,
          Declaration.kind, Comparison.admits]
      obtain ⟨method, hmethod, rfl⟩ := find?_of_map .method _ haccepts hfind
      rw [Search.locate, Search.locateMethod, on_bind, on_bind, on_world]
      dsimp only
      rw [on_bind, howner]
      dsimp only
      rw [on_bind, hsignature]
      dsimp only
      rw [on_bind, on_world]
      dsimp only
      rw [hmethod, on_findOrCreate_found hpolicy]
      rfl
  | property id =>
      obtain ⟨between, howner, hshape⟩ := bearings_ok rfl hbearings
      obtain ⟨signature, last, hsignature, hpure⟩ := on_bind_ok.mp hshape
      cases hpure
      have haccepts (other : DefId .property)
          (h : other ∈ (middle.world.defs.type owner).properties) :
          middle.world.hasKey (.property id) (.property signature) (.property other) =
            ((middle.world.defs.property other).name == (state.world.decls.property id).name) := by
        have hrecord := Definitions.record?_property
          (hheld (.type owner) .property _ (List.mem_map_of_mem h))
        simp [World.hasKey, hrecord, hdecls, PropertyDef.record, Declarations.statement,
          Declaration.kind]
      obtain ⟨property, hproperty, rfl⟩ := find?_of_map .property _ haccepts hfind
      rw [Search.locate, Search.locateProperty, on_bind, on_bind, on_world]
      dsimp only
      rw [on_bind, howner]
      dsimp only
      rw [on_bind, hsignature]
      dsimp only
      rw [on_bind, on_world]
      dsimp only
      rw [hproperty, on_findOrCreate_found hpolicy]
      rfl

end Locating

/-! ## Resolving a signature once more -/

namespace Pairing

variable {start : SessionState} {declaration : Declaration} {definition : Definition} {depth : Nat}
  {inFlight : InFlight}

/-- Every state is like itself alone, with the definitions, the declarations and the memo of a state
that it comes from. -/
def still (start : SessionState) : Pairing where
  Alike left right := right = left ∧ left.world.defs = start.world.defs ∧
    left.world.decls = start.world.decls ∧ left.session.resolved = start.session.resolved
  Expected _ := Error.Plain

theorem linked_still : (still start).Linked start.world.decls where
  decls_eq _ _ halike := halike.2.2.1
  links _ _ halike := halike.1 ▸ ⟨⟨rfl, rfl⟩, rfl⟩
  expected _ h _ := h

/-- What is remembered is answered, and nothing else changes. -/
theorem couples_still (hmemo : start.session.resolved.get? declaration = some definition) :
    (still start).Couples (resolveWithin (depth + 1) inFlight declaration)
      (resolveWithin (depth + 1) inFlight declaration) := by
  rintro left _ ⟨rfl, hdefs, hdecls, hresolved⟩
  rw [← hresolved] at hmemo
  obtain ⟨hits, log, hon⟩ := on_resolveWithin_remembered hmemo
  rw [hon]
  exact ⟨rfl, ⟨rfl, hdefs, hdecls, hresolved⟩, nofun⟩

end Pairing

namespace Moment

variable {now : Moment} {search : Search} {stack rest : InFlight} {declaration : Declaration}
  {definition : Definition} {asked : Declaration → Prop} {bound : Option Nat} {depth : Nat}

theorem leads_resolveShape (hfinds : Finds asked bound stack search) (hsound : now.Sound)
    (hstack : now.stack = stack) (shape : Shape)
    (hreads : Reads asked bound now shape.targets shape.slots) :
    Leads asked bound now (search.resolveShape shape) fun resolved next =>
      next.Covers shape.targets shape.slots ∧ resolved = shape.relink next.fill := by
  cases shape with
  | none => exact Leads.pure ⟨covers_nil, rfl⟩
  | field signature =>
      refine Leads.bind hsound (leads_resolveTypeSig hfinds hsound hstack signature hreads) ?_
      rintro _ next _ ⟨hcovers, rfl⟩
      exact Leads.pure ⟨hcovers, rfl⟩
  | method signature =>
      refine Leads.bind hsound (leads_resolveMethodSig hfinds hsound hstack signature hreads) ?_
      rintro _ next _ ⟨hcovers, rfl⟩
      exact Leads.pure ⟨hcovers, rfl⟩
  | property signature =>
      refine Leads.bind hsound (leads_resolvePropertySig hfinds hsound hstack signature hreads) ?_
      rintro _ next _ ⟨hcovers, rfl⟩
      exact Leads.pure ⟨hcovers, rfl⟩
  | event type =>
      refine Leads.bind hsound (leads_resolveTypeRef hfinds hsound hstack type hreads) ?_
      rintro _ next _ ⟨hcovers, rfl⟩
      exact Leads.pure ⟨hcovers, rfl⟩

/-- When the type around a member and its signature have been resolved, all that the signature refers
to is known. -/
theorem leads_bearings (hfinds : Finds asked none stack search) (hsound : now.Sound)
    (hstack : now.stack = stack) (hclosed : now.decls.Closed asked) (hasked : asked declaration)
    (htop : stack = (declaration, none) :: rest) :
    Leads asked none now (search.bearings declaration) fun found next =>
      next.Covers (now.decls.statement declaration).shape.targets
        (now.decls.statement declaration).shape.slots ∧
      found.2 = (now.decls.statement declaration).shape.relink next.fill := by
  refine Leads.world ?_
  cases hparent : now.decls.parent? declaration with
  | none => exact Leads.throw nofun
  | some parent =>
      cases parent with
      | type owner =>
          have howner := hclosed.parent declaration _ hasked hparent
          refine Leads.bind hsound (leads_type hfinds hsound hstack howner) ?_
          intro found next hafter _
          refine Leads.bind hafter.sound (leads_resolveShape hfinds hafter.sound
            (hafter.stack.trans hstack) _
            (hafter.reads (reads_shape hclosed (hstack.trans htop) hasked))) ?_
          rintro _ last _ ⟨hcovers, rfl⟩
          exact Leads.pure ⟨hcovers, rfl⟩
      | module | field | method | property | event => exact Leads.throw nofun

/-- Once a member is located its signature is resolved to the same as before, and nothing is made on
the way. -/
theorem resolveShape_again {shape resolved : Shape} {last : SessionState} (hsound : now.Sound)
    (hstack : now.stack = [(declaration, none)]) (hcovers : now.Covers shape.targets shape.slots)
    (hhas : now.defs.has definition = true) (hkind : definition.kind = declaration.kind)
    (hon : (Search.resolveShape (resolveWithin (depth + 1) [(declaration, some definition)])
      shape).on now.state = (.ok resolved, last)) :
    resolved = shape.relink now.fill ∧ last.world.defs = now.defs ∧
      last.world.decls = now.decls := by
  refine ⟨?_, ?_⟩
  · have hlocated := hsound.locate hstack hhas hkind
    have hfinds : Finds (fun _ => True) none [(declaration, some definition)]
        (resolveWithin (depth + 1) [(declaration, some definition)]) :=
      finds_resolveWithin _ _ _ nofun
    have hreads : Reads (fun _ => True) none (now.withStack [(declaration, some definition)])
        shape.targets shape.slots :=
      Asks.reads fun _ _ _ => trivial
    obtain ⟨next, -, hnext, hrun, -, hresolved⟩ :=
      (leads_resolveShape hfinds hlocated rfl shape hreads).of_ok
      ⟨fun _ _ _ _ => trivial, fun _ _ _ _ _ => trivial, fun _ _ _ _ _ => trivial⟩ hon
    have hextends : now.answer.Extends next.answer := fun other found hknown =>
      (hrun.after rfl rfl hlocated hnext).answers _ _ (hsound.extends_locate hstack _ _ hknown)
    rw [hresolved, Shape.fill_mono hextends hcovers.settled]
  · let search := resolveWithin (depth + 1) [(declaration, some definition)]
    have hsearch : (Pairing.still now.state).CouplesAll now.decls search search
        (declaredIn shape.targets) := by
      intro other hmem _
      obtain ⟨found, hknown, -⟩ := hcovers.settled _ (Declarations.mem_declaredIn.mp hmem)
      -- What is in flight beneath has no definition yet, so the answer is in the memo.
      have hnone : (List.lookup other [(declaration, (none : Option Definition))]).join = none := by
        rw [List.lookup_cons]
        cases other == declaration <;> rfl
      rw [answer, hstack, hnone, Option.or_none] at hknown
      exact Pairing.couples_still hknown
    have hagree := Search.couples_resolveShape Pairing.linked_still shape hsearch now.state now.state
      ⟨rfl, rfl, rfl, rfl⟩
    have halike := hagree.alike
    rw [hon] at halike
    exact ⟨halike.2.1, halike.2.2.1⟩

/-- The type around a member and its signature are resolved by themselves as they are while the member
is in flight. -/
theorem enter_bearings {owner : DefId .type} {shape : Shape} {middle : SessionState}
    (hsound : now.Sound) (hidle : now.stack = []) (hmember : declaration.kind.isScope = false)
    (hliving : now.decls.has declaration = true)
    (hnew : now.session.resolved.get? declaration = none)
    (hbearings : (Search.bearings resolve declaration).on now.state = (.ok (owner, shape), middle)) :
    (Search.bearings (resolveWithin now.decls.count [(declaration, none)]) declaration).on now.state =
        (.ok (owner, shape), middle) ∧
      ∃ mid : Moment, mid.state = middle ∧ mid.stack = [(declaration, none)] ∧ mid.Sound ∧
        now.Later mid ∧
        mid.Covers (now.decls.statement declaration).shape.targets
          (now.decls.statement declaration).shape.slots ∧
        shape = (now.decls.statement declaration).shape.relink mid.fill := by
  have hclosed : now.decls.Closed fun _ => True :=
    ⟨fun _ _ _ _ => trivial, fun _ _ _ _ _ => trivial, fun _ _ _ _ _ => trivial⟩
  have hinside : (Search.bearings (resolveWithin now.decls.count [(declaration, none)])
      declaration).on now.state = (.ok (owner, shape), middle) :=
    (on_bearings hmember hliving).trans hbearings
  have henter : Step (fun _ => True) {} now (now.withStack [(declaration, none)]) := by
    have hstep : Step (fun _ => True) {} now (now.withStack ((declaration, none) :: now.stack)) :=
      .enter trivial hnew (by rw [hidle]; rfl) (by rw [hidle]; exact nofun)
    rwa [hidle] at hstep
  have hfinds : Finds (fun _ => True) none [(declaration, none)]
      (resolveWithin now.decls.count [(declaration, none)]) :=
    finds_resolveWithin _ _ _ nofun
  obtain ⟨mid, hmid, hstack, hrun, hcovers, hshape⟩ :=
    (leads_bearings hfinds (henter.sound hsound) rfl hclosed trivial rfl).of_ok hclosed hinside
  exact ⟨hinside, mid, hmid, hstack, hrun.sound (henter.sound hsound),
    (henter.later hsound).trans (hrun.later (henter.sound hsound)), hcovers, hshape⟩

end Moment

/-! ## Members that are exactly as declared -/

/-- Methods of one signature have one result, where results count. -/
theorem MethodSig.result_same {names : TypeNames} {options : Comparison} {left right : MethodSig}
    (h : left.same names options right = true) (hcounts : options.ignoreResult = false) :
    left.result.same names options right.result = true := by
  obtain ⟨callConv, genericCount, result, params, varargs⟩ := left
  simp only [MethodSig.same, hcounts, Bool.false_or, Bool.and_eq_true] at h
  exact h.1.1.2

/-- A member that is exactly as declared comes to the same end whether or not it is to be expected that
members do not fit: its signature is resolved once more, to the same as before. -/
theorem agree_reconcile_exact {P : Pairing} {decls : Declarations} {search : Search}
    {state : SessionState} {declaration : Declaration} {found : Definition} {shape : Shape}
    (law : P.Lawful decls) (hkind : declaration.kind = .method ∨ declaration.kind = .property)
    (hfound : found.kind = declaration.kind) (halike : P.Alike state state)
    (hsearch : ∀ next, P.Couples (search next) (search next))
    (hexact : state.world.isExact declaration shape found = true)
    (hagain : ∀ resolved last,
      (search.resolveShape (decls.statement declaration).shape).on state = (.ok resolved, last) →
        resolved = shape ∧ last.world.defs = state.world.defs ∧
          last.world.decls = state.world.decls) :
    P.Agree ((search.reconcile declaration found false).on state)
      ((search.reconcile declaration found false).on state) := by
  have hnames {last : SessionState} (hdefs : last.world.defs = state.world.defs)
      (hdecls : last.world.decls = state.world.decls) :
      last.world.typeNames = state.world.typeNames := by
    simp only [World.typeNames, hdefs, hdecls]
  obtain ⟨record, hrecord, -, hsame⟩ := World.isExact_iff.mp hexact
  have hhas := Definitions.has_iff.mpr ⟨record, hrecord⟩
  cases declaration with
  | module | type | field | event => rcases hkind with hkind | hkind <;> cases hkind
  | method id =>
      cases found with
      | module | type | field | property | event => cases hfound
      | method method =>
          refine Search.agree_reconcileMethod law id method false halike
            (fun _ declared last hon => .inl ?_) (fun next _ _ => hsearch next)
            fun next _ _ => hsearch next
          obtain ⟨rfl, hdefs, hdecls⟩ := hagain (.method declared) last
            (on_bind_ok.mpr ⟨declared, last, hon, rfl⟩)
          rw [hdefs, hnames hdefs hdecls]
          cases hrecord.symm.trans (Definitions.record?_method hhas)
          exact MethodSig.result_same hsame rfl
  | property id =>
      cases found with
      | module | type | field | method | event => cases hfound
      | property property =>
          refine Search.agree_reconcileProperty law id property false halike
            (fun _ declared last hon => .inl ?_) (fun entry _ => hsearch _)
            fun next _ _ => hsearch next
          obtain ⟨rfl, hdefs, hdecls⟩ := hagain (.property declared) last
            (on_bind_ok.mpr ⟨declared, last, hon, rfl⟩)
          rw [hdefs, hnames hdefs hdecls]
          cases hrecord.symm.trans (Definitions.record?_property hhas)
          exact hsame

/-- What is resolved for the first time is reconciled and remembered once it is located. -/
theorem on_resolve_located {state middle : SessionState} {declaration : Declaration}
    {found : Definition} {made : Bool} (hnew : state.session.resolved.get? declaration = none)
    (hlocate : (Search.locate (resolveWithin state.world.decls.count [(declaration, none)])
      declaration).on state = (.ok (found, made), middle)) :
    (resolve declaration).on state =
      (do
        Search.reconcile (resolveWithin state.world.decls.count [(declaration, some found)])
          declaration found made
        remember declaration found
        return found : SessionTask Definition).on middle := by
  have hremembered : (remembered? declaration).on state = (.ok none, state) := by
    rw [remembered?, on_bind, on_get]
    dsimp only
    rw [hnew]
    rfl
  rw [resolve, on_bind, on_world]
  dsimp only
  rw [resolveWithin_succ, on_bind, hremembered]
  dsimp only
  rw [List.lookup_nil]
  dsimp only
  rw [resolveAnew, on_bind, hlocate]

/-- A member that is located, is exactly as declared and has to be there is the answer, and if its
resolution fails the complaint is about another declaration. -/
theorem Moment.resolve_exact {now : Moment} {declaration : Declaration} {owner : DefId .type}
    {shape : Shape} {middle : SessionState} {first : Definition} (hsound : now.Sound)
    (hidle : now.stack = []) (hkind : declaration.kind = .method ∨ declaration.kind = .property)
    (hliving : now.decls.has declaration = true)
    (hpolicy : (now.decls.terms declaration).policy = .failIfMissing)
    (hplain : (now.world.source now.session.source).FailsAs Error.Plain)
    (hnew : now.session.resolved.get? declaration = none)
    (hbearings : (Search.bearings resolve declaration).on now.state = (.ok (owner, shape), middle))
    (hfind : (middle.world.defs.members (.type owner) declaration.kind).find?
      (middle.world.hasKey declaration shape) = some first)
    (hexact : middle.world.isExact declaration shape first = true) :
    match (resolve declaration).on now.state with
    | (.ok found, _) => found = first
    | (.error error, last) => last.BlamesOthers declaration error := by
  have hmember : declaration.kind.isScope = false := by
    rcases hkind with hkind | hkind <;> rw [hkind] <;> rfl
  obtain ⟨hinside, mid, rfl, hstack, hmid, hlater, hcovers, hshape⟩ :=
    enter_bearings hsound hidle hmember hliving hnew hbearings
  have hdecls : mid.state.world.decls = now.state.world.decls := hlater.decls
  have hlocate := on_locate_member hkind hmid.held (by rw [hdecls]; exact hpolicy) hdecls hinside hfind
  have hmem := List.mem_of_find?_eq_some hfind
  have hfound : first.kind = declaration.kind := Definitions.kind_of_mem_members hmem
  -- The member itself stands for one of the declarations, so some depth is left.
  obtain ⟨depth, hdepth⟩ : ∃ depth, now.decls.count = depth + 1 := by
    have hpositive : [declaration].length ≤ now.decls.count :=
      Declarations.length_le_count (List.nodup_singleton declaration) (by simpa using hliving)
    exact Nat.exists_eq_succ_of_ne_zero (Nat.pos_iff_ne_zero.mp hpositive)
  let search := resolveWithin (depth + 1) [(declaration, some first)]
  have hsearch (next : Declaration) :
      (Pairing.blaming now.decls declaration).Couples (search next) (search next) :=
    Pairing.couples_blaming (by simp)
  have halike : (Pairing.blaming now.decls declaration).Alike mid.state mid.state := by
    refine ⟨rfl, hdecls, ?_⟩
    rw [World.source, hlater.source, hlater.sources]
    exact hplain
  have hagree := agree_reconcile_exact Pairing.lawful_blaming hkind hfound halike hsearch hexact
    fun resolved last hon => by
      obtain ⟨hresolved, hsame⟩ := resolveShape_again hmid hstack hcovers
        (hmid.held _ _ _ hmem) hfound hon
      exact ⟨hresolved.trans hshape.symm, hsame⟩
  rw [on_resolve_located hnew hlocate, hdepth, on_bind]
  cases hreconcile : (search.reconcile declaration first false).on mid.state with
  | mk outcome last =>
      cases outcome with
      | error error =>
          rw [hreconcile] at hagree
          exact hagree.expected error rfl
      | ok => rfl

/-- A method or property that has to be there is found if a member of its type is exactly as declared,
and so are those before it that have the key: the answer is one of them, and if resolving it fails all
the same the complaint is about another declaration. What was resolved before is answered again. -/
theorem exact_member_found {world : World} {source : SourceId} {calls : List SessionCall}
    {state middle : SessionState} {declaration : Declaration} {owner : DefId .type} {shape : Shape}
    {member : Definition} {front rest : List Definition} (hheld : world.defs.Held)
    (hsource : (world.source source).Sound world.defs)
    (hplain : (world.source source).FailsAs Error.Plain)
    (hstate : SessionState.after ⟨{ source }, world⟩ calls = state)
    (hkind : declaration.kind = .method ∨ declaration.kind = .property)
    (hliving : world.decls.has declaration = true)
    (hpolicy : (world.decls.terms declaration).policy = .failIfMissing)
    (hbearings : (Search.bearings resolve declaration).on state = (.ok (owner, shape), middle))
    (hmembers : middle.world.defs.members (.type owner) declaration.kind = front ++ member :: rest)
    (hexact : middle.world.isExact declaration shape member = true)
    (hfront : ∀ other ∈ front, middle.world.hasKey declaration shape other = true →
      middle.world.isExact declaration shape other = true) :
    match state.session.resolved.get? declaration, (resolve declaration).on state with
    | some known, (outcome, _) => outcome = .ok known
    | none, (.ok found, _) => found ∈ front ++ member :: rest ∧
        middle.world.isExact declaration shape found = true
    | none, (.error error, last) => last.BlamesOthers declaration error := by
  have hbegin := Moment.sound_begin hheld hsource
  obtain ⟨now, hnow, hidle, hrun⟩ := Moment.after_run hbegin rfl (World.reaches_all world calls)
  obtain rfl : now.state = state := hnow.trans hstate
  have hsound := hrun.sound hbegin
  have hlater := hrun.later hbegin
  cases hnew : now.state.session.resolved.get? declaration with
  | some known =>
      obtain ⟨hits, log, hon⟩ := on_resolve_remembered hnew
      rw [hon]
  | none =>
      have hkey := World.hasKey_of_isExact hexact (method_of_bearings hbearings)
      obtain ⟨first, hmem, hfind, hfirst⟩ :=
        @World.exists_first_exact _ _ _ _ _ rest hkey hexact hfront
      have hdecls : now.decls = world.decls := hlater.decls
      have hresolve := Moment.resolve_exact hsound hidle hkind (hdecls ▸ hliving) (hdecls ▸ hpolicy)
        (by rw [World.source, hlater.source, hlater.sources]; exact hplain) hnew hbearings
        (hmembers ▸ hfind) hfirst
      cases hon : (resolve declaration).on now.state with
      | mk outcome last =>
          rw [hon] at hresolve
          cases outcome with
          | error error => exact hresolve
          | ok found => exact hresolve ▸ ⟨hmem, hfirst⟩

/-- A type that converts text to numbers of two sizes, after a method of another name, and declarations
of the two conversions. -/
def World.conversions : World :=
  let signature (result : Primitive) : MethodSig :=
    ⟨0, 0, .primitive result, [.primitive .string], []⟩
  let declared (result : Primitive) : MethodDecl :=
    { terms := ⟨.failIfMissing, false⟩
      owner := ⟨0⟩
      name := "op_Explicit"
      signature := signature result }
  let (module, defs) := ({} : Definitions).makeModule { name := "Game" }
  let (type, defs) := defs.addType module { namespaceName := "Units", name := "Ratio", flags := 1 }
  let (_, defs) := defs.addMethod type { name := "Parse", flags := 22, signature := signature .int32 }
  let (_, defs) :=
    defs.addMethod type { name := "op_Explicit", flags := 2198, signature := signature .int32 }
  let (_, defs) :=
    defs.addMethod type { name := "op_Explicit", flags := 2198, signature := signature .int64 }
  { defs
    decls :=
      { modules := ⟨#[some { terms := ⟨.failIfMissing, false⟩, name := "Game", types := [⟨0⟩] }]⟩
        types := ⟨#[some
          { terms := ⟨.failIfMissing, false⟩
            place := .topLevel ⟨0⟩ "Units"
            name := "Ratio"
            methods := [⟨0⟩, ⟨1⟩] }]⟩
        methods := ⟨#[some (declared .int32), some (declared .int64)]⟩ }
    sources := ⟨#[some (.memory ⟨[("Game", ⟨0⟩)]⟩ {})]⟩ }

theorem exact_member_found_conversions :
    let start : SessionState := ⟨{ source := ⟨0⟩ }, .conversions⟩
    ∃ middle shape found last,
      (Search.bearings resolve (.method ⟨0⟩)).on start = (.ok (⟨0⟩, shape), middle) ∧
        middle.world.isExact (.method ⟨0⟩) shape (.method ⟨1⟩) = true ∧
        (resolve (.method ⟨0⟩)).on start = (.ok found, last) ∧
        found ∈ [Definition.method ⟨0⟩, .method ⟨1⟩, .method ⟨2⟩] ∧
        middle.world.isExact (.method ⟨0⟩) shape found = true := by
  intro start
  have hfits : (match (Search.bearings resolve (.method ⟨0⟩)).on start with
      | (.ok (owner, shape), middle) => owner == ⟨0⟩ &&
          middle.world.defs.members (.type owner) .method ==
            [Definition.method ⟨0⟩, .method ⟨1⟩, .method ⟨2⟩] &&
          middle.world.isExact (.method ⟨0⟩) shape (.method ⟨1⟩) &&
          !middle.world.hasKey (.method ⟨0⟩) shape (.method ⟨0⟩)
      | _ => false) = true := by
    decide +kernel
  have hok : ((resolve (.method ⟨0⟩)).on start).1.isOk = true := by decide +kernel
  cases hbearings : (Search.bearings resolve (.method ⟨0⟩)).on start with
  | mk outcome middle =>
      rw [hbearings] at hfits
      cases outcome with
      | error error => cases hfits
      | ok located =>
          obtain ⟨owner, shape⟩ := located
          simp only [Bool.and_eq_true, beq_iff_eq, Bool.not_eq_true'] at hfits
          obtain ⟨⟨⟨rfl, hmembers⟩, hexact⟩, hkey⟩ := hfits
          have hfound := @exact_member_found .conversions ⟨0⟩ [] start middle (.method ⟨0⟩) ⟨0⟩ shape
            (.method ⟨1⟩) [.method ⟨0⟩] [.method ⟨2⟩] (by decide +kernel)
            (Source.sound_memory (by decide +kernel)) trivial rfl (.inl rfl) (by decide +kernel)
            (by decide +kernel) hbearings hmembers hexact
            fun other hmem hother => by
              cases List.mem_singleton.mp hmem
              rw [hkey] at hother
              cases hother
          cases hon : (resolve (.method ⟨0⟩)).on start with
          | mk outcome last =>
              rw [hon] at hfound hok
              cases outcome with
              | error error => cases hok
              | ok found => exact ⟨middle, shape, found, last, rfl, hexact, rfl, hfound⟩

/-- A conversion that exists exactly as declared is missed behind one to another type. -/
theorem exact_cast_missed :
    ¬ ∀ (world : World) (source : SourceId) (middle : SessionState) (declaration : Declaration)
        (owner : DefId .type) (shape : Shape) (member : Definition),
      let start : SessionState := ⟨{ source }, world⟩
      world.defs.Held → (world.source source).Sound world.defs →
      (declaration.kind = .method ∨ declaration.kind = .property) →
      world.decls.has declaration = true →
      (world.decls.terms declaration).policy = .failIfMissing →
      (Search.bearings resolve declaration).on start = (.ok (owner, shape), middle) →
      member ∈ middle.world.defs.members (.type owner) declaration.kind →
      middle.world.isExact declaration shape member = true →
      ∀ error last, (resolve declaration).on start = (.error error, last) →
        ¬ error.Disputes (world.declSymbol declaration) := by
  intro h
  let start : SessionState := ⟨{ source := ⟨0⟩ }, .conversions⟩
  have hfits : (match (Search.bearings resolve (.method ⟨1⟩)).on start with
      | (.ok (owner, shape), middle) =>
          (middle.world.defs.members (.type owner) .method).contains (.method ⟨2⟩) &&
            middle.world.isExact (.method ⟨1⟩) shape (.method ⟨2⟩)
      | _ => false) = true := by
    decide +kernel
  have herror : ((resolve (.method ⟨1⟩)).on start).1 =
      .error (.incompatible (World.conversions.declSymbol (.method ⟨1⟩)) .resultType) := by
    decide +kernel
  cases hbearings : (Search.bearings resolve (.method ⟨1⟩)).on start with
  | mk outcome middle =>
      rw [hbearings] at hfits
      cases outcome with
      | error error => cases hfits
      | ok located =>
          obtain ⟨owner, shape⟩ := located
          simp only [Bool.and_eq_true, List.contains_iff_mem] at hfits
          obtain ⟨hmem, hexact⟩ := hfits
          cases hon : (resolve (.method ⟨1⟩)).on start with
          | mk outcome last =>
              rw [hon] at herror
              cases herror
              exact h .conversions ⟨0⟩ middle (.method ⟨1⟩) owner shape (.method ⟨2⟩)
                (by decide +kernel) (Source.sound_memory (by decide +kernel)) (.inl rfl)
                (by decide +kernel) (by decide +kernel) hbearings hmem hexact _ last hon
                (.inr ⟨_, rfl⟩)

end Graft
