import Graft.Proofs.Flags.Merge
import Graft.Proofs.Session.Locating
import Graft.Session.Reconcile

/-!
# Reconciling definitions

Reconciling the definition on top of the stack confirms every detail that its declaration asks for
(`leads_reconcile`): either the definition agrees already, or it is changed so that it does, or
the resolution fails.
-/

namespace Graft.Moment

open SessionTask

variable {asked : Declaration → Prop} {bound : Option Nat} {now : Moment}
  {stack rest : InFlight} {search : Search} {declaration : Declaration} {definition : Definition}
  {record : Record}

theorem masked_of_kind {kind : SymbolKind} {scheme : FlagScheme} (h : kind.scheme? = some scheme) :
    scheme.Masked := by
  cases kind <;> simp only [SymbolKind.scheme?, Option.some.injEq, reduceCtorEq] at h <;> subst h
  · exact FlagScheme.masked_type
  · exact FlagScheme.masked_field
  · exact FlagScheme.masked_method
  · exact FlagScheme.masked_property
  · exact FlagScheme.masked_event

/-- A definition made for a declaration has the declared flags. -/
theorem MadeFor.holds_flags (h : now.MadeFor declaration definition) :
    now.Holds declaration definition .flags := by
  obtain ⟨record, hrecord, -, -, hflags⟩ := h.rendered
  refine ⟨record, hrecord, fun scheme declared _ hdeclared => ?_⟩
  rw [hflags declared hdeclared, FlagScheme.merge_self]

/-- A field, a property or an event made for a declaration has the declared signature. -/
theorem MadeFor.holds_signature (h : now.MadeFor declaration definition)
    (hnone : (now.decls.statement declaration).shape ≠ .none)
    (hmethod : ∀ signature, (now.decls.statement declaration).shape ≠ .method signature) :
    now.Holds declaration definition .signature := by
  obtain ⟨record, hrecord, hsettled, hshape, -⟩ := h.rendered
  have hunknown := unknown_notMem_image_fill hsettled
  rw [← Shape.targets_relink] at hunknown
  refine ⟨record, hrecord, hsettled, ?_⟩
  rw [hshape]
  refine Shape.agree_self hunknown ?_ fun signature => ?_
  all_goals
    cases hstated : (now.decls.statement declaration).shape with
    | none => exact absurd hstated hnone
    | method signature => exact absurd hstated (hmethod signature)
    | field | property | event => simp [Shape.relink]

/-- A method made for a declaration has the declared result. -/
theorem MadeFor.holds_result {signature : MethodSig} (h : now.MadeFor declaration definition)
    (hmethod : (now.decls.statement declaration).shape = .method signature) :
    now.Holds declaration definition .result := by
  obtain ⟨record, hrecord, hsettled, hshape, -⟩ := h.rendered
  have hunknown := unknown_notMem_image_fill hsettled
  rw [← Shape.targets_relink] at hunknown
  refine ⟨record, hrecord, hsettled, ?_⟩
  rw [hshape]
  rw [hmethod] at hunknown ⊢
  exact Shape.resultsAgree_self hunknown

theorem mem_details_flags {decls : Declarations} {scheme : FlagScheme}
    (hscheme : declaration.kind.scheme? = some scheme) :
    .flags ∈ decls.details declaration := by
  rw [Declarations.mem_details]
  rintro hmodule
  simp [hmodule, SymbolKind.scheme?] at hscheme

/-- What changes a detail that does not hold does so where the module may be written to, and only the
log is longer by then. -/
theorem leads_checkAndLog {detail : Detail} {entry : LogEntry} {task : SessionTask Unit}
    (hsound : now.Sound) (hstack : now.stack = (declaration, some definition) :: rest)
    (hmem : detail ∈ now.decls.details declaration)
    (hsettled : now.answer.SettlesAll ((now.decls.statement declaration).targetsOf detail))
    (hnot : ¬ now.Holds declaration definition detail)
    (htask : ∀ next, now.After next → now.Like next → next.decls.Writable declaration →
      Leads asked bound next task fun _ last => last.Confirms declaration definition detail) :
    Leads asked bound now (do checkWritable declaration; log entry; task)
      fun _ next => next.Confirms declaration definition detail := by
  refine Leads.bind hsound (Leads.checkWritable fun hlocked _ =>
    .lockedDetail hstack hlocked hmem hsettled hnot) ?_
  rintro _ next - ⟨rfl, hwritable⟩
  refine Leads.bind hsound Leads.log_like fun _ next hafter hlike => ?_
  exact htask next hafter hlike (by rwa [hlike.decls])

/-- Merged flags are written unless they are there already. -/
theorem leads_reconcileFlags (bound : Option Nat) {scheme : FlagScheme} {nested : Bool}
    {store : UInt32 → SessionTask Unit} {change : UInt32 → Definitions → Definitions}
    (hsound : now.Sound) (hstack : now.stack = (declaration, some definition) :: rest)
    (hasked : asked declaration) (hscheme : declaration.kind.scheme? = some scheme)
    (hrecord : now.defs.record? definition = some record)
    (hnested : nested = (declaration.kind = .type && record.nature.owner.isSome))
    (hstore : ∀ flags, store flags = changeDefs (change flags))
    (hchanges : ∀ (defs : Definitions) flags, defs.Changes (change flags defs) definition
      (Record.alter ((Amendment.flags flags).apply ·))) :
    Leads asked bound now (Search.reconcileFlags scheme declaration nested record.details.flags
      (now.decls.statement declaration).flags store)
      fun _ next => next.Confirms declaration definition .flags := by
  unfold Search.reconcileFlags
  cases hflags : (now.decls.statement declaration).flags with
  | none => exact Leads.pure ⟨⟨record, hrecord, by simp [hflags]⟩, covers_nil⟩
  | some declared =>
      refine Leads.world ?_
      dsimp only
      split
      · rename_i hmerged
        refine Leads.pure ⟨⟨record, hrecord, ?_⟩, covers_nil⟩
        simp only [hscheme, hflags, Option.some.injEq]
        rintro _ _ rfl rfl
        rw [← hnested]
        exact hmerged
      · rename_i hdiffers
        have hnot : ¬ now.Holds declaration definition .flags := by
          rintro ⟨record', hrecord', hholds⟩
          obtain rfl := Option.some.inj (hrecord.symm.trans hrecord')
          exact hdiffers (hnested ▸ hholds scheme declared hscheme hflags)
        refine leads_checkAndLog hsound hstack (mem_details_flags hscheme) Answers.settlesAll_nil hnot
          fun next hafter hlike hwritable => ?_
        rw [hstore]
        refine Leads.amend (.flags _) (hafter.stack.trans hstack) hasked hwritable
          ⟨scheme, declared, record, hscheme, by rwa [hlike.decls],
            by rwa [hlike.defs], by rw [hlike.decls, hnested]⟩ (hchanges _ _) ?_
        refine ⟨⟨_, by simp [(hchanges _ _).record?, hlike.defs, hrecord]; rfl, ?_⟩, covers_nil⟩
        simp only [withDefs_decls, hlike.decls, hscheme, hflags, Option.some.injEq]
        rintro _ _ rfl rfl
        simp only [Record.alter, Amendment.apply, ← hnested]
        exact FlagScheme.merge_merge (masked_of_kind hscheme) ..

/-- The definition on top of the stack exists. -/
theorem Sound.has_top (hsound : now.Sound)
    (hstack : now.stack = (declaration, some definition) :: rest) :
    now.defs.has definition = true :=
  hsound.has_answer (hsound.answer_top hstack)

/-- On this stack anything may be asked for. -/
theorem lets_of_located (htop : stack = (declaration, some definition) :: rest)
    (other : Declaration) : Lets stack other := by
  rintro _ _ hunlocated
  cases htop.symm.trans hunlocated

/-- A detail of the definition on top of the stack that did not hold is made to hold. -/
theorem leads_amend {change : Definitions → Definitions} {detail : Detail}
    (amendment : Amendment) (hsound : now.Sound)
    (hstack : now.stack = (declaration, some definition) :: rest) (hasked : asked declaration)
    (hwritable : now.decls.Writable declaration)
    (hstated : amendment.Stated now declaration definition)
    (hchanges : ∀ defs : Definitions, defs.Changes (change defs) definition
      (Record.alter (amendment.apply ·)))
    (hcovers : now.Covers ((now.decls.statement declaration).targetsOf detail)
      ((now.decls.statement declaration).slotsOf detail))
    (h : ∀ record, now.defs.record? definition = some record →
      (now.withDefs (change now.defs)).defs.record? definition =
        some (record.alter (amendment.apply ·)) →
      (now.withDefs (change now.defs)).Holds declaration definition detail) :
    Leads asked bound now (changeDefs change) fun _ next =>
      next.Confirms declaration definition detail := by
  refine Leads.amend amendment hstack hasked hwritable hstated (hchanges _) ?_
  obtain ⟨record, hrecord⟩ := Definitions.has_iff.mp (hsound.has_top hstack)
  exact ⟨h record hrecord (by simp [(hchanges _).record?, hrecord]),
    ⟨hcovers.settled, hcovers.owned⟩⟩

/-- What was there before and agrees on a detail is confirmed to do so, and then to have the
declared flags. -/
theorem leads_confirmFlags {task : SessionTask Unit} {detail : Detail} (hsound : now.Sound)
    (hstack : now.stack = (declaration, some definition) :: rest)
    (hconfirms : now.Confirms declaration definition detail)
    (htask : ∀ next : Moment, next.Sound →
      next = { now with confirmed := (declaration, detail) :: now.confirmed } →
      Leads asked bound next task fun _ last => last.Confirms declaration definition .flags) :
    Leads asked bound now task fun _ next =>
      ∀ other ∈ [detail, .flags], (declaration, other) ∈ next.confirmed := by
  have hstep : Step asked {} now
      { now with confirmed := (declaration, detail) :: now.confirmed } :=
    .confirm hstack hconfirms.holds hconfirms.covers
  have hsound' := hstep.sound hsound
  refine LeadsTo.step hstep rfl (Leads.mono hsound'
    (Leads.confirm hsound' hstack (htask _ hsound' rfl)) ?_)
  intro _ next hafter hflags
  simp only [List.forall_mem_cons, List.not_mem_nil, false_implies, implies_true, and_true]
  exact ⟨hafter.later.confirmed _ List.mem_cons_self, hflags⟩

/-- Whether the definition on top of the stack is ready to be reconciled: all that its signature
says is known, and it is noted whether it was made. -/
structure Begun (now : Moment) (declaration : Declaration) (definition : Definition) (made : Bool) :
    Prop where
  covers : now.Covers (now.decls.statement declaration).shape.targets
    (now.decls.statement declaration).shape.slots
  rendered : made = true → now.MadeFor declaration definition
  noted : (declaration, definition) ∈ now.made ↔ made = true

/-- What was found was not made, and that stays so. -/
theorem Begun.notMem {next : Moment} (h : now.Begun declaration definition false)
    (hsound : now.Sound) (hstack : now.stack = (declaration, some definition) :: rest)
    (hafter : now.After next) : (declaration, definition) ∉ next.made :=
  fun hmem => by simpa using h.noted.mp ((hafter.made _ _ (hsound.answer_top hstack)).mp hmem)

/-- What was made agrees with its declaration from the beginning. -/
theorem leads_confirmMade {detail : Detail} (hbegun : now.Begun declaration definition true)
    (hsound : now.Sound) (hstack : now.stack = (declaration, some definition) :: rest)
    (hconfirms : now.Confirms declaration definition detail) :
    Leads asked bound now (pure ()) fun _ next =>
      ∀ other ∈ [detail, .flags], (declaration, other) ∈ next.confirmed := by
  refine leads_confirmFlags hsound hstack hconfirms ?_
  rintro next - rfl
  exact Leads.pure ⟨(hbegun.rendered rfl).holds_flags, covers_nil⟩

/-- What was found has to agree on a detail that is never changed. Then it gets the declared flags. -/
theorem leads_checkFixed (bound : Option Nat) {next : Moment} {check : Bool} {scheme : FlagScheme}
    {store : UInt32 → SessionTask Unit} {change : UInt32 → Definitions → Definitions}
    (detail : Detail) (hbegun : now.Begun declaration definition false) (hsound : now.Sound)
    (hstack : now.stack = (declaration, some definition) :: rest) (hafter : now.After next)
    (hasked : asked declaration) (hscheme : declaration.kind.scheme? = some scheme)
    (hkind : declaration.kind ≠ .type) (hrecord : next.defs.record? definition = some record)
    (hstore : ∀ flags, store flags = changeDefs (change flags))
    (hchanges : ∀ (defs : Definitions) flags, defs.Changes (change flags defs) definition
      (Record.alter ((Amendment.flags flags).apply ·)))
    (hfixed : detail.Fixed) (hmem : detail ∈ next.decls.details declaration)
    (hcovers : next.Covers ((next.decls.statement declaration).targetsOf detail)
      ((next.decls.statement declaration).slotsOf detail))
    (hcheck : check = true ↔ next.Holds declaration definition detail) (mismatch : Mismatch)
    (otherwise : Unit → SessionTask Unit) :
    Leads asked bound next
      (if check = true then Search.reconcileFlags scheme declaration false record.details.flags
        (next.decls.statement declaration).flags store
      else throw (.incompatible (next.world.declSymbol declaration) mismatch) >>= otherwise)
      fun _ last => ∀ other ∈ [detail, .flags], (declaration, other) ∈ last.confirmed := by
  have hstack' := hafter.stack.trans hstack
  split
  · rename_i hsame
    refine leads_confirmFlags hafter.sound hstack' ⟨hcheck.mp hsame, hcovers⟩ ?_
    rintro last hlast rfl
    exact leads_reconcileFlags bound hlast hstack' hasked hscheme hrecord (by simp [hkind]) hstore
      hchanges
  · rename_i hdiffers
    exact Leads.throw fun _ => .differs hstack' (hbegun.notMem hsound hstack hafter) hmem hfixed
      hcovers.settled fun hholds => hdiffers (hcheck.mpr hholds)

/-- What comes after a check that may fail does so only if it did not. -/
theorem check_bind {check : Bool} {error : Error} {task : SessionTask Unit}
    {remainder : Unit → SessionTask Unit} :
    (if check = true then task >>= remainder
      else (throw error : SessionTask Unit) >>= fun _ => task >>= remainder) =
    (if check = true then task else (throw error : SessionTask Unit) >>= fun _ => task) >>=
      remainder := by
  split
  · rfl
  · rw [bind_assoc]

/-- A detail holds if the record of the definition says so. -/
theorem exists_record_iff {P : Record → Prop} (hrecord : now.defs.record? definition = some record) :
    (∃ other, now.defs.record? definition = some other ∧ P other) ↔ P record := by
  simp [hrecord]

section Details

variable (hfinds : Finds asked bound stack search) (hsound : now.Sound) (hstack : now.stack = stack)
  (hclosed : now.decls.Closed asked)

include hfinds hsound hstack hclosed

section Types

variable {id : DeclId .type} {type : DefId .type} {made : Bool}
  (htop : stack = (.type id, some (.type type)) :: rest) (hasked : asked (.type id))

include htop hasked

/-- The declared base type is there, or it is set on a type that was just made. -/
theorem leads_reconcileBase (hwritable : made = true → now.decls.Writable (.type id))
    (hmade : (Declaration.type id, Definition.type type) ∈ now.made ↔ made = true) :
    Leads asked bound now (search.reconcileBase id type made)
      fun _ next => next.Confirms (.type id) (.type type) .base := by
  refine Leads.world ?_
  have hrecord := Definitions.record?_type (hsound.has_top (hstack.trans htop))
  have hmem : .base ∈ now.decls.details (.type id) := Declarations.mem_details.mpr rfl
  have hreads : Reads asked bound now _ _ :=
    reads_detail hclosed (hstack.trans htop) hasked hmem nofun
  simp only [Statement.targetsOf, Statement.slotsOf, Declarations.statement] at hreads
  cases hbase : (now.decls.type id).base with
  | none =>
      refine Leads.pure ⟨⟨_, hrecord, by simp [Declarations.statement, hbase]⟩, ?_⟩
      simp [Statement.targetsOf, Statement.slotsOf, Declarations.statement, hbase]
  | some declared =>
      rw [hbase] at hreads
      refine Leads.bind hsound (leads_resolveTypeRef hfinds hsound hstack declared hreads) ?_
      rintro _ next hafter ⟨hcovers, rfl⟩
      have hsettled := hcovers.settled
      have hdecls := hafter.later.decls
      have hmade' := (hafter.made _ _ (hsound.answer_top (hstack.trans htop))).trans hmade
      have hstack' := hafter.stack.trans (hstack.trans htop)
      have hrecord := Definitions.record?_type (hafter.sound.has_top hstack')
      have hstatement : (next.decls.statement (.type id)).base = some declared := by
        rw [hdecls]
        exact hbase
      -- The declared base type is all that the statement refers to under this detail.
      replace hcovers : next.Covers ((next.decls.statement (.type id)).targetsOf .base)
          ((next.decls.statement (.type id)).slotsOf .base) := by
        simpa [Statement.targetsOf, Statement.slotsOf, hstatement] using hcovers
      refine Leads.world ?_
      dsimp only
      split
      · rename_i hagrees
        obtain ⟨existing, hexisting, hsame⟩ := (Option.any_eq_true _ _).mp hagrees
        refine Leads.pure ⟨⟨_, hrecord, fun other hother => ?_⟩, hcovers⟩
        obtain rfl := Option.some.inj (hstatement.symm.trans hother)
        exact ⟨hsettled, existing, hexisting, hsame⟩
      · rename_i hagrees
        split
        · rename_i htrue
          refine leads_amend (.base (declared.relink next.fill)) hafter.sound hstack' hasked
            (hdecls ▸ hwritable htrue)
            ⟨declared, hstatement, hsettled, rfl, hmade'.mpr htrue⟩
            (fun _ => Definitions.updateType_changes fun _ => rfl) hcovers ?_
          rintro record - hrecord'
          refine ⟨_, hrecord', fun other hother => ?_⟩
          obtain rfl := Option.some.inj (hstatement.symm.trans hother)
          refine ⟨hsettled, _, rfl, TypeRef.same_self ?_⟩
          rw [TypeRef.targets_relink]
          exact unknown_notMem_image_fill hsettled
        · rename_i hfound
          have hmem' : .base ∈ next.decls.details (.type id) := hdecls ▸ hmem
          refine Leads.throw fun _ => .differs hstack' (fun hmem => hfound (hmade'.mp hmem)) hmem'
            trivial hcovers.settled ?_
          rintro ⟨record, hrecord', hholds⟩
          obtain rfl := Option.some.inj (hrecord.symm.trans hrecord')
          obtain ⟨-, existing, hexisting, hsame⟩ := hholds declared hstatement
          exact hagrees ((Option.any_eq_true _ _).mpr ⟨existing, hexisting, hsame⟩)

/-- A declared interface is there, or it is added. -/
theorem leads_reconcileInterface {declared : TypeRef} {front others : List TypeRef}
    (hsplit : (now.decls.type id).interfaces = front ++ declared :: others)
    (hfront : ∀ other ∈ front, (.type id, .interface other) ∈ now.confirmed) :
    Leads asked bound now (search.reconcileInterface id type declared)
      fun _ next => next.Confirms (.type id) (.type type) (.interface declared) := by
  have hmem : .interface declared ∈ now.decls.details (.type id) := by
    rw [Declarations.mem_details]
    change declared ∈ (now.decls.type id).interfaces
    simp [hsplit]
  have hreads : Reads asked bound now _ _ :=
    reads_detail hclosed (hstack.trans htop) hasked hmem nofun
  refine Leads.bind hsound (leads_resolveTypeRef hfinds hsound hstack declared hreads) ?_
  rintro _ next hafter ⟨hcovers, rfl⟩
  have hsettled := hcovers.settled
  have hdecls := hafter.later.decls
  have hstack' := hafter.stack.trans (hstack.trans htop)
  have hrecord := Definitions.record?_type (hafter.sound.has_top hstack')
  refine Leads.world ?_
  dsimp only
  split
  · rename_i hpresent
    obtain ⟨existing, hexisting, hsame⟩ := List.any_eq_true.mp hpresent
    exact Leads.pure ⟨⟨_, hrecord, hsettled, existing, hexisting, hsame⟩, hcovers⟩
  · rename_i habsent
    have hmem' : .interface declared ∈ next.decls.details (.type id) := hdecls ▸ hmem
    have hnot : ¬ next.Holds (.type id) (.type type) (.interface declared) := by
      rintro ⟨record, hrecord', -, existing, hexisting, hsame⟩
      obtain rfl := Option.some.inj (hrecord.symm.trans hrecord')
      exact habsent (List.any_eq_true.mpr ⟨existing, hexisting, hsame⟩)
    refine leads_checkAndLog hafter.sound hstack' hmem' hsettled hnot
      fun last hafter' hlike hwritable => ?_
    have hcovers' := hafter'.covers hcovers
    have hsettled' : last.answer.SettlesAll declared.targets := by rwa [hlike.answer]
    have hfill : next.fill = last.fill := congrArg Relink.fill hlike.answer.symm
    have hconfirmed (other : TypeRef) (hother : other ∈ front) :
        (Declaration.type id, Detail.interface other) ∈ last.confirmed :=
      (hafter.trans hafter').later.confirmed _ (hfront other hother)
    rw [hfill]
    refine leads_amend (.interface (declared.relink last.fill)) hafter'.sound
      (hafter'.stack.trans hstack') hasked hwritable
      ⟨front, declared, others, by rw [hlike.decls, hdecls]; exact hsplit, hsettled', rfl,
        hconfirmed, fun hholds => hnot (hlike.symm.holds hholds)⟩
      (fun _ => Definitions.updateType_changes fun _ => rfl) hcovers' ?_
    rintro record - hrecord'
    refine ⟨_, hrecord', hsettled', declared.relink last.fill,
      List.mem_append_right _ List.mem_cons_self, TypeRef.same_self ?_⟩
    rw [TypeRef.targets_relink]
    exact unknown_notMem_image_fill hsettled'

/-- The number of generic parameters agrees, or they are set on a type that was just made. -/
theorem leads_reconcileGenerics (hwritable : made = true → now.decls.Writable (.type id))
    (hmade : (Declaration.type id, Definition.type type) ∈ now.made ↔ made = true) :
    Leads asked bound now (search.reconcileGenerics id type made)
      fun _ next => next.Confirms (.type id) (.type type) .generics := by
  refine Leads.world ?_
  have hrecord := Definitions.record?_type (hsound.has_top (hstack.trans htop))
  have hmem : .generics ∈ now.decls.details (.type id) := Declarations.mem_details.mpr rfl
  have hreads : Reads asked bound now _ _ :=
    reads_detail hclosed (hstack.trans htop) hasked hmem nofun
  simp only [Statement.targetsOf, Statement.slotsOf, Declarations.statement] at hreads
  cases hgenerics : (now.decls.type id).generics with
  | none =>
      refine Leads.pure ⟨⟨_, hrecord, by simp [Declarations.statement, hgenerics]⟩, ?_⟩
      simp [Statement.targetsOf, Statement.slotsOf, Declarations.statement, hgenerics]
  | some declared =>
      rw [hgenerics] at hreads
      -- Each parameter stays resolved while the others are.
      have hparams : Leads asked bound now (declared.mapM search.resolveGenericParam)
          fun resolved next =>
            next.Covers (declared.flatMap GenericParam.targets)
                (declared.flatMap GenericParam.slots) ∧
              resolved = declared.map (GenericParam.relink next.fill) := by
        refine Leads.mono hsound (Leads.mapM
          (R := fun (param : GenericParam) resolved next =>
            next.Covers param.targets param.slots ∧ resolved = param.relink next.fill)
          ?_ hsound ?_) ?_
        · rintro param _ now next hafter ⟨hcovers, rfl⟩
          exact ⟨hafter.covers hcovers,
            (GenericParam.fill_mono hafter.answers hcovers.settled).symm⟩
        · intro param hparam next hafter
          exact leads_resolveGenericParam hfinds hafter.sound (hafter.stack.trans hstack) param
            (hafter.reads (hreads.item hparam))
        · intro resolved next _ hall
          obtain ⟨hcovers, rfl⟩ := forall₂_and_eq_map.mp hall
          exact ⟨covers_flatMap.mpr hcovers, rfl⟩
      refine Leads.bind hsound hparams ?_
      rintro _ next hafter ⟨hcovers, rfl⟩
      have hsettled := hcovers.settled
      have hdecls := hafter.later.decls
      have hstack' := hafter.stack.trans (hstack.trans htop)
      have hmade' := (hafter.made _ _ (hsound.answer_top (hstack.trans htop))).trans hmade
      have hstatement : (next.decls.statement (.type id)).generics = some declared := by
        rw [hdecls]
        exact hgenerics
      replace hcovers : next.Covers ((next.decls.statement (.type id)).targetsOf .generics)
          ((next.decls.statement (.type id)).slotsOf .generics) := by
        simpa [Statement.targetsOf, Statement.slotsOf, hstatement] using hcovers
      split
      · rename_i htrue
        refine leads_amend (.generics (declared.map (GenericParam.relink next.fill)))
          hafter.sound hstack' hasked (hdecls ▸ hwritable htrue)
          ⟨declared, hstatement, hsettled, rfl, hmade'.mpr htrue⟩
          (fun _ => Definitions.updateType_changes fun _ => rfl) hcovers ?_
        rintro record - hrecord'
        refine ⟨_, hrecord', fun other hother => ?_⟩
        obtain rfl := Option.some.inj (hstatement.symm.trans hother)
        simp [Record.alter, Amendment.apply]
      · rename_i hfound
        have hrecord := Definitions.record?_type (hafter.sound.has_top hstack')
        refine Leads.world ?_
        dsimp only
        split
        · rename_i hcount
          have hmem' : .generics ∈ next.decls.details (.type id) := hdecls ▸ hmem
          refine Leads.throw fun _ => .differs hstack' (fun hmem => hfound (hmade'.mp hmem)) hmem'
            trivial hcovers.settled ?_
          rintro ⟨record, hrecord', hholds⟩
          obtain rfl := Option.some.inj (hrecord.symm.trans hrecord')
          exact hcount (by simpa [TypeDef.record] using hholds declared hstatement)
        · rename_i hcount
          refine Leads.pure ⟨⟨_, hrecord, fun other hother => ?_⟩, hcovers⟩
          obtain rfl := Option.some.inj (hstatement.symm.trans hother)
          simpa [TypeDef.record] using hcount

end Types

/-- A declared override is there, or it is added. -/
theorem leads_reconcileOverride {id : DeclId .method} {method : DefId .method}
    {declared : Override} {front others : List Override}
    (htop : stack = (.method id, some (.method method)) :: rest) (hasked : asked (.method id))
    (hsplit : (now.decls.method id).overrides = front ++ declared :: others)
    (hfront : ∀ other ∈ front, (.method id, .override other) ∈ now.confirmed) :
    Leads asked bound now (search.reconcileOverride id method declared)
      fun _ next => next.Confirms (.method id) (.method method) (.override declared) := by
  have hmem : .override declared ∈ now.decls.details (.method id) := by
    rw [Declarations.mem_details]
    change declared ∈ (now.decls.method id).overrides
    simp [hsplit]
  have hreads : Reads asked bound now _ _ :=
    reads_detail hclosed (hstack.trans htop) hasked hmem nofun
  refine Leads.bind hsound (leads_resolveOverride hfinds hsound hstack (lets_of_located htop) declared
    hreads) ?_
  rintro _ next hafter ⟨hcovers, rfl⟩
  have hsettled := hcovers.settled
  have hdecls := hafter.later.decls
  have hstack' := hafter.stack.trans (hstack.trans htop)
  have hrecord := Definitions.record?_method (hafter.sound.has_top hstack')
  refine Leads.world ?_
  dsimp only
  split
  · rename_i hpresent
    obtain ⟨existing, hexisting, hsame⟩ := List.any_eq_true.mp hpresent
    rw [Bool.and_eq_true] at hsame
    exact Leads.pure ⟨⟨_, hrecord, hsettled, existing, hexisting, hsame⟩, hcovers⟩
  · rename_i habsent
    have hmem' : .override declared ∈ next.decls.details (.method id) := hdecls ▸ hmem
    have hnot : ¬ next.Holds (.method id) (.method method) (.override declared) := by
      rintro ⟨record, hrecord', -, existing, hexisting, hsame⟩
      obtain rfl := Option.some.inj (hrecord.symm.trans hrecord')
      refine habsent (List.any_eq_true.mpr ⟨existing, hexisting, ?_⟩)
      rw [Bool.and_eq_true]
      exact hsame
    refine leads_checkAndLog hafter.sound hstack' hmem' hsettled hnot
      fun last hafter' hlike hwritable => ?_
    have hcovers' := hafter'.covers hcovers
    have hsettled' : last.answer.SettlesAll declared.targets := by rwa [hlike.answer]
    have hfill : next.fill = last.fill := congrArg Relink.fill hlike.answer.symm
    have hconfirmed (other : Override) (hother : other ∈ front) :
        (Declaration.method id, Detail.override other) ∈ last.confirmed :=
      (hafter.trans hafter').later.confirmed _ (hfront other hother)
    rw [hfill]
    refine leads_amend (.override (declared.relink last.fill)) hafter'.sound
      (hafter'.stack.trans hstack') hasked hwritable
      ⟨front, declared, others, by rw [hlike.decls, hdecls]; exact hsplit, hsettled', rfl,
        hconfirmed, fun hholds => hnot (hlike.symm.holds hholds)⟩
      (fun _ => Definitions.updateMethod_changes fun _ => rfl) hcovers' ?_
    rintro record - hrecord'
    have hunknown := unknown_notMem_image_fill hsettled'
    rw [← Override.targets_relink, Override.targets, List.mem_append, not_or] at hunknown
    exact ⟨_, hrecord', hsettled', declared.relink last.fill,
      List.mem_append_right _ List.mem_cons_self, MethodRef.same_self hunknown.1,
      MethodRef.same_self hunknown.2⟩

/-- A declared accessor plays its part, or it is linked. -/
theorem leads_reconcileAccessor {present : World → Accessors}
    {store : (Accessors → Accessors) → SessionTask Unit}
    {change : (Accessors → Accessors) → Definitions → Definitions} {role : AccessorRole}
    {declared : DeclId .method} {front others : DeclaredAccessors}
    (htop : stack = (declaration, some definition) :: rest) (hasked : asked declaration)
    (hsplit : (now.decls.statement declaration).accessors = front ++ (role, declared) :: others)
    (hfront : ∀ other ∈ front, (declaration, .accessor other.1 other.2) ∈ now.confirmed)
    (hpresent : ∀ (world : World) record, world.defs.record? definition = some record →
      present world = record.details.accessors)
    (hstore : ∀ link, store link = changeDefs (change link))
    (hchanges : ∀ (defs : Definitions) method, defs.Changes
      (change (fun accessors => accessors.link role method) defs) definition
      (Record.alter ((Amendment.accessor role method).apply ·))) :
    Leads asked bound now (search.reconcileAccessor declaration definition present store role declared)
      fun _ next => next.Confirms declaration definition (.accessor role declared) := by
  have hmem : .accessor role declared ∈ now.decls.details declaration := by
    rw [Declarations.mem_details]
    simp [hsplit]
  have hasked' := hclosed.accessors _ _ _ hasked (Declarations.mem_details.mp hmem)
  refine Leads.bind hsound (leads_method hfinds hsound hstack hasked' (lets_of_located htop _)) ?_
  intro method next hafter hanswer
  have hdecls := hafter.later.decls
  have hstack' := hafter.stack.trans (hstack.trans htop)
  have hcovers : next.Covers [.declaration (.method declared)] [] := covers_declaration hanswer rfl
  obtain ⟨record, hrecord⟩ := Definitions.has_iff.mp (hafter.sound.has_top hstack')
  have hpresent' := hpresent next.world record hrecord
  refine Leads.world ?_
  split
  · rename_i hplays
    rw [hpresent', Accessors.plays, List.contains_iff_mem] at hplays
    exact Leads.pure ⟨⟨record, hrecord, method, hanswer, hplays⟩, hcovers⟩
  · rename_i habsent
    have hnot : ¬ next.Holds declaration definition (.accessor role declared) := by
      rintro ⟨record', hrecord', method', hanswer', hlinked⟩
      obtain rfl := Option.some.inj (hrecord.symm.trans hrecord')
      cases hanswer.symm.trans hanswer'
      exact habsent (hpresent' ▸ List.contains_iff_mem.mpr hlinked)
    have hmem' : .accessor role declared ∈ next.decls.details declaration := hdecls ▸ hmem
    refine leads_checkAndLog hafter.sound hstack' hmem' hcovers.settled hnot
      fun last hafter' hlike hwritable => ?_
    have hcovers' := hafter'.covers hcovers
    have hanswer' : last.answer (.method declared) = some (.method method) := by
      rwa [hlike.answer]
    rw [hstore]
    refine leads_amend (.accessor role method) hafter'.sound (hafter'.stack.trans hstack') hasked
      hwritable
      ⟨front, declared, others, by rw [hlike.decls, hdecls]; exact hsplit, hanswer',
        fun other hother => (hafter.trans hafter').later.confirmed _ (hfront other hother)⟩
      (fun _ => hchanges _ _) hcovers' ?_
    rintro record - hrecord'
    refine ⟨_, hrecord', method, hanswer', ?_⟩
    -- Linking adds the method unless it is there, so it is there after in both cases.
    change (role, method) ∈ if record.details.accessors.contains (role, method) then
      record.details.accessors else record.details.accessors ++ [(role, method)]
    split
    · rename_i hplays
      exact List.contains_iff_mem.mp hplays
    · exact List.mem_append_right _ List.mem_cons_self

/-- Everything that a declaration asks of a type is confirmed. -/
theorem leads_reconcileType {id : DeclId .type} {type : DefId .type} {made : Bool}
    (htop : stack = (.type id, some (.type type)) :: rest) (hasked : asked (.type id))
    (hbegun : now.Begun (.type id) (.type type) made) :
    Leads asked bound now (search.reconcileType id type made) fun _ next =>
      ∀ detail ∈ now.decls.details (.type id), (.type id, detail) ∈ next.confirmed := by
  have hflags : Leads asked bound now (if made = true then pure () else do
      let world ← SessionTask.world
      let record := world.defs.type type
      Search.reconcileFlags .type (.type id) record.owner.isSome record.flags
        (world.decls.type id).flags
        fun flags => changeDefs (·.updateType type fun record => { record with flags }))
      fun _ next => next.Confirms (.type id) (.type type) .flags := by
    cases made with
    | true => exact Leads.pure ⟨(hbegun.rendered rfl).holds_flags, covers_nil⟩
    | false =>
        have hrecord := Definitions.record?_type (hsound.has_top (hstack.trans htop))
        have hchanges (defs : Definitions) (flags : UInt32) :
            defs.Changes (defs.updateType type fun record => { record with flags }) (.type type)
              (Record.alter ((Amendment.flags flags).apply ·)) :=
          Definitions.updateType_changes fun _ => rfl
        have hcheck := leads_reconcileFlags bound hsound (hstack.trans htop) hasked rfl hrecord
          rfl (fun _ => rfl) hchanges
        exact Leads.world hcheck
  -- A type that was made has its flags already. All that follows is the same for both.
  suffices h : ∀ next, now.After next → (.type id, .flags) ∈ next.confirmed →
      Leads asked bound next (do
        search.reconcileBase id type made
        ((← SessionTask.world).decls.type id).interfaces.forM (search.reconcileInterface id type)
        search.reconcileGenerics id type made) fun _ last =>
        ∀ detail ∈ now.decls.details (.type id), (.type id, detail) ∈ last.confirmed by
    have hall := Leads.bind hsound (Leads.confirm hsound (hstack.trans htop) hflags) fun _ => h
    unfold Search.reconcileType
    cases made with
    | true => exact hall
    | false => rwa [if_neg Bool.false_ne_true, bind_assoc] at hall
  intro next hafter hflags
  have hwritable : made = true → now.decls.Writable (.type id) := fun h => (hbegun.rendered h).writable
  have hanswer := hsound.answer_top (hstack.trans htop)
  have hstack₁ := hafter.stack.trans hstack
  have hclosed₁ := hafter.later.decls ▸ hclosed
  refine Leads.bind hafter.sound (Leads.confirm hafter.sound (hstack₁.trans htop)
    (leads_reconcileBase hfinds hafter.sound hstack₁ hclosed₁ htop hasked
      (hafter.later.decls ▸ hwritable) ((hafter.made _ _ hanswer).trans hbegun.noted))) ?_
  intro _ next₂ hafter₂ hbase
  have hboth := hafter.trans hafter₂
  have hdecls₂ := hboth.later.decls
  refine Leads.world (Leads.bind hafter₂.sound (Leads.forM
    (R := fun type next => (Declaration.type id, Detail.interface type) ∈ next.confirmed)
    (fun _ _ _ hafter hmem => hafter.later.confirmed _ hmem) hafter₂.sound ?_) ?_)
  · intro front interface others hsplit next₃ hafter₃ hfront
    have hstack₃ := (hboth.trans hafter₃).stack.trans hstack
    have hdecls₃ := hafter₃.later.decls
    have hsplit' : (next₃.decls.type id).interfaces = front ++ interface :: others := by
      rw [hdecls₃]
      exact hsplit
    exact Leads.confirm hafter₃.sound (hstack₃.trans htop) (leads_reconcileInterface hfinds
      hafter₃.sound hstack₃ ((hboth.trans hafter₃).later.decls ▸ hclosed) htop hasked hsplit'
      hfront)
  intro _ next₃ hafter₃ hinterfaces
  have hall := hboth.trans hafter₃
  have hstack₃ := hall.stack.trans hstack
  have hdecls₃ := hall.later.decls
  refine Leads.mono hafter₃.sound (Leads.confirm hafter₃.sound (hstack₃.trans htop)
    (leads_reconcileGenerics hfinds hafter₃.sound hstack₃ (hdecls₃ ▸ hclosed) htop hasked
      (hdecls₃ ▸ hwritable) ((hall.made _ _ hanswer).trans hbegun.noted))) ?_
  intro _ last hlast hgenerics detail hmem
  simp only [Declarations.details, List.cons_append, List.nil_append, List.mem_cons,
    List.mem_map] at hmem
  rcases hmem with rfl | rfl | rfl | ⟨interface, hmem, rfl⟩
  · exact (hafter₂.trans (hafter₃.trans hlast)).later.confirmed _ hflags
  · exact (hafter₃.trans hlast).later.confirmed _ hbase
  · exact hgenerics
  · refine hlast.later.confirmed _ (hinterfaces _ ?_)
    change interface ∈ (next₂.decls.type id).interfaces
    rw [hdecls₂]
    exact hmem

/-- The signature and the flags of a field are confirmed. -/
theorem leads_reconcileField {id : DeclId .field} {field : DefId .field} {made : Bool}
    (htop : stack = (.field id, some (.field field)) :: rest) (hasked : asked (.field id))
    (hbegun : now.Begun (.field id) (.field field) made) :
    Leads asked bound now (search.reconcileField id field made) fun _ next =>
      ∀ detail ∈ now.decls.details (.field id), (.field id, detail) ∈ next.confirmed := by
  unfold Search.reconcileField
  cases made with
  | true =>
      have hsignature := (hbegun.rendered rfl).holds_signature (by simp [Declarations.statement])
        (by simp [Declarations.statement])
      exact leads_confirmMade hbegun hsound (hstack.trans htop) ⟨hsignature, hbegun.covers⟩
  | false =>
      refine Leads.world (Leads.bind hsound (leads_resolveTypeSig hfinds hsound hstack _
        (reads_shape hclosed (hstack.trans htop) hasked)) ?_)
      rintro _ next hafter ⟨hcovers, rfl⟩
      rw [← show next.world.decls = now.world.decls from hafter.later.decls] at hcovers ⊢
      have hrecord := Definitions.record?_field
        (hafter.sound.has_top ((hafter.stack.trans hstack).trans htop))
      have hchanges (defs : Definitions) (flags : UInt32) :
          defs.Changes (defs.updateField field fun record => { record with flags })
            (.field field) (Record.alter ((Amendment.flags flags).apply ·)) :=
        Definitions.updateField_changes fun _ => rfl
      have hchecked := leads_checkFixed bound .signature hbegun hsound (hstack.trans htop) hafter hasked
        rfl (by simp [Declaration.kind]) hrecord (fun _ => rfl) hchanges trivial
        (Declarations.mem_details.mpr (.inl rfl)) hcovers
        ((exists_record_iff hrecord).trans (and_iff_right hcovers.settled)).symm
      exact Leads.world (hchecked _ _)

/-- The result and the flags of a method are confirmed, and then its overrides. -/
theorem leads_reconcileMethod {id : DeclId .method} {method : DefId .method} {made : Bool}
    (htop : stack = (.method id, some (.method method)) :: rest) (hasked : asked (.method id))
    (hoverload : (.method id, .overload) ∈ now.confirmed)
    (hbegun : now.Begun (.method id) (.method method) made) :
    Leads asked bound now (search.reconcileMethod id method made) fun _ next =>
      ∀ detail ∈ now.decls.details (.method id), (.method id, detail) ∈ next.confirmed := by
  -- What was made passes over the check, and the overrides follow in both cases.
  suffices h : ∀ next, now.After next →
      (∀ detail ∈ [.result, .flags], (.method id, detail) ∈ next.confirmed) →
      Leads asked bound next (do
        ((← SessionTask.world).decls.method id).overrides.forM
          (search.reconcileOverride id method)) fun _ last =>
        ∀ detail ∈ now.decls.details (.method id), (.method id, detail) ∈ last.confirmed by
    unfold Search.reconcileMethod
    cases made with
    | true =>
        have hresult := (hbegun.rendered rfl).holds_result rfl
        have hall := Leads.bind hsound (leads_confirmMade hbegun hsound (hstack.trans htop)
          ⟨hresult, hbegun.covers⟩) fun _ => h
        exact hall
    | false =>
        refine Leads.world (Leads.bind hsound (leads_resolveMethodSig hfinds hsound hstack _
          (reads_shape hclosed (hstack.trans htop) hasked)) ?_)
        rintro _ next hafter ⟨hcovers, rfl⟩
        rw [← show next.world.decls = now.world.decls from hafter.later.decls] at hcovers ⊢
        have hrecord := Definitions.record?_method
          (hafter.sound.has_top ((hafter.stack.trans hstack).trans htop))
        have hchanges (defs : Definitions) (flags : UInt32) :
            defs.Changes (defs.updateMethod method fun record => { record with flags })
              (.method method) (Record.alter ((Amendment.flags flags).apply ·)) :=
          Definitions.updateMethod_changes fun _ => rfl
        have hchecked := leads_checkFixed bound .result hbegun hsound (hstack.trans htop) hafter hasked
          rfl (by simp [Declaration.kind]) hrecord (fun _ => rfl) hchanges trivial
          (Declarations.mem_details.mpr rfl) hcovers ((exists_record_iff hrecord).trans (and_iff_right hcovers.settled)).symm
        refine Leads.world ?_
        dsimp only
        rw [check_bind]
        exact Leads.bind hafter.sound (hchecked _ _) fun _ last hlast => h last (hafter.trans hlast)
  intro next hafter hconfirmed
  refine Leads.world (Leads.mono hafter.sound (Leads.forM
    (R := fun item next => (Declaration.method id, Detail.override item) ∈ next.confirmed)
    (fun _ _ _ hafter hmem => hafter.later.confirmed _ hmem) hafter.sound ?_) ?_)
  · intro front item others hsplit next₂ hafter₂ hfront
    have hall := hafter.trans hafter₂
    have hstack₂ := hall.stack.trans hstack
    have hsplit' : (next₂.decls.method id).overrides = front ++ item :: others := by
      rw [hafter₂.later.decls]
      exact hsplit
    exact Leads.confirm hafter₂.sound (hstack₂.trans htop)
      (leads_reconcileOverride hfinds hafter₂.sound hstack₂ (hall.later.decls ▸ hclosed) htop
        hasked hsplit' hfront)
  intro _ last hlast hoverrides detail hmem
  simp only [Declarations.details, List.cons_append, List.nil_append, List.mem_cons,
    List.mem_map] at hmem
  rcases hmem with rfl | rfl | rfl | ⟨item, hmem, rfl⟩
  · exact (hafter.trans hlast).later.confirmed _ hoverload
  · exact hlast.later.confirmed _ (hconfirmed _ (by simp))
  · exact hlast.later.confirmed _ (hconfirmed _ (by simp))
  · refine hoverrides _ ?_
    change item ∈ (next.decls.method id).overrides
    rw [hafter.later.decls]
    exact hmem

/-- Declared accessors are linked one after another, once all else has been confirmed. -/
theorem leads_reconcileAccessors {present : World → Accessors}
    {store : (Accessors → Accessors) → SessionTask Unit}
    {change : (Accessors → Accessors) → Definitions → Definitions}
    {accessors : DeclaredAccessors} (htop : stack = (declaration, some definition) :: rest)
    (hasked : asked declaration)
    (haccessors : (now.decls.statement declaration).accessors = accessors)
    (hpresent : ∀ (world : World) record, world.defs.record? definition = some record →
      present world = record.details.accessors)
    (hstore : ∀ link, store link = changeDefs (change link))
    (hchanges : ∀ (defs : Definitions) role method, defs.Changes
      (change (fun accessors => accessors.link role method) defs) definition
      (Record.alter ((Amendment.accessor role method).apply ·)))
    (hdetails : now.decls.details declaration =
      [.signature, .flags] ++ accessors.map fun (role, method) => .accessor role method)
    (hconfirmed : ∀ detail ∈ [.signature, .flags], (declaration, detail) ∈ now.confirmed) :
    Leads asked bound now
      (accessors.forM fun (role, declared) =>
        search.reconcileAccessor declaration definition present store role declared)
      fun _ next => ∀ detail ∈ now.decls.details declaration,
        (declaration, detail) ∈ next.confirmed := by
  refine Leads.mono hsound (Leads.forM
    (R := fun (entry : AccessorRole × DeclId .method) next =>
      (declaration, Detail.accessor entry.1 entry.2) ∈ next.confirmed)
    (fun _ _ _ hafter hmem => hafter.later.confirmed _ hmem) hsound ?_) ?_
  · rintro front ⟨role, declared⟩ others hsplit next hafter hfront
    have hdecls := hafter.later.decls
    have hstack' := hafter.stack.trans hstack
    have hsplit' : (next.decls.statement declaration).accessors =
        front ++ (role, declared) :: others := by rw [hdecls, haccessors, hsplit]
    exact Leads.confirm hafter.sound (hstack'.trans htop)
      (leads_reconcileAccessor hfinds hafter.sound hstack' (hdecls ▸ hclosed) htop
        hasked hsplit' hfront hpresent hstore fun defs => hchanges defs role)
  · intro _ next hafter haccessors detail hmem
    rw [hdetails, List.mem_append] at hmem
    obtain hmem | hmem := hmem
    · exact hafter.later.confirmed _ (hconfirmed detail hmem)
    · obtain ⟨⟨role, declared⟩, hentry, rfl⟩ := List.mem_map.mp hmem
      exact haccessors _ hentry

/-- The signature and the flags of a property are confirmed, and then its accessors. -/
theorem leads_reconcileProperty {id : DeclId .property} {property : DefId .property} {made : Bool}
    (htop : stack = (.property id, some (.property property)) :: rest) (hasked : asked (.property id))
    (hbegun : now.Begun (.property id) (.property property) made) :
    Leads asked bound now (search.reconcileProperty id property made) fun _ next =>
      ∀ detail ∈ now.decls.details (.property id), (.property id, detail) ∈ next.confirmed := by
  have hstore (defs : Definitions) (role : AccessorRole) (method : DefId .method) :
      defs.Changes (defs.updateProperty property fun record =>
          { record with accessors := record.accessors.link role method })
        (.property property) (Record.alter ((Amendment.accessor role method).apply ·)) :=
    Definitions.updateProperty_changes fun _ => rfl
  suffices h : ∀ next, now.After next →
      (∀ detail ∈ [.signature, .flags], (.property id, detail) ∈ next.confirmed) →
      Leads asked bound next (do
        ((← SessionTask.world).decls.property id).accessors.forM fun (role, declared) =>
          search.reconcileAccessor (.property id) (.property property)
            (fun world => (world.defs.property property).accessors)
            (fun change => changeDefs (·.updateProperty property fun record =>
              { record with accessors := change record.accessors }))
            role declared) fun _ last =>
        ∀ detail ∈ now.decls.details (.property id), (.property id, detail) ∈ last.confirmed by
    unfold Search.reconcileProperty
    cases made with
    | true =>
        have hsignature := (hbegun.rendered rfl).holds_signature (by simp [Declarations.statement])
          (by simp [Declarations.statement])
        have hall := Leads.bind hsound (leads_confirmMade hbegun hsound (hstack.trans htop)
          ⟨hsignature, hbegun.covers⟩) fun _ => h
        exact hall
    | false =>
        refine Leads.world (Leads.bind hsound (leads_resolvePropertySig hfinds hsound hstack _
          (reads_shape hclosed (hstack.trans htop) hasked)) ?_)
        rintro _ next hafter ⟨hcovers, rfl⟩
        rw [← show next.world.decls = now.world.decls from hafter.later.decls] at hcovers ⊢
        have hrecord := Definitions.record?_property
          (hafter.sound.has_top ((hafter.stack.trans hstack).trans htop))
        have hchanges (defs : Definitions) (flags : UInt32) :
            defs.Changes (defs.updateProperty property fun record => { record with flags })
              (.property property) (Record.alter ((Amendment.flags flags).apply ·)) :=
          Definitions.updateProperty_changes fun _ => rfl
        have hchecked := leads_checkFixed bound .signature hbegun hsound (hstack.trans htop) hafter
          hasked rfl (by simp [Declaration.kind]) hrecord (fun _ => rfl) hchanges trivial
          (Declarations.mem_details.mpr (.inr (.inl rfl))) hcovers
          ((exists_record_iff hrecord).trans (and_iff_right hcovers.settled)).symm
        refine Leads.world ?_
        dsimp only
        rw [check_bind]
        exact Leads.bind hafter.sound (hchecked _ _) fun _ last hlast => h last (hafter.trans hlast)
  intro next hafter hconfirmed
  have hdecls := hafter.later.decls
  rw [← hdecls]
  refine Leads.world (leads_reconcileAccessors hfinds hafter.sound (hafter.stack.trans hstack)
    (hdecls ▸ hclosed) htop hasked rfl (fun world record hrecord => ?_) (fun _ => rfl) hstore rfl
    hconfirmed)
  rw [Definitions.record?_property (Definitions.has_iff.mpr ⟨record, hrecord⟩)] at hrecord
  cases hrecord
  rfl

/-- The signature and the flags of an event are confirmed, and then its accessors. -/
theorem leads_reconcileEvent {id : DeclId .event} {event : DefId .event} {made : Bool}
    (htop : stack = (.event id, some (.event event)) :: rest) (hasked : asked (.event id))
    (hbegun : now.Begun (.event id) (.event event) made) :
    Leads asked bound now (search.reconcileEvent id event made) fun _ next =>
      ∀ detail ∈ now.decls.details (.event id), (.event id, detail) ∈ next.confirmed := by
  have hstore (defs : Definitions) (role : AccessorRole) (method : DefId .method) :
      defs.Changes (defs.updateEvent event fun record =>
          { record with accessors := record.accessors.link role method })
        (.event event) (Record.alter ((Amendment.accessor role method).apply ·)) :=
    Definitions.updateEvent_changes fun _ => rfl
  suffices h : ∀ next, now.After next →
      (∀ detail ∈ [.signature, .flags], (.event id, detail) ∈ next.confirmed) →
      Leads asked bound next (do
        ((← SessionTask.world).decls.event id).accessors.forM fun (role, declared) =>
          search.reconcileAccessor (.event id) (.event event)
            (fun world => (world.defs.event event).accessors)
            (fun change => changeDefs (·.updateEvent event fun record =>
              { record with accessors := change record.accessors }))
            role declared) fun _ last =>
        ∀ detail ∈ now.decls.details (.event id), (.event id, detail) ∈ last.confirmed by
    unfold Search.reconcileEvent
    cases made with
    | true =>
        have hsignature := (hbegun.rendered rfl).holds_signature (by simp [Declarations.statement])
          (by simp [Declarations.statement])
        have hall := Leads.bind hsound (leads_confirmMade hbegun hsound (hstack.trans htop)
          ⟨hsignature, hbegun.covers⟩) fun _ => h
        exact hall
    | false =>
        refine Leads.world (Leads.bind hsound (leads_resolveTypeRef hfinds hsound hstack _
          (reads_shape hclosed (hstack.trans htop) hasked)) ?_)
        rintro _ next hafter ⟨hcovers, rfl⟩
        rw [← show next.world.decls = now.world.decls from hafter.later.decls] at hcovers ⊢
        have hrecord := Definitions.record?_event
          (hafter.sound.has_top ((hafter.stack.trans hstack).trans htop))
        have hchanges (defs : Definitions) (flags : UInt32) :
            defs.Changes (defs.updateEvent event fun record => { record with flags })
              (.event event) (Record.alter ((Amendment.flags flags).apply ·)) :=
          Definitions.updateEvent_changes fun _ => rfl
        have hchecked := leads_checkFixed bound .signature hbegun hsound (hstack.trans htop) hafter
          hasked rfl (by simp [Declaration.kind]) hrecord (fun _ => rfl) hchanges trivial
          (Declarations.mem_details.mpr (.inr (.inr rfl))) hcovers
          ((exists_record_iff hrecord).trans (and_iff_right hcovers.settled)).symm
        refine Leads.world ?_
        dsimp only
        rw [check_bind]
        exact Leads.bind hafter.sound (hchecked _ _) fun _ last hlast => h last (hafter.trans hlast)
  intro next hafter hconfirmed
  have hdecls := hafter.later.decls
  rw [← hdecls]
  refine Leads.world (leads_reconcileAccessors hfinds hafter.sound (hafter.stack.trans hstack)
    (hdecls ▸ hclosed) htop hasked rfl (fun world record hrecord => ?_) (fun _ => rfl) hstore rfl
    hconfirmed)
  rw [Definitions.record?_event (Definitions.has_iff.mpr ⟨record, hrecord⟩)] at hrecord
  cases hrecord
  rfl

/-- Everything that a declaration asks of its definition is confirmed. -/
theorem leads_reconcile {made : Bool} (htop : stack = (declaration, some definition) :: rest)
    (hasked : asked declaration) (hkind : definition.kind = declaration.kind)
    (hoverload : declaration.kind = .method → (declaration, .overload) ∈ now.confirmed)
    (hbegun : now.Begun declaration definition made) :
    Leads asked bound now (search.reconcile declaration definition made) fun _ next =>
      ∀ detail ∈ now.decls.details declaration, (declaration, detail) ∈ next.confirmed := by
  cases declaration <;> cases definition <;> cases hkind
  case module => exact Leads.pure (by simp [Declarations.details])
  case type =>
    exact leads_reconcileType hfinds hsound hstack hclosed htop hasked hbegun
  case field => exact leads_reconcileField hfinds hsound hstack hclosed htop hasked hbegun
  case method =>
    exact leads_reconcileMethod hfinds hsound hstack hclosed htop hasked (hoverload rfl) hbegun
  case property => exact leads_reconcileProperty hfinds hsound hstack hclosed htop hasked hbegun
  case event => exact leads_reconcileEvent hfinds hsound hstack hclosed htop hasked hbegun

end Details

end Graft.Moment
