import Graft.Proofs.Session.Leads

/-!
# Resolving references fills them in

If a search answers what declarations stand for, then resolving a reference with it settles every
target of the reference and puts in the definitions that the declarations stand for. The shape of a
signature stays, and so do the owners of generic variables.
-/

namespace Graft.Moment

variable {asked : Declaration → Prop} {bound : Option Nat} {now : Moment} {stack : InFlight}
  {search : Search}

/-- Whether a search answers for the declarations that may be asked for, on a given stack. -/
def Finds (asked : Declaration → Prop) (bound : Option Nat) (stack : InFlight) (search : Search) :
    Prop :=
  ∀ now : Moment, now.Sound → now.stack = stack → ∀ declaration, asked declaration →
    Lets stack declaration → Leads asked bound now (search declaration) fun definition next =>
      next.answer declaration = some definition

/-- Whether all declarations that some targets lead to are among those asked for. -/
def Asks (asked : Declaration → Prop) (decls : Declarations) (targets : List Target) : Prop :=
  ∀ declaration, .declaration declaration ∈ targets → decls.has declaration = true →
    asked declaration

@[simp] theorem asks_append {decls : Declarations} {targets targets' : List Target} :
    Asks asked decls (targets ++ targets') ↔
      Asks asked decls targets ∧ Asks asked decls targets' := by
  simp only [Asks, List.mem_append]
  constructor
  · exact fun h => ⟨fun m hm => h m (.inl hm), fun m hm => h m (.inr hm)⟩
  · rintro ⟨h, h'⟩ m (hm | hm)
    · exact h m hm
    · exact h' m hm

theorem asks_flatMap {ι : Type} {decls : Declarations} {items : List ι} {f : ι → List Target} :
    Asks asked decls (items.flatMap f) ↔ ∀ item ∈ items, Asks asked decls (f item) := by
  simp only [Asks, List.mem_flatMap]
  exact ⟨fun h item hi m hm => h m ⟨item, hi, hm⟩, fun h m ⟨item, hi, hm⟩ => h item hi m hm⟩

theorem After.asks {next : Moment} {targets : List Target} (h : now.After next)
    (hasks : Asks asked now.decls targets) : Asks asked next.decls targets := by
  rwa [h.later.decls]

/-- Whether all that a reference leads to may be asked for, and where faults are explained is stated
by the declaration on top of the stack. -/
structure Reads (asked : Declaration → Prop) (bound : Option Nat) (now : Moment)
    (targets : List Target) (slots : List SlotId) : Prop where
  asks : Asks asked now.decls targets
  mentions : bound ≠ none → now.Mentions targets slots

theorem Asks.reads {targets : List Target} {slots : List SlotId}
    (hasks : Asks asked now.decls targets) : Reads asked none now targets slots :=
  ⟨hasks, fun hnone => absurd rfl hnone⟩

theorem After.reads {next : Moment} {targets : List Target} {slots : List SlotId}
    (h : now.After next) (hreads : Reads asked bound now targets slots) :
    Reads asked bound next targets slots :=
  ⟨h.asks hreads.asks, fun hbound => h.mentions (hreads.mentions hbound)⟩

@[simp] theorem covers_append {targets targets' : List Target} {slots slots' : List SlotId} :
    now.Covers (targets ++ targets') (slots ++ slots') ↔
      now.Covers targets slots ∧ now.Covers targets' slots' := by
  constructor
  · rintro ⟨hsettled, howned⟩
    rw [Answers.settlesAll_append] at hsettled
    rw [List.forall_mem_append] at howned
    exact ⟨⟨hsettled.1, howned.1⟩, hsettled.2, howned.2⟩
  · rintro ⟨h, h'⟩
    exact ⟨Answers.settlesAll_append.mpr ⟨h.settled, h'.settled⟩,
      List.forall_mem_append.mpr ⟨h.owned, h'.owned⟩⟩

theorem covers_flatMap {ι : Type} {items : List ι} {f : ι → List Target} {g : ι → List SlotId} :
    now.Covers (items.flatMap f) (items.flatMap g) ↔ ∀ item ∈ items, now.Covers (f item) (g item) := by
  constructor
  · rintro ⟨hsettled, howned⟩ item hmem
    exact ⟨Answers.settlesAll_flatMap.mp hsettled item hmem, fun slot hslot =>
      howned slot (List.mem_flatMap.mpr ⟨item, hmem, hslot⟩)⟩
  · refine fun h => ⟨Answers.settlesAll_flatMap.mpr fun item hmem => (h item hmem).settled, ?_⟩
    intro slot hslot
    obtain ⟨item, hmem, hslot⟩ := List.mem_flatMap.mp hslot
    exact (h item hmem).owned slot hslot

@[simp] theorem covers_nil : now.Covers [] [] :=
  ⟨Answers.settlesAll_nil, by simp⟩

section Reads

variable {targets targets' : List Target} {slots slots' : List SlotId}

theorem Reads.left (h : Reads asked bound now (targets ++ targets') (slots ++ slots')) :
    Reads asked bound now targets slots :=
  ⟨(asks_append.mp h.asks).1, fun hbound => (h.mentions hbound).left⟩

theorem Reads.right (h : Reads asked bound now (targets ++ targets') (slots ++ slots')) :
    Reads asked bound now targets' slots' :=
  ⟨(asks_append.mp h.asks).2, fun hbound => (h.mentions hbound).right⟩

theorem Reads.item {ι : Type} {items : List ι} {f : ι → List Target} {g : ι → List SlotId}
    (h : Reads asked bound now (items.flatMap f) (items.flatMap g)) {item : ι} (hmem : item ∈ items) :
    Reads asked bound now (f item) (g item) :=
  ⟨asks_flatMap.mp h.asks item hmem,
    fun hbound => (h.mentions hbound).mono
      (fun _ htarget => List.mem_flatMap.mpr ⟨item, hmem, htarget⟩)
      fun _ hslot => List.mem_flatMap.mpr ⟨item, hmem, hslot⟩⟩

end Reads

section Stated

variable {declaration : Declaration} {found : Option Definition} {rest : InFlight}
  (hclosed : now.decls.Closed asked) (hstack : now.stack = (declaration, found) :: rest)
  (hasked : asked declaration)

include hclosed hstack hasked

/-- What the innermost declaration states about a detail may be asked for. -/
theorem reads_detail {detail : Detail} (hmem : detail ∈ now.decls.details declaration)
    (hrole : ∀ role method, detail ≠ .accessor role method) :
    Reads asked bound now ((now.decls.statement declaration).targetsOf detail)
      ((now.decls.statement declaration).slotsOf detail) where
  asks other htarget :=
    hclosed.stated _ other hasked (Statement.targetsOf_subset hmem hrole htarget)
  mentions _ := ⟨declaration, found, rest, hstack, Statement.targetsOf_subset hmem hrole,
    Statement.slotsOf_subset hmem⟩

/-- What the signature of the innermost declaration refers to may be asked for. -/
theorem reads_shape : Reads asked bound now (now.decls.statement declaration).shape.targets
    (now.decls.statement declaration).shape.slots where
  asks other htarget := hclosed.stated _ other hasked (by simp [Statement.targets, htarget])
  mentions _ := ⟨declaration, found, rest, hstack, fun _ hmem => by simp [Statement.targets, hmem],
    fun _ hmem => by simp [Statement.slots, hmem]⟩

end Stated

@[simp] theorem covers_definition {definition : Definition} : now.Covers [.definition definition] [] :=
  ⟨by simp [Answers.SettlesAll, Answers.Settles], by simp⟩

theorem covers_declaration {declaration : Declaration} {definition : Definition}
    (hanswer : now.answer declaration = some definition)
    (hkind : definition.kind = declaration.kind) : now.Covers [.declaration declaration] [] :=
  ⟨by simp [Answers.SettlesAll, Answers.Settles, hanswer, hkind], by simp⟩

section Kinds

variable (hfinds : Finds asked bound stack search) (hsound : now.Sound) (hstack : now.stack = stack)

include hfinds hsound hstack

theorem leads_type {id : DeclId .type} (hasked : asked (.type id)) :
    Leads asked bound now (search.type id) fun found next =>
      next.answer (.type id) = some (.type found) := by
  refine Leads.bind hsound (hfinds now hsound hstack _ hasked fun _ _ _ => rfl) ?_
  intro found next hafter hanswer
  have hkind := hafter.sound.kinds _ _ hanswer
  cases found with
  | type found => exact Leads.pure hanswer
  | _ => cases hkind

theorem leads_field {id : DeclId .field} (hasked : asked (.field id))
    (hlets : Lets stack (.field id)) :
    Leads asked bound now (search.field id) fun found next =>
      next.answer (.field id) = some (.field found) := by
  refine Leads.bind hsound (hfinds now hsound hstack _ hasked hlets) ?_
  intro found next hafter hanswer
  have hkind := hafter.sound.kinds _ _ hanswer
  cases found with
  | field found => exact Leads.pure hanswer
  | _ => cases hkind

theorem leads_method {id : DeclId .method} (hasked : asked (.method id))
    (hlets : Lets stack (.method id)) :
    Leads asked bound now (search.method id) fun found next =>
      next.answer (.method id) = some (.method found) := by
  refine Leads.bind hsound (hfinds now hsound hstack _ hasked hlets) ?_
  intro found next hafter hanswer
  have hkind := hafter.sound.kinds _ _ hanswer
  cases found with
  | method found => exact Leads.pure hanswer
  | _ => cases hkind

theorem leads_module {id : DeclId .module} (hasked : asked (.module id)) :
    Leads asked bound now (search.module id) fun found next =>
      next.answer (.module id) = some (.module found) := by
  refine Leads.bind hsound (hfinds now hsound hstack _ hasked fun _ _ _ => rfl) ?_
  intro found next hafter hanswer
  have hkind := hafter.sound.kinds _ _ hanswer
  cases found with
  | module found => exact Leads.pure hanswer
  | _ => cases hkind

end Kinds

theorem leads_checkLiving {declaration : Declaration} {slots : List SlotId}
    (hmentions : bound ≠ none → now.Mentions [.declaration declaration] slots) :
    Leads asked bound now (Search.checkLiving declaration) fun _ next =>
      next = now ∧ now.decls.has declaration = true := by
  refine Leads.world ?_
  by_cases h : now.decls.has declaration = true
  · rw [if_pos h]
    exact Leads.pure ⟨rfl, h⟩
  · rw [if_neg h]
    refine Leads.throw fun hbound => ?_
    obtain ⟨top, found, rest, htop, hstated, -⟩ := hmentions (by simp [hbound])
    exact .gone htop (hstated List.mem_cons_self) (Bool.eq_false_iff.mpr h)

theorem leads_checkOwner {kind : VarKind} {index : UInt32} {owner : VarOwner}
    {targets : List Target} (hmentions : bound ≠ none → now.Mentions targets owner.slots) :
    Leads asked bound now (Search.checkOwner kind index owner) fun _ next =>
      next = now ∧ now.Covers [] owner.slots := by
  cases owner with
  | deferred slot =>
      refine Leads.world ?_
      split
      · rename_i hnone
        refine Leads.throw fun hbound => ?_
        obtain ⟨top, found, rest, htop, -, howned⟩ := hmentions (by simp [hbound])
        exact .unowned htop (howned List.mem_cons_self) (Option.isNone_iff_eq_none.mp hnone)
      · rename_i hsome
        refine Leads.pure ⟨rfl, Answers.settlesAll_nil, fun other hother => ?_⟩
        cases List.mem_singleton.mp hother
        exact Option.isSome_iff_ne_none.mpr fun hnone => hsome (by simp [hnone])
  | _ => exact Leads.pure ⟨rfl, covers_nil⟩

section References

set_option linter.unusedSectionVars false

variable (hfinds : Finds asked bound stack search)

include hfinds

mutual

theorem leads_resolveTypeRef {now : Moment} (hsound : now.Sound) (hstack : now.stack = stack)
    (ref : TypeRef) (hreads : Reads asked bound now ref.targets ref.slots) :
    Leads asked bound now (search.resolveTypeRef ref) fun resolved next =>
      next.Covers ref.targets ref.slots ∧ resolved = ref.relink next.fill := by
  cases ref with
  | definition id =>
      simp only [Search.resolveTypeRef]
      exact Leads.pure ⟨covers_definition, by simp [TypeRef.relink, Relink.fill]⟩
  | external type =>
      simp only [Search.resolveTypeRef]
      exact Leads.pure ⟨covers_nil, by simp [TypeRef.relink]⟩
  | declared id =>
      simp only [Search.resolveTypeRef]
      simp only [TypeRef.targets] at hreads
      refine Leads.bind hsound (leads_checkLiving hreads.mentions) ?_
      rintro _ _ _ ⟨rfl, hliving⟩
      have hasked := hreads.asks (.type id) List.mem_cons_self hliving
      refine Leads.bind hsound (leads_type hfinds hsound hstack hasked) ?_
      intro found next _ hanswer
      exact Leads.pure ⟨covers_declaration hanswer rfl,
        by simp [TypeRef.relink, Relink.fill, hanswer]⟩
  | constructed signature =>
      simp only [TypeRef.targets, TypeRef.slots] at hreads
      simp only [Search.resolveTypeRef]
      refine Leads.bind hsound (leads_resolveTypeSig hsound hstack signature hreads) ?_
      rintro _ next _ ⟨hcovers, rfl⟩
      exact Leads.pure ⟨by simpa [TypeRef.targets, TypeRef.slots] using hcovers,
        by simp [TypeRef.relink]⟩
termination_by structural ref

theorem leads_resolveTypeSig {now : Moment} (hsound : now.Sound) (hstack : now.stack = stack)
    (signature : TypeSig) (hreads : Reads asked bound now signature.targets signature.slots) :
    Leads asked bound now (search.resolveTypeSig signature) fun resolved next =>
      next.Covers signature.targets signature.slots ∧ resolved = signature.relink next.fill := by
  cases signature with
  | unknown =>
      simp only [Search.resolveTypeSig]
      refine Leads.throw fun hbound => ?_
      obtain ⟨top, found, rest, htop, hstated, -⟩ := hreads.mentions (by simp [hbound])
      exact .unknown htop (hstated (by simp [TypeSig.targets]))
  | sentinel | primitive =>
      simp only [Search.resolveTypeSig]
      exact Leads.pure ⟨covers_nil, by simp [TypeSig.relink]⟩
  | classType type | valueType type =>
      simp only [TypeSig.targets, TypeSig.slots] at hreads
      simp only [Search.resolveTypeSig]
      refine Leads.bind hsound (leads_resolveTypeRef hsound hstack type hreads) ?_
      rintro _ next _ ⟨hcovers, rfl⟩
      exact Leads.pure ⟨by simpa [TypeSig.targets, TypeSig.slots] using hcovers,
        by simp [TypeSig.relink]⟩
  | genericVar kind index owner =>
      simp only [Search.resolveTypeSig]
      simp only [TypeSig.slots] at hreads
      refine Leads.bind hsound (leads_checkOwner hreads.mentions) ?_
      rintro _ _ _ ⟨rfl, hcovers⟩
      exact Leads.pure ⟨hcovers, by simp [TypeSig.relink, Relink.fill]⟩
  | function signature =>
      simp only [TypeSig.targets, TypeSig.slots] at hreads
      simp only [Search.resolveTypeSig]
      refine Leads.bind hsound (leads_resolveMethodSig hsound hstack signature hreads) ?_
      rintro _ next _ ⟨hcovers, rfl⟩
      exact Leads.pure ⟨by simpa [TypeSig.targets, TypeSig.slots] using hcovers,
        by simp [TypeSig.relink]⟩
  | applied generic args =>
      simp only [TypeSig.targets, TypeSig.slots] at hreads
      simp only [Search.resolveTypeSig]
      refine Leads.bind hsound (leads_resolveTypeSig hsound hstack generic hreads.left) ?_
      rintro _ next hafter ⟨hcovers, rfl⟩
      refine Leads.bind hafter.sound (leads_resolveTypeSigs hafter.sound
        (hafter.stack.trans hstack) args (hafter.reads hreads.right)) ?_
      rintro _ last hafter' ⟨hcovers', rfl⟩
      refine Leads.pure
        ⟨by simpa [TypeSig.targets, TypeSig.slots] using ⟨hafter'.covers hcovers, hcovers'⟩, ?_⟩
      -- What was resolved first reads the same with all that has been answered since.
      rw [TypeSig.relink, TypeSig.fill_mono hafter'.answers hcovers.settled]
  | pointer inner | byRef inner | vector inner | pinned inner | array inner shape
  | inModule index inner =>
      simp only [TypeSig.targets, TypeSig.slots] at hreads
      simp only [Search.resolveTypeSig]
      refine Leads.bind hsound (leads_resolveTypeSig hsound hstack inner hreads) ?_
      rintro _ next _ ⟨hcovers, rfl⟩
      exact Leads.pure ⟨by simpa [TypeSig.targets, TypeSig.slots] using hcovers,
        by simp [TypeSig.relink]⟩
  | required modifier inner | optional modifier inner =>
      simp only [TypeSig.targets, TypeSig.slots] at hreads
      simp only [Search.resolveTypeSig]
      refine Leads.bind hsound (leads_resolveTypeRef hsound hstack modifier hreads.left) ?_
      rintro _ next hafter ⟨hcovers, rfl⟩
      refine Leads.bind hafter.sound (leads_resolveTypeSig hafter.sound
        (hafter.stack.trans hstack) inner (hafter.reads hreads.right)) ?_
      rintro _ last hafter' ⟨hcovers', rfl⟩
      refine Leads.pure
        ⟨by simpa [TypeSig.targets, TypeSig.slots] using ⟨hafter'.covers hcovers, hcovers'⟩, ?_⟩
      rw [TypeSig.relink, TypeRef.fill_mono hafter'.answers hcovers.settled]
termination_by structural signature

theorem leads_resolveMethodSig {now : Moment} (hsound : now.Sound) (hstack : now.stack = stack)
    (signature : MethodSig) (hreads : Reads asked bound now signature.targets signature.slots) :
    Leads asked bound now (search.resolveMethodSig signature) fun resolved next =>
      next.Covers signature.targets signature.slots ∧ resolved = signature.relink next.fill := by
  obtain ⟨callConv, genericCount, result, params, varargs⟩ := signature
  simp only [MethodSig.targets, MethodSig.slots] at hreads
  simp only [Search.resolveMethodSig]
  refine Leads.bind hsound (leads_resolveTypeSig hsound hstack result hreads.left.left) ?_
  rintro _ next hafter ⟨hcovers, rfl⟩
  refine Leads.bind hafter.sound (leads_resolveTypeSigs hafter.sound
    (hafter.stack.trans hstack) params (hafter.reads hreads.left.right)) ?_
  rintro _ last hafter' ⟨hcovers', rfl⟩
  have hboth := hafter.trans hafter'
  refine Leads.bind hafter'.sound (leads_resolveTypeSigs hafter'.sound
    (hboth.stack.trans hstack) varargs (hboth.reads hreads.right)) ?_
  rintro _ finish hafter'' ⟨hcovers'', rfl⟩
  refine Leads.pure ⟨?_, ?_⟩
  · simp only [MethodSig.targets, MethodSig.slots, covers_append]
    exact ⟨⟨(hafter'.trans hafter'').covers hcovers, hafter''.covers hcovers'⟩, hcovers''⟩
  · rw [MethodSig.relink, TypeSig.fill_mono (hafter'.trans hafter'').answers hcovers.settled,
      TypeSig.fillList_mono hafter''.answers hcovers'.settled]
termination_by structural signature

theorem leads_resolveTypeSigs {now : Moment} (hsound : now.Sound) (hstack : now.stack = stack)
    (signatures : List TypeSig)
    (hreads : Reads asked bound now (TypeSig.targetsList signatures) (TypeSig.slotsList signatures)) :
    Leads asked bound now (search.resolveTypeSigs signatures) fun resolved next =>
      next.Covers (TypeSig.targetsList signatures) (TypeSig.slotsList signatures) ∧
        resolved = TypeSig.relinkList next.fill signatures := by
  cases signatures with
  | nil =>
      simp only [Search.resolveTypeSigs]
      exact Leads.pure ⟨covers_nil, by simp [TypeSig.relinkList]⟩
  | cons signature rest =>
      simp only [TypeSig.targetsList, TypeSig.slotsList] at hreads
      simp only [Search.resolveTypeSigs]
      refine Leads.bind hsound (leads_resolveTypeSig hsound hstack signature hreads.left) ?_
      rintro _ next hafter ⟨hcovers, rfl⟩
      refine Leads.bind hafter.sound (leads_resolveTypeSigs hafter.sound
        (hafter.stack.trans hstack) rest (hafter.reads hreads.right)) ?_
      rintro _ last hafter' ⟨hcovers', rfl⟩
      refine Leads.pure
        ⟨by simpa [TypeSig.targetsList, TypeSig.slotsList] using ⟨hafter'.covers hcovers, hcovers'⟩, ?_⟩
      rw [TypeSig.relinkList, TypeSig.fill_mono hafter'.answers hcovers.settled]
termination_by structural signatures

end

theorem leads_resolveFieldRef {now : Moment} (hsound : now.Sound) (hstack : now.stack = stack)
    (hlets : ∀ declaration, Lets stack declaration) (ref : FieldRef)
    (hreads : Reads asked bound now ref.targets ref.slots) :
    Leads asked bound now (search.resolveFieldRef ref) fun resolved next =>
      next.Covers ref.targets ref.slots ∧ resolved = ref.relink next.fill := by
  cases ref with
  | definition id =>
      exact Leads.pure ⟨covers_definition, by simp [FieldRef.relink, Relink.fill]⟩
  | declared id =>
      simp only [FieldRef.targets] at hreads
      refine Leads.bind hsound (leads_checkLiving hreads.mentions) ?_
      rintro _ _ _ ⟨rfl, hliving⟩
      have hasked := hreads.asks (.field id) List.mem_cons_self hliving
      refine Leads.bind hsound (leads_field hfinds hsound hstack hasked (hlets _)) ?_
      intro found next _ hanswer
      exact Leads.pure ⟨covers_declaration hanswer rfl,
        by simp [FieldRef.relink, Relink.fill, hanswer]⟩
  | external owner name signature =>
      simp only [FieldRef.targets, FieldRef.slots] at hreads
      refine Leads.bind hsound (leads_resolveTypeRef hfinds hsound hstack owner
        hreads.left) ?_
      rintro _ next hafter ⟨hcovers, rfl⟩
      refine Leads.bind hafter.sound (leads_resolveTypeSig hfinds hafter.sound
        (hafter.stack.trans hstack) signature
        (hafter.reads hreads.right)) ?_
      rintro _ last hafter' ⟨hcovers', rfl⟩
      refine Leads.pure
        ⟨by simpa [FieldRef.targets, FieldRef.slots] using ⟨hafter'.covers hcovers, hcovers'⟩, ?_⟩
      rw [FieldRef.relink, TypeRef.fill_mono hafter'.answers hcovers.settled]

theorem leads_resolveMethodRef {now : Moment} (hsound : now.Sound) (hstack : now.stack = stack)
    (hlets : ∀ declaration, Lets stack declaration) (ref : MethodRef)
    (hreads : Reads asked bound now ref.targets ref.slots) :
    Leads asked bound now (search.resolveMethodRef ref) fun resolved next =>
      next.Covers ref.targets ref.slots ∧ resolved = ref.relink next.fill := by
  cases ref with
  | definition id =>
      simp only [Search.resolveMethodRef]
      exact Leads.pure ⟨covers_definition, by simp [MethodRef.relink, Relink.fill]⟩
  | declared id =>
      simp only [Search.resolveMethodRef]
      simp only [MethodRef.targets] at hreads
      refine Leads.bind hsound (leads_checkLiving hreads.mentions) ?_
      rintro _ _ _ ⟨rfl, hliving⟩
      have hasked := hreads.asks (.method id) List.mem_cons_self hliving
      refine Leads.bind hsound (leads_method hfinds hsound hstack hasked (hlets _)) ?_
      intro found next _ hanswer
      exact Leads.pure ⟨covers_declaration hanswer rfl,
        by simp [MethodRef.relink, Relink.fill, hanswer]⟩
  | external owner name signature =>
      simp only [MethodRef.targets, MethodRef.slots] at hreads
      simp only [Search.resolveMethodRef]
      refine Leads.bind hsound (leads_resolveTypeRef hfinds hsound hstack owner
        hreads.left) ?_
      rintro _ next hafter ⟨hcovers, rfl⟩
      refine Leads.bind hafter.sound (leads_resolveMethodSig hfinds hafter.sound
        (hafter.stack.trans hstack) signature
        (hafter.reads hreads.right)) ?_
      rintro _ last hafter' ⟨hcovers', rfl⟩
      refine Leads.pure
        ⟨by simpa [MethodRef.targets, MethodRef.slots] using ⟨hafter'.covers hcovers, hcovers'⟩, ?_⟩
      -- The owner was resolved first and reads the same with what the signature has added.
      rw [MethodRef.relink, TypeRef.fill_mono hafter'.answers hcovers.settled]
  | instantiated method args =>
      simp only [MethodRef.targets, MethodRef.slots] at hreads
      simp only [Search.resolveMethodRef]
      refine Leads.bind hsound (leads_resolveMethodRef hsound hstack hlets method hreads.left) ?_
      rintro _ next hafter ⟨hcovers, rfl⟩
      refine Leads.bind hafter.sound (leads_resolveTypeSigs hfinds hafter.sound
        (hafter.stack.trans hstack) args
        (hafter.reads hreads.right)) ?_
      rintro _ last hafter' ⟨hcovers', rfl⟩
      refine Leads.pure
        ⟨by simpa [MethodRef.targets, MethodRef.slots] using ⟨hafter'.covers hcovers, hcovers'⟩, ?_⟩
      rw [MethodRef.relink, MethodRef.fill_mono hafter'.answers hcovers.settled]
termination_by structural ref

theorem leads_resolvePropertySig {now : Moment} (hsound : now.Sound)
    (hstack : now.stack = stack) (signature : PropertySig)
    (hreads : Reads asked bound now signature.targets signature.slots) :
    Leads asked bound now (search.resolvePropertySig signature) fun resolved next =>
      next.Covers signature.targets signature.slots ∧ resolved = signature.relink next.fill := by
  simp only [PropertySig.targets, PropertySig.slots] at hreads
  refine Leads.bind hsound (leads_resolveTypeSig hfinds hsound hstack signature.type
    hreads.left) ?_
  rintro _ next hafter ⟨hcovers, rfl⟩
  refine Leads.bind hafter.sound (leads_resolveTypeSigs hfinds hafter.sound
    (hafter.stack.trans hstack) signature.params
    (hafter.reads hreads.right)) ?_
  rintro _ last hafter' ⟨hcovers', rfl⟩
  refine Leads.pure
    ⟨by simpa [PropertySig.targets, PropertySig.slots] using ⟨hafter'.covers hcovers, hcovers'⟩, ?_⟩
  rw [PropertySig.relink, TypeSig.fill_mono hafter'.answers hcovers.settled]

theorem leads_resolveGenericParam {now : Moment} (hsound : now.Sound)
    (hstack : now.stack = stack) (param : GenericParam)
    (hreads : Reads asked bound now param.targets param.slots) :
    Leads asked bound now (search.resolveGenericParam param) fun resolved next =>
      next.Covers param.targets param.slots ∧ resolved = param.relink next.fill := by
  refine Leads.bind hsound (Leads.mapM
    (R := fun (ref : TypeRef) resolved next =>
      next.Covers ref.targets ref.slots ∧ resolved = ref.relink next.fill) ?_ hsound ?_) ?_
  · rintro ref _ now next hafter ⟨hcovers, rfl⟩
    exact ⟨hafter.covers hcovers, (TypeRef.fill_mono hafter.answers hcovers.settled).symm⟩
  · intro ref href next hafter
    exact leads_resolveTypeRef hfinds hafter.sound (hafter.stack.trans hstack) ref
      (hafter.reads (hreads.item href))
  · intro constraints next _ hall
    obtain ⟨hcovers, rfl⟩ := forall₂_and_eq_map.mp hall
    exact Leads.pure ⟨covers_flatMap.mpr hcovers, rfl⟩

theorem leads_resolveOverride {now : Moment} (hsound : now.Sound) (hstack : now.stack = stack)
    (hlets : ∀ declaration, Lets stack declaration) (override : Override)
    (hreads : Reads asked bound now override.targets override.slots) :
    Leads asked bound now (search.resolveOverride override) fun resolved next =>
      next.Covers override.targets override.slots ∧ resolved = override.relink next.fill := by
  simp only [Override.targets, Override.slots] at hreads
  refine Leads.bind hsound (leads_resolveMethodRef hfinds hsound hstack hlets override.body
    hreads.left) ?_
  rintro _ next hafter ⟨hcovers, rfl⟩
  refine Leads.bind hafter.sound (leads_resolveMethodRef hfinds hafter.sound
    (hafter.stack.trans hstack) hlets override.declaration (hafter.reads hreads.right)) ?_
  rintro _ last hafter' ⟨hcovers', rfl⟩
  refine Leads.pure
    ⟨by simpa [Override.targets, Override.slots] using ⟨hafter'.covers hcovers, hcovers'⟩, ?_⟩
  rw [Override.relink, MethodRef.fill_mono hafter'.answers hcovers.settled]

end References

end Graft.Moment
