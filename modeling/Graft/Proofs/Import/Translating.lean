import Graft.Proofs.Import.Deferring
import Graft.Proofs.Signature.Bare
import Graft.Proofs.Signature.Normal

/-!
# Importing a signature

In every state that an importer can come into, a signature can be imported exactly when it is of a
known shape throughout and every definition of the patch module in it stands for a declaration. A
method that owns a generic variable may be without one: it gets a slot, and the slot waits for it
(`World.Slotted`). What has been imported has the shape of what was given, refers to nothing of
the patch module, and is imported again as it is (`FaithfulImport`).
-/

namespace Graft

/-! ## Slots -/

/-- What slots have to do with the work that waits: a slot waits for its method as long as the
method stands for nothing, and is empty until then. -/
structure World.Slotted (world : World) (importer : ImporterId) : Prop where
  live : world.importers.has importer.index = true
  reserved : ∀ token slot, .own slot ∈ world.queue importer token →
    world.slotFor? importer token = some slot
  distinct : ∀ token other slot, world.slotFor? importer token = some slot →
    world.slotFor? importer other = some slot → token = other
  issued : ∀ token slot, world.slotFor? importer token = some slot →
    slot.index < world.slots.size
  waits : ∀ token slot, world.methodFor? importer token = none →
    world.slotFor? importer token = some slot →
      world.slot? slot = none ∧ .own slot ∈ world.queue importer token

namespace World.Slotted

variable {world final : World} {importer : ImporterId} {token : Token} {tokens : List Token}

theorem reserve (h : world.Slotted importer) (hunbound : world.methodFor? importer token = none)
    (hfresh : world.slotFor? importer token = none) :
    (world.reserve importer token).Slotted importer := by
  have hquiet : world.Quiet (world.reserve importer token) := quiet_reserve
  have hone : Reserves importer world [token] (world.reserve importer token) :=
    .cons hunbound hfresh (.nil _)
  refine ⟨hquiet.importers _ h.live, fun other slot hmem => ?_, fun other other' slot => ?_,
    fun other slot => ?_, fun other slot hother => ?_⟩
  · rw [queue_reserve h.live] at hmem
    rw [slotFor?_reserve h.live]
    by_cases heq : token = other
    · subst heq
      rw [if_pos rfl] at hmem ⊢
      rcases List.mem_append.mp hmem with hmem | hmem
      · rw [h.reserved _ _ hmem] at hfresh
        cases hfresh
      · simpa using (List.mem_singleton.mp hmem).symm
    · rw [if_neg heq] at hmem ⊢
      exact h.reserved other slot hmem
  · rw [slotFor?_reserve h.live, slotFor?_reserve h.live]
    intro hslot hslot'
    -- The new slot is numbered past all those that were handed out before.
    split at hslot <;> split at hslot'
    · exact ‹token = other›.symm.trans ‹token = other'›
    · cases hslot
      exact absurd (h.issued _ _ hslot') (Nat.lt_irrefl _)
    · cases hslot'
      exact absurd (h.issued _ _ hslot) (Nat.lt_irrefl _)
    · exact h.distinct _ _ _ hslot hslot'
  · rw [slotFor?_reserve h.live]
    intro hslot
    have hsize : (world.reserve importer token).slots.size = world.slots.size + 1 :=
      Array.size_push ..
    rw [hsize]
    split at hslot
    · cases hslot
      exact Nat.lt_succ_self _
    · exact Nat.lt_succ_of_lt (h.issued _ _ hslot)
  · rw [hquiet.methodFor?_eq] at hother
    rw [slotFor?_reserve h.live, hone.slot?_eq, queue_reserve h.live]
    intro hslot
    by_cases heq : token = other
    · rw [if_pos heq] at hslot ⊢
      cases hslot
      simp [slot?]
    · rw [if_neg heq] at hslot ⊢
      exact h.waits other slot hother hslot

theorem reserves (h : world.Slotted importer) (hreserves : Reserves importer world tokens final) :
    final.Slotted importer := by
  induction hreserves with
  | nil => exact h
  | cons hunbound hfresh _ ih => exact ih (h.reserve hunbound hfresh)

end World.Slotted

/-- The methods that belong to the patch module depend on nothing but the definitions. -/
theorem ImporterId.ownsMethod_congr (importer : ImporterId) {world next : World}
    (hdefs : next.defs = world.defs)
    (hscope : (next.importer importer).scope = (world.importer importer).scope) :
    importer.ownsMethod next = importer.ownsMethod world := by
  have htype : importer.ownsType next = importer.ownsType world := by
    funext id
    simp only [ownsType, hdefs, hscope]
  funext id
  simp only [ownsMethod, ownsMember, hdefs, htype]

/-- Whether the methods that an importer binds, their slots and the work that waits for them are the
same in two worlds. -/
structure World.SameMethods (world : World) (importer : ImporterId) (next : World) : Prop where
  live : next.importers.has importer.index = true
  defs : next.defs = world.defs
  scope : (next.importer importer).scope = (world.importer importer).scope
  methods : (next.importer importer).methods = (world.importer importer).methods
  pending : (next.importer importer).pending = (world.importer importer).pending
  deferred : (next.importer importer).deferred = (world.importer importer).deferred
  slots : next.slots = world.slots

namespace World.SameMethods

variable {world next last : World} {importer : ImporterId}

theorem refl (hlive : world.importers.has importer.index = true) :
    world.SameMethods importer world :=
  ⟨hlive, rfl, rfl, rfl, rfl, rfl, rfl⟩

theorem trans (h : world.SameMethods importer next) (h' : next.SameMethods importer last) :
    world.SameMethods importer last where
  live := h'.live
  defs := h'.defs.trans h.defs
  scope := h'.scope.trans h.scope
  methods := h'.methods.trans h.methods
  pending := h'.pending.trans h.pending
  deferred := h'.deferred.trans h.deferred
  slots := h'.slots.trans h.slots

theorem methodFor?_eq (h : world.SameMethods importer next) :
    next.methodFor? importer = world.methodFor? importer := by
  funext token
  rw [methodFor?, methodFor?, h.methods]

theorem slotFor?_eq (h : world.SameMethods importer next) :
    next.slotFor? importer = world.slotFor? importer := by
  funext token
  rw [slotFor?, slotFor?, h.deferred]

theorem slot?_eq (h : world.SameMethods importer next) : next.slot? = world.slot? := by
  funext slot
  rw [slot?, slot?, h.slots]

theorem ownsMethod_eq (h : world.SameMethods importer next) :
    importer.ownsMethod next = importer.ownsMethod world :=
  importer.ownsMethod_congr h.defs h.scope

theorem slotted (h : world.SameMethods importer next) (hslotted : world.Slotted importer) :
    next.Slotted importer := by
  have hqueue (token : Token) : next.queue importer token = world.queue importer token := by
    rw [queue, queue, h.pending]
  refine ⟨h.live, ?_, ?_, ?_, ?_⟩ <;>
    simp only [hqueue, h.slotFor?_eq, h.methodFor?_eq, h.slot?_eq, h.slots]
  exacts [hslotted.reserved, hslotted.distinct, hslotted.issued, hslotted.waits]

end World.SameMethods

/-- What an event brings that is about a slot is about the slot of its method. -/
theorem ImportEvent.own_mem_brings {event : ImportEvent} {importer : ImporterId} {world : World}
    {token : Token} {slot : SlotId} (h : .own slot ∈ event.brings importer world token) :
    (event.after importer world).slotFor? importer token = some slot := by
  cases event with
  | defer other label =>
      simp only [brings] at h
      split at h <;> simp at h
  | imports value =>
      simp only [brings] at h
      split at h
      · simpa using h
      · cases h
  | define | declareMethod | bindType | bindField | bindMethod | release => cases h

/-- Only work that waits for a method is about the slot of the method, and it is done when that
method is bound. -/
theorem ImportEvent.own_mem_turns {event : ImportEvent} {importer : ImporterId} {world : World}
    {turn : Turn} {slot : SlotId} (hmem : turn ∈ event.turns importer world (world.queue importer))
    (hwork : turn.work = .own slot) :
    .own slot ∈ world.queue importer turn.token ∧
      event.binds? turn.token = some turn.declaration := by
  cases event with
  | bindMethod token declaration =>
      obtain ⟨work, hqueue, rfl⟩ := List.mem_map.mp hmem
      cases hwork
      exact ⟨hqueue, if_pos rfl⟩
  | defer token label =>
      obtain ⟨declaration, -, rfl⟩ := List.mem_map.mp hmem
      cases hwork
  | define | declareMethod | bindType | bindField | imports | release => cases hmem

theorem World.Slotted.event {world : World} {importer : ImporterId} (h : world.Slotted importer)
    (event : ImportEvent) : (event.after importer world).Slotted importer := by
  have heffect := event.effect h.live
  rcases heffect.slotFor with ⟨tokens, hreserves⟩ | ⟨hsize, hslotFor⟩
  · exact h.reserves hreserves
  refine ⟨heffect.live, fun token slot hmem => ?_, fun token other slot => ?_, fun token slot => ?_,
    fun token slot hunbound hslot => ?_⟩
  · rw [heffect.queue] at hmem
    split at hmem
    · cases hmem
    · rcases List.mem_append.mp hmem with hmem | hmem
      · rw [hslotFor]
        exact h.reserved token slot hmem
      · split at hmem
        · exact event.own_mem_brings hmem
        · cases hmem
  · rw [hslotFor, hslotFor]
    exact h.distinct token other slot
  · rw [hslotFor, hsize]
    exact h.issued token slot
  · rw [heffect.methodFor, Option.or_eq_none_iff] at hunbound
    rw [hslotFor] at hslot
    obtain ⟨hempty, hqueue⟩ := h.waits token slot hunbound.2 hslot
    rw [heffect.slot, heffect.queue, if_neg (by simp [hunbound.1])]
    refine ⟨?_, List.mem_append_left _ hqueue⟩
    rw [World.slot?_afterTurns, hempty]
    -- A turn about the slot would be one of its own method, and would have bound it.
    intro turn hturn hwork
    obtain ⟨hqueue', hbinds⟩ := event.own_mem_turns hturn hwork
    rw [h.distinct _ _ _ (h.reserved _ _ hqueue') hslot, hunbound.1] at hbinds
    cases hbinds

namespace ImportHistory

/-- Slots wait for their methods at every moment. -/
theorem slotted (history : ImportHistory) (moment : Nat) :
    (history.world moment).Slotted history.importer := by
  induction moment with
  | zero =>
      have hslot (token : Token) (slot : SlotId) :
          (history.world 0).slotFor? history.importer token ≠ some slot := by
        rw [slotFor?_start]
        exact Option.some_ne_none slot ∘ Eq.symm
      refine ⟨live_start, fun token slot hmem => ?_, fun token _ slot h _ => absurd h (hslot _ _),
        fun token slot h => absurd h (hslot _ _), fun token slot _ h => absurd h (hslot _ _)⟩
      rw [queue_start] at hmem
      cases hmem
  | succ moment ih =>
      cases hevent : history.events[moment]? with
      | none => exact world_succ_of_none hevent ▸ ih
      | some event => exact world_succ hevent ▸ ih.event event

end ImportHistory

/-! ## What an import comes to -/

/-- What importing something comes to in a world. -/
structure FaithfulImport {α : Type} (importer : ImporterId) (mentions : α → List Mention)
    (relinkAll : Relink → α → α) (same : TypeNames → Comparison → α → α → Bool)
    (run : α → Task α) (world : World) (value : α) : Prop where
  /-- It can be imported when nothing in it is of unknown shape, and everything of the patch module
  in it stands for a declaration. -/
  succeeds : (∃ imported final, (run value).on world = (.ok imported, final)) ↔
    .target .unknown ∉ mentions value ∧
      ∀ definition, .target (.definition definition) ∈ mentions value →
        world.owns importer definition = true → (world.bound? importer definition).isSome
  /-- It is relinked to the declarations that its definitions stand for, and to slots. -/
  translated : ∀ imported final, (run value).on world = (.ok imported, final) →
    imported = relinkAll (final.translation importer) value
  shape : ∀ imported final, (run value).on world = (.ok imported, final) →
    relinkAll .blank imported = relinkAll .blank value
  /-- Nothing of the patch module is left in it. -/
  clean : ∀ imported final, (run value).on world = (.ok imported, final) →
    (∀ definition, .target (.definition definition) ∈ mentions imported →
      final.owns importer definition = false) ∧
    ∀ id, .ownerDefinition id ∈ mentions imported → final.owns importer (.method id) = false
  /-- A method that owns a variable and stands for nothing has a slot in it that waits. -/
  pending : ∀ imported final, (run value).on world = (.ok imported, final) →
    ∀ id, .ownerDefinition id ∈ mentions value → world.owns importer (.method id) = true →
      world.bound? importer (.method id) = none →
        ∃ slot, final.slotFor? importer (world.defs.token (.method id)) = some slot ∧
          .slot slot ∈ mentions imported ∧ final.slot? slot = none ∧
          .own slot ∈ final.queue importer (world.defs.token (.method id))
  /-- Importing it again changes neither it nor anything else. -/
  again : ∀ imported final, (run value).on world = (.ok imported, final) →
    (run imported).on final = (.ok imported, final)
  equal : ∀ imported final, (run value).on world = (.ok imported, final) →
    same final.typeNames .strict imported imported = true

namespace World

variable {world : World} {importer : ImporterId} {mentions : List Mention}

theorem admits_iff : (∀ mention ∈ mentions, world.Admits importer mention) ↔
    .target .unknown ∉ mentions ∧ ∀ definition, .target (.definition definition) ∈ mentions →
      world.owns importer definition = true → (world.bound? importer definition).isSome := by
  have hdefinition (definition : Definition) :
      world.Admits importer (.target (.definition definition)) ↔
        (world.owns importer definition = true →
          (world.bound? importer definition).isSome = true) := by
    cases definition <;> simp [Admits, Imports, owns, bound?]
  constructor
  · intro h
    exact ⟨fun hmem => h _ hmem, fun definition hmem => (hdefinition definition).mp (h _ hmem)⟩
  · rintro ⟨hknown, hbound⟩ mention hmem
    cases mention with
    | target target =>
        cases target with
        | unknown => exact absurd hmem hknown
        | declaration => trivial
        | definition definition => exact (hdefinition definition).mpr (hbound definition hmem)
    | _ => trivial

/-- Whether a mention is left as it is when it is imported. -/
def Settled (world : World) (importer : ImporterId) : Mention → Prop
  | .target (.definition definition) => world.owns importer definition = false
  | .target .unknown => False
  | .ownerDefinition id => importer.ownsMethod world id = false
  | _ => True

theorem Settled.admits {mention : Mention} (h : world.Settled importer mention) :
    world.Admits importer mention := by
  cases mention with
  | target target =>
      cases target with
      | unknown => exact h
      | declaration => trivial
      | definition definition =>
          cases definition with
          | type id | field id | method id =>
              intro howns
              exact absurd howns (Bool.eq_false_iff.mp h)
          | _ => trivial
  | _ => trivial

theorem Settled.not_awaits {mention : Mention} (h : world.Settled importer mention)
    (token : Token) : ¬world.Awaits importer mention token := by
  rintro ⟨id, rfl, howns, -⟩
  exact absurd howns (Bool.eq_false_iff.mp h)

/-- A type that can be imported is left alone, or replaced by a declaration. -/
theorem translation_type {id : DefId .type}
    (himports : world.Imports importer (.definition (.type id))) :
    (world.translation importer).onType (.definition id) = .definition id ∧
        world.owns importer (.type id) = false ∨
      ∃ declaration,
        (world.translation importer).onType (.definition id) = .declared declaration := by
  by_cases howns : world.ownsType importer id = true
  · obtain ⟨declaration, hbound⟩ := Option.isSome_iff_exists.mp (himports howns)
    exact .inr ⟨declaration, by simp [translation, bind, howns, hbound]⟩
  · exact .inl ⟨by simp [translation, bind, howns], Bool.eq_false_iff.mpr howns⟩

theorem translation_field {id : DefId .field}
    (himports : world.Imports importer (.definition (.field id))) :
    (world.translation importer).onField (.definition id) = .definition id ∧
        world.owns importer (.field id) = false ∨
      ∃ declaration,
        (world.translation importer).onField (.definition id) = .declared declaration := by
  by_cases howns : world.ownsField importer id = true
  · obtain ⟨declaration, hbound⟩ := Option.isSome_iff_exists.mp (himports howns)
    exact .inr ⟨declaration, by simp [translation, bind, howns, hbound]⟩
  · exact .inl ⟨by simp [translation, bind, howns], Bool.eq_false_iff.mpr howns⟩

theorem translation_method {id : DefId .method}
    (himports : world.Imports importer (.definition (.method id))) :
    (world.translation importer).onMethod (.definition id) = .definition id ∧
        world.owns importer (.method id) = false ∨
      ∃ declaration,
        (world.translation importer).onMethod (.definition id) = .declared declaration := by
  by_cases howns : importer.ownsMethod world id = true
  · obtain ⟨declaration, hbound⟩ := Option.isSome_iff_exists.mp (himports howns)
    exact .inr ⟨declaration, by simp [translation, bind, howns, hbound]⟩
  · exact .inl ⟨by simp [translation, bind, howns], Bool.eq_false_iff.mpr howns⟩

theorem translation_owner_of_bound {id : DefId .method} {declaration : DeclId .method}
    (howns : importer.ownsMethod world id = true)
    (hbound : world.boundMethod? importer id = some declaration) :
    (world.translation importer).onOwner (.method (.definition id)) =
      .method (.declared declaration) := by
  simp [translation, translatedOwner, howns, hbound]

theorem translation_owner_of_slot {id : DefId .method} {slot : SlotId}
    (howns : importer.ownsMethod world id = true) (hunbound : world.boundMethod? importer id = none)
    (hslot : world.slotFor? importer (world.defs.token (.method id)) = some slot) :
    (world.translation importer).onOwner (.method (.definition id)) = .deferred slot := by
  simp [translation, translatedOwner, ownerSlot, howns, hunbound, hslot]

/-- A method that owns a variable is left alone, or replaced by a declaration or by its slot. -/
theorem translation_owner {id : DefId .method}
    (hprovides : ∀ token, world.Awaits importer (.ownerDefinition id) token →
      (world.slotFor? importer token).isSome) :
    (world.translation importer).onOwner (.method (.definition id)) = .method (.definition id) ∧
        importer.ownsMethod world id = false ∨
      (∃ declaration, (world.translation importer).onOwner (.method (.definition id)) =
        .method (.declared declaration)) ∨
      ∃ slot, (world.translation importer).onOwner (.method (.definition id)) = .deferred slot := by
  by_cases howns : importer.ownsMethod world id = true
  · right
    cases hbound : world.boundMethod? importer id with
    | some declaration =>
        exact .inl ⟨declaration, translation_owner_of_bound howns hbound⟩
    | none =>
        obtain ⟨slot, hslot⟩ := Option.isSome_iff_exists.mp
          (hprovides _ ⟨id, rfl, howns, rfl, hbound⟩)
        exact .inr ⟨slot, translation_owner_of_slot howns hbound hslot⟩
  · exact .inl ⟨by simp [translation, translatedOwner, howns], Bool.eq_false_iff.mpr howns⟩

/-- Whatever a mention is translated to is settled. -/
theorem settled_of_mem_imageAll {mention mention' : Mention}
    (hadmits : world.Admits importer mention)
    (hprovides : ∀ token, world.Awaits importer mention token →
      (world.slotFor? importer token).isSome)
    (hmem : mention' ∈ (world.translation importer).imageAll mention) :
    world.Settled importer mention' := by
  cases mention with
  | ownerDeclaration id | slot slot =>
      obtain rfl := List.mem_singleton.mp hmem
      trivial
  | ownerDefinition id =>
      rw [Relink.imageAll] at hmem
      rcases translation_owner hprovides with ⟨heq, howns⟩ | ⟨declaration, heq⟩ | ⟨slot, heq⟩ <;>
        rw [heq] at hmem <;> obtain rfl := List.mem_singleton.mp hmem
      · exact howns
      · trivial
      · trivial
  | target target =>
      cases target with
      | unknown => exact absurd hadmits id
      | declaration declaration =>
          cases declaration <;> obtain rfl := List.mem_singleton.mp hmem <;> trivial
      | definition definition =>
          cases definition with
          | type id =>
              rw [Relink.imageAll] at hmem
              rcases translation_type hadmits with ⟨heq, howns⟩ | ⟨declaration, heq⟩ <;>
                rw [heq] at hmem <;> obtain rfl := List.mem_singleton.mp hmem
              · exact howns
              · trivial
          | field id =>
              rw [Relink.imageAll] at hmem
              rcases translation_field hadmits with ⟨heq, howns⟩ | ⟨declaration, heq⟩ <;>
                rw [heq] at hmem <;> obtain rfl := List.mem_singleton.mp hmem
              · exact howns
              · trivial
          | method id =>
              rw [Relink.imageAll] at hmem
              rcases translation_method hadmits with ⟨heq, howns⟩ | ⟨declaration, heq⟩ <;>
                rw [heq] at hmem <;> obtain rfl := List.mem_singleton.mp hmem
              · exact howns
              · trivial
          | module id | property id | event id =>
              obtain rfl := List.mem_singleton.mp hmem
              rfl

/-- Translating first makes no difference to a way to relink that does not tell a definition from
what it is translated to. -/
theorem translation_andThenAll {link : Relink} {mention : Mention}
    (htype : ∀ ref, link.onType ((world.translation importer).onType ref) = link.onType ref)
    (hfield : ∀ ref, link.onField ((world.translation importer).onField ref) = link.onField ref)
    (hmethod : ∀ ref, link.onMethod ((world.translation importer).onMethod ref) = link.onMethod ref)
    (howner : ∀ owner,
      link.onOwner ((world.translation importer).onOwner owner) = link.onOwner owner)
    (hadmits : world.Admits importer mention)
    (hprovides : ∀ token, world.Awaits importer mention token →
      (world.slotFor? importer token).isSome) :
    ((world.translation importer).andThenAll link).AgreesOn link mention := by
  -- Only definitions are translated; for each kind the translation is the definition itself or its
  -- declaration.
  cases mention with
  | ownerDeclaration id | slot slot =>
      simp only [Relink.AgreesOn, Relink.andThenAll, translation, translatedOwner,
        VarOwner.relinkAll]
  | ownerDefinition id =>
      have hsame := howner (.method (.definition id))
      simp only [Relink.AgreesOn, Relink.andThenAll]
      rw [← hsame]
      rcases translation_owner hprovides with ⟨heq, -⟩ | ⟨declaration, heq⟩ | ⟨slot, heq⟩ <;>
        rw [heq, VarOwner.relinkAll]
  | target target =>
      cases target with
      | unknown => trivial
      | declaration declaration =>
          cases declaration <;> trivial
      | definition definition =>
          cases definition with
          | type id =>
              have hsame := htype (.definition id)
              simp only [Relink.AgreesOn, Relink.AgreesAt, Relink.andThenAll]
              rw [← hsame]
              rcases translation_type hadmits with ⟨heq, -⟩ | ⟨declaration, heq⟩ <;>
                rw [heq, TypeRef.relinkAll]
          | field id =>
              have hsame := hfield (.definition id)
              simp only [Relink.AgreesOn, Relink.AgreesAt, Relink.andThenAll]
              rw [← hsame]
              rcases translation_field hadmits with ⟨heq, -⟩ | ⟨declaration, heq⟩ <;>
                rw [heq, FieldRef.relinkAll]
          | method id =>
              have hsame := hmethod (.definition id)
              simp only [Relink.AgreesOn, Relink.AgreesAt, Relink.andThenAll]
              rw [← hsame]
              rcases translation_method hadmits with ⟨heq, -⟩ | ⟨declaration, heq⟩ <;>
                rw [heq, MethodRef.relinkAll]
          | module | property | event => trivial

/-- Translating twice is translating once. -/
theorem translation_translation {mention : Mention} (hadmits : world.Admits importer mention)
    (hprovides : ∀ token, world.Awaits importer mention token →
      (world.slotFor? importer token).isSome) :
    ((world.translation importer).andThenAll (world.translation importer)).AgreesOn
      (world.translation importer) mention := by
  refine translation_andThenAll (fun ref => ?_) (fun ref => ?_) (fun ref => ?_) (fun owner => ?_)
    hadmits hprovides
  · cases ref with
    | definition id =>
        by_cases howns : world.ownsType importer id = true <;>
          cases hbound : world.boundType? importer id <;> simp [translation, bind, howns, hbound]
    | _ => rfl
  · cases ref with
    | definition id =>
        by_cases howns : world.ownsField importer id = true <;>
          cases hbound : world.boundField? importer id <;> simp [translation, bind, howns, hbound]
    | _ => rfl
  · cases ref with
    | definition id =>
        by_cases howns : importer.ownsMethod world id = true <;>
          cases hbound : world.boundMethod? importer id <;> simp [translation, bind, howns, hbound]
    | _ => rfl
  · cases owner with
    | method owner =>
        cases owner with
        | definition id =>
            by_cases howns : importer.ownsMethod world id = true <;>
              cases hbound : world.boundMethod? importer id <;>
              cases hslot : world.slotFor? importer (world.defs.token (.method id)) <;>
              simp [translation, translatedOwner, ownerSlot, howns, hbound, hslot]
        | _ => rfl
    | _ => rfl

/-- Translating keeps the shape. -/
theorem translation_blank {mention : Mention} (hadmits : world.Admits importer mention)
    (hprovides : ∀ token, world.Awaits importer mention token →
      (world.slotFor? importer token).isSome) :
    ((world.translation importer).andThenAll .blank).AgreesOn .blank mention :=
  translation_andThenAll (fun _ => rfl) (fun _ => rfl) (fun _ => rfl) (fun _ => rfl) hadmits
    hprovides

end World

section Faithful

variable {α : Type} {importer : ImporterId} {mentions : α → List Mention}
  {relinkAll : Relink → α → α} {same : TypeNames → Comparison → α → α → Bool} {run : α → Task α}
  {world final : World} {value imported : α}

/-- What is known when an import has succeeded. -/
structure Succeeded (importer : ImporterId) (mentions : α → List Mention)
    (relinkAll : Relink → α → α) (value imported : α) (world final : World) : Prop where
  admits : ∀ mention ∈ mentions value, final.Admits importer mention
  translated : imported = relinkAll (final.translation importer) value
  provides : final.Provides importer (mentions value)
  reserves : ∃ tokens, World.Reserves importer world tokens final

namespace Succeeded

theorem of_ok (htranslates : Task.Translates importer (mentions value)
      (fun link => relinkAll link value) (run value))
    (hlive : world.importers.has importer.index = true)
    (hon : (run value).on world = (.ok imported, final)) :
    Succeeded importer mentions relinkAll value imported world final := by
  have h := htranslates world hlive
  rw [hon] at h
  obtain ⟨tokens, hreserves, -⟩ := h.reserves
  have hadmits := h.admits imported rfl
  obtain ⟨himported, hprovides⟩ := h.succeeds hadmits
  exact ⟨hreserves.quiet.admits_eq ▸ hadmits, Except.ok.inj himported, hprovides, tokens,
    hreserves⟩

theorem settled (h : Succeeded importer mentions relinkAll value imported world final)
    (hrelinks : RelinksAll mentions relinkAll) :
    ∀ mention ∈ mentions imported, final.Settled importer mention := by
  rw [h.translated, hrelinks.mentions_relinkAll]
  intro mention hmem
  obtain ⟨origin, horigin, himage⟩ := List.mem_flatMap.mp hmem
  exact World.settled_of_mem_imageAll (h.admits origin horigin) (h.provides origin horigin) himage

/-- What has been imported is imported as it is. -/
theorem again (h : Succeeded importer mentions relinkAll value imported world final)
    (hrelinks : RelinksAll mentions relinkAll)
    (htranslates : Task.Translates importer (mentions imported)
      (fun link => relinkAll link imported) (run imported))
    (hlive : final.importers.has importer.index = true) :
    (run imported).on final = (.ok imported, final) := by
  have hsettled := h.settled hrelinks
  have hagain := htranslates final hlive
  obtain ⟨tokens, hreserves, htokens⟩ := hagain.reserves
  -- Nothing that has been imported awaits anything, so there is nothing to reserve.
  cases hreserves' : tokens with
  | cons token rest =>
      obtain ⟨mention, hmem, hawaits⟩ := htokens token (hreserves' ▸ List.mem_cons_self)
      exact absurd hawaits ((hsettled mention hmem).not_awaits token)
  | nil =>
      have hfinal : ((run imported).on final).2 = final := by
        rw [hreserves'] at hreserves
        exact hreserves.eq_of_nil
      obtain ⟨hvalue, -⟩ := hagain.succeeds fun mention hmem => (hsettled mention hmem).admits
      rw [hfinal] at hvalue
      have hsame : relinkAll (final.translation importer) imported = imported := by
        rw [h.translated, hrelinks.relinkAll_relinkAll]
        exact hrelinks.relinkAll_congr value fun mention hmem =>
          World.translation_translation (h.admits mention hmem) (h.provides mention hmem)
      rw [hsame] at hvalue
      exact Prod.ext hvalue hfinal

end Succeeded

/-- Whatever is translated like signatures is imported faithfully. -/
theorem faithful_of_translates (hrelinks : RelinksAll mentions relinkAll) (htranslates : ∀ value,
      Task.Translates importer (mentions value) (fun link => relinkAll link value) (run value))
    (hsame : ∀ value final, (run value).on final = (.ok value, final) →
      same final.typeNames .strict value value = true)
    (hslotted : world.Slotted importer) (value : α) :
    FaithfulImport importer mentions relinkAll same run world value := by
  have hok {imported : α} {final : World} (hon : (run value).on world = (.ok imported, final)) :
      Succeeded importer mentions relinkAll value imported world final :=
    .of_ok (htranslates value) hslotted.live hon
  -- Every token is bound or waits by now, so a second import is a translation of the first one.
  have hagain {imported : α} {final : World} (hon : (run value).on world = (.ok imported, final)) :
      (run imported).on final = (.ok imported, final) := by
    obtain ⟨tokens, hreserves⟩ := (hok hon).reserves
    exact (hok hon).again hrelinks (htranslates imported) (hreserves.live hslotted.live)
  refine
    { succeeds := ?_
      translated := fun imported final hon => (hok hon).translated
      shape := fun imported final hon => ?_
      clean := fun imported final hon => ?_
      pending := fun imported final hon id hmem howns hbound => ?_
      again := fun imported final hon => hagain hon
      equal := fun imported final hon => hsame imported final (hagain hon) }
  · rw [← World.admits_iff]
    constructor
    · rintro ⟨imported, final, hon⟩
      have h := htranslates value world hslotted.live
      rw [hon] at h
      exact h.admits imported rfl
    · intro hadmits
      exact ⟨_, _, Prod.ext ((htranslates value world hslotted.live).succeeds hadmits).1 rfl⟩
  · have h := hok hon
    rw [h.translated, hrelinks.relinkAll_relinkAll]
    exact hrelinks.relinkAll_congr value fun mention hmem =>
      World.translation_blank (h.admits mention hmem) (h.provides mention hmem)
  · have hsettled := (hok hon).settled hrelinks
    exact ⟨fun definition hmem => hsettled _ hmem, fun id hmem => hsettled _ hmem⟩
  · have h := hok hon
    obtain ⟨tokens, hreserves⟩ := h.reserves
    have hquiet := hreserves.quiet
    have hunbound : world.boundMethod? importer id = none := Option.map_eq_none_iff.mp hbound
    have hawaits : final.Awaits importer (.ownerDefinition id) (world.defs.token (.method id)) :=
      hquiet.awaits_iff.mpr ⟨id, rfl, howns, rfl, hunbound⟩
    obtain ⟨slot, hslot⟩ := Option.isSome_iff_exists.mp (h.provides _ hmem _ hawaits)
    have hslotted' := hslotted.reserves hreserves
    have hmethod : final.methodFor? importer (world.defs.token (.method id)) = none := by
      rw [hquiet.methodFor?_eq]
      exact hunbound
    refine ⟨slot, hslot, ?_, hslotted'.waits _ slot hmethod hslot⟩
    rw [h.translated, hrelinks.mentions_relinkAll]
    refine List.mem_flatMap.mpr ⟨_, hmem, ?_⟩
    have howner : (final.translation importer).onOwner (.method (.definition id)) =
        .deferred slot := by
      have hdefs := hquiet.defs
      refine World.translation_owner_of_slot ?_ ?_ ?_
      · rw [hquiet.ownsMethod_eq]
        exact howns
      · rw [World.boundMethod?, hdefs]
        exact hmethod
      · rw [hdefs]
        exact hslot
    rw [Relink.imageAll, howner]
    exact List.mem_singleton_self _

end Faithful

/-- In every state that an importer can come into, type signatures and method signatures are
imported faithfully. -/
theorem ImportHistory.imports_faithfully (history : ImportHistory) (moment : Nat) :
    (∀ signature, FaithfulImport history.importer TypeSig.mentions TypeSig.relinkAll TypeSig.same
      history.importer.importTypeSig (history.world moment) signature) ∧
    ∀ signature, FaithfulImport history.importer MethodSig.mentions MethodSig.relinkAll
      MethodSig.same history.importer.importMethodSig (history.world moment) signature := by
  have hslotted := history.slotted moment
  constructor
  · refine faithful_of_translates TypeSig.relinksAll ImporterId.translates_importTypeSig ?_ hslotted
    intro signature final hon
    have himports := (ImporterId.quiet_importTypeSig signature final (.refl final)).2 signature
      (congrArg Prod.fst hon)
    exact TypeSig.same_self fun hmem => himports.1 _ hmem
  · refine faithful_of_translates MethodSig.relinksAll ImporterId.translates_importMethodSig ?_
      hslotted
    intro signature final hon
    have himports := (ImporterId.quiet_importMethodSig signature final (.refl final)).2 signature
      (congrArg Prod.fst hon)
    exact MethodSig.same_self fun hmem => himports.1 _ hmem

end Graft
