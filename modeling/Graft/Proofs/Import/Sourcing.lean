import Graft.Proofs.Import.Gathering
import Graft.Proofs.Import.Translating

/-!
# Where declared signatures come from

What an import declares for a member has the signature of a member that is mapped to it, imported.
A generic variable in it whose owner is a method of the patch module is owned by what a mapped
method with its token stands for, or by the slot of the token, and once a method is bound its slot
is filled with what a mapped method with its token stands for (`Sourced`). Every member that is
declared leaves this as it is (`preserves_sourced`).
-/

namespace Graft

/-! ## Signatures of members -/

/-- The signature of a definition, if it is a member of a type. -/
def Definitions.shape (defs : Definitions) : Definition → Shape
  | .module _ | .type _ => .none
  | .field id => .field (defs.field id).signature
  | .method id => .method (defs.method id).signature
  | .property id => .property (defs.property id).signature
  | .event id => .event (defs.event id).type

/-- What the signature of a member refers to, at any depth. -/
def Shape.mentions : Shape → List Mention
  | .none => []
  | .field signature => signature.mentions
  | .method signature => signature.mentions
  | .property signature => signature.mentions
  | .event type => type.mentions

/-- The signature of a member relinked at every depth. -/
def Shape.relinkAll (link : Relink) : Shape → Shape
  | .none => .none
  | .field signature => .field (signature.relinkAll link)
  | .method signature => .method (signature.relinkAll link)
  | .property signature => .property (signature.relinkAll link)
  | .event type => .event (type.relinkAll link)

namespace ImporterId

open Graft.Task

theorem translates_importPropertySig {importer : ImporterId} (signature : PropertySig) :
    Translates importer signature.mentions (fun link => signature.relinkAll link)
      (importer.importPropertySig signature) :=
  (translates_importTypeSig signature.type).bind (fun _ _ => signature.type.relinkAll_congr)
    fun type => (translates_importTypeSigs signature.params).map fun params =>
      { signature with type, params }

end ImporterId

namespace ImportJob

open Graft.Task

variable (job : ImportJob) (defs : Definitions) (items : Counterpart → Prop) (world : World)

/-- Whether a mapped method with a token stands for a declaration. -/
def Answers (token : Token) (id : DeclId .method) : Prop :=
  ∃ item method, items item ∧ item.definition = .method method ∧
    defs.token (.method method) = token ∧ item.declaration = .method id

/-- Whether an owner of generic variables leads to the methods with a token: it is what a mapped one
stands for, or their slot. -/
def Traces (token : Token) : VarOwner → Prop
  | .method (.declared id) => Answers defs items token id
  | .deferred slot => world.slotFor? job.importer token = some slot
  | _ => False

/-- Whether a signature is that of a definition, imported: where a method of the patch module owned
a generic variable, there is an owner that leads to it. -/
def Stems (definition : Definition) (shape : Shape) : Prop :=
  ∃ link : Relink, shape = (defs.shape definition).relinkAll link ∧
    ∀ method, .ownerDefinition method ∈ (defs.shape definition).mentions →
      job.importer.ownsMethod world method = true →
      job.Traces defs items world (defs.token (.method method))
        (link.onOwner (.method (.definition method)))

/-- Whether whatever is mapped stands for something with an imported signature, and the slots of
methods that are bound are filled. -/
structure Sourced : Prop where
  slotted : world.Slotted job.importer
  filled : ∀ token slot, world.slotFor? job.importer token = some slot →
    world.methodFor? job.importer token ≠ none →
    ∃ id, world.slot? slot = some id ∧ Answers defs items token id
  stems : ∀ item, items item → ∃ origin, items origin ∧ origin.declaration = item.declaration ∧
    job.Stems defs items world origin.definition (world.decls.statement item.declaration).shape

variable {job defs items world} {items' : Counterpart → Prop} {next : World} {token : Token}
  {roots : List (DeclId .module)} {typed : World}

/-! ## What stays -/

section Mono

variable (hitems : ∀ item, items item → items' item)

include hitems

theorem Answers.mono {id : DeclId .method} (h : Answers defs items token id) :
    Answers defs items' token id := by
  obtain ⟨item, method, hitem, hrest⟩ := h
  exact ⟨item, method, hitems item hitem, hrest⟩

theorem Traces.mono {owner : VarOwner} (h : job.Traces defs items world token owner)
    (hslots : ∀ slot, world.slotFor? job.importer token = some slot →
      next.slotFor? job.importer token = some slot) :
    job.Traces defs items' next token owner := by
  cases owner with
  | method ref =>
      cases ref with
      | declared id => exact Answers.mono hitems h
      | definition | external | instantiated => exact h.elim
  | deferred slot => exact hslots slot h
  | unbound | type => exact h.elim

theorem Stems.mono {definition : Definition} {shape : Shape}
    (h : job.Stems defs items world definition shape)
    (hslots : ∀ token slot, world.slotFor? job.importer token = some slot →
      next.slotFor? job.importer token = some slot)
    (howns : job.importer.ownsMethod next = job.importer.ownsMethod world) :
    job.Stems defs items' next definition shape := by
  obtain ⟨link, heq, hlink⟩ := h
  exact ⟨link, heq, fun method hmem hmethod =>
    (hlink method hmem (howns ▸ hmethod)).mono hitems (hslots _)⟩

end Mono

/-- While all that has been mapped are types there is nothing but slots that wait. -/
theorem Progress.sourced (h : job.Progress defs roots items world)
    (hslotted : world.Slotted job.importer)
    (htypes : ∀ item, items item → ∃ id, item.definition = .type id) :
    job.Sourced defs items world where
  slotted := hslotted
  filled token slot _ hbound := by
    obtain ⟨id, hid⟩ := Option.ne_none_iff_exists'.mp hbound
    obtain ⟨item, method, hitem, hdefinition, -⟩ := h.binds.methods token id hid
    obtain ⟨type, htype⟩ := htypes item hitem
    cases htype.symm.trans hdefinition
  stems item hitem := by
    obtain ⟨id, hid⟩ := htypes item hitem
    have hkind := h.mapped.kinds item hitem
    have hshape : (world.decls.statement item.declaration).shape = .none := by
      cases hdeclaration : item.declaration with
      | type => rfl
      | module | field | method | property | event =>
          rw [hdeclaration, hid] at hkind
          cases hkind
    exact ⟨item, hitem, rfl, .blank, by simp [hshape, hid, Definitions.shape, Shape.relinkAll],
      by simp [hid, Definitions.shape, Shape.mentions]⟩

/-- What is imported has slots reserved, and methods with slots that are new stand for nothing. -/
theorem Sourced.reserves {tokens : List Token} (h : job.Sourced defs items world)
    (hreserves : World.Reserves job.importer world tokens next) :
    job.Sourced defs items next where
  slotted := h.slotted.reserves hreserves
  filled token slot hslot hbound := by
    have hquiet := hreserves.quiet
    rw [hquiet.methodFor?_eq] at hbound
    rw [hreserves.slot?_eq]
    refine h.filled token slot ?_ hbound
    cases hold : world.slotFor? job.importer token with
    | none =>
        exact absurd (hreserves.methodFor?_of_new h.slotted.live hold (by simp [hslot])) hbound
    | some old => rw [← hslot, hreserves.slotFor?_eq h.slotted.live hold]
  stems item hitem := by
    have hquiet := hreserves.quiet
    obtain ⟨origin, horigin, heq, hstems⟩ := h.stems item hitem
    refine ⟨origin, horigin, heq, hquiet.decls ▸ hstems.mono (fun _ => id) (fun token slot => ?_)
      hquiet.ownsMethod_eq⟩
    exact hreserves.slotFor?_eq h.slotted.live

/-- A member that is declared has the signature of the member that is mapped to it now, or the one
of a member that was mapped to it before. -/
theorem Sourced.plant {holder declaration : Declaration} {definition : Definition} {intent : Intent}
    {space? : Option String} {name : String} (h : job.Sourced defs items world)
    (hmapped : job.Mapped defs roots items world.decls) (hholder : Holds roots items holder)
    (hplants : world.decls.Plants next.decls holder declaration intent.policy space? name)
    (hstill : world.SameMethods job.importer next)
    (hstems : declaration ∈ world.decls.members holder declaration.kind ∨
      job.Stems defs items world definition (next.decls.statement declaration).shape) :
    job.Sourced defs (fun item => items item ∨ item = ⟨definition, intent, declaration⟩) next := by
  have hmono {definition' : Definition} {shape : Shape}
      (hstems : job.Stems defs items world definition' shape) :
      job.Stems defs (fun item => items item ∨ item = ⟨definition, intent, declaration⟩) next
        definition' shape :=
    hstems.mono (fun _ => .inl) (fun token slot => hstill.slotFor?_eq ▸ id) hstill.ownsMethod_eq
  have hold {item : Counterpart} (hitem : items item) :
      ∃ origin, (items origin ∨ origin = ⟨definition, intent, declaration⟩) ∧
        origin.declaration = item.declaration ∧
        job.Stems defs (fun item => items item ∨ item = ⟨definition, intent, declaration⟩) next
          origin.definition (next.decls.statement item.declaration).shape := by
    obtain ⟨origin, horigin, heq, hstems⟩ := h.stems item hitem
    rw [(hplants.keeps.stays _ (hmapped.there item hitem)).shape]
    exact ⟨origin, .inl horigin, heq, hmono hstems⟩
  refine ⟨hstill.slotted h.slotted, fun token slot => ?_, ?_⟩
  · rw [hstill.slotFor?_eq, hstill.methodFor?_eq, hstill.slot?_eq]
    intro hslot hbound
    obtain ⟨id, hid, hanswers⟩ := h.filled token slot hslot hbound
    exact ⟨id, hid, hanswers.mono fun _ => .inl⟩
  · rintro item (hitem | rfl)
    · exact hold hitem
    · obtain hlisted | hstems := hstems
      · obtain ⟨-, ⟨item, hitem, heq⟩, -⟩ := hmapped.only _ _ _ hholder hlisted
        exact heq ▸ hold hitem
      · exact ⟨_, .inr rfl, rfl, hmono hstems⟩

/-- When a method is bound, its slot is filled if it waited. -/
theorem yields_bindMethod_sourced {declaration : DeclId .method} (h : job.Sourced defs items world)
    (hanswers : Answers defs items token declaration) :
    Yields world (job.importer.bindMethod token declaration) fun _ => job.Sourced defs items := by
  intro _ next hon
  have hquiet := yields_bindMethod _ _ hon
  obtain rfl : (ImportEvent.bindMethod token declaration).after job.importer world = next :=
    congrArg Prod.snd hon
  have hself := ImportEvent.importer_bindMethod token declaration h.slotted.live
  have heffect := ImportEvent.effect_bindMethod token declaration h.slotted.live
  have hslotFor (other : Token) :
      ((ImportEvent.bindMethod token declaration).after job.importer world).slotFor? job.importer
        other = world.slotFor? job.importer other := by
    rw [World.slotFor?, hself]
    rfl
  refine ⟨h.slotted.event _, fun other slot hslot hbound => ?_, fun item hitem => ?_⟩
  · rw [hslotFor] at hslot
    cases hold : world.methodFor? job.importer other with
    | some id =>
        obtain ⟨id, hid, hanswers⟩ := h.filled other slot hslot (by simp [hold])
        exact ⟨id, hquiet.slots slot id hid, hanswers⟩
    | none =>
        -- The method stood for nothing, so it is the one that is bound, and its slot waited.
        obtain rfl : token = other := by
          by_contra hne
          rw [heffect.methodFor, hold] at hbound
          simp [ImportEvent.binds?, hne] at hbound
        obtain ⟨hempty, hwaits⟩ := h.slotted.waits token slot hold hslot
        refine ⟨declaration, ?_, hanswers⟩
        rw [heffect.slot]
        exact World.slot?_afterTurns_own hwaits (h.slotted.issued token slot hslot) hempty
  · obtain ⟨origin, horigin, heq, hstems⟩ := h.stems item hitem
    have hdecls : ((ImportEvent.bindMethod token declaration).after job.importer world).decls =
        world.decls := hquiet.decls
    refine ⟨origin, horigin, heq, hdecls ▸ hstems.mono (fun _ => id) (fun other slot hslot => ?_)
      (job.importer.ownsMethod_congr hquiet.defs ?_)⟩
    · rwa [hslotFor]
    · rw [hself]
      rfl

/-! ## Members -/

/-- The signature of a definition, imported. -/
theorem yields_import {α : Type} (definition : Definition) (toShape : α → Shape)
    {read : Relink → α} {task : Task α}
    (htranslates : Translates job.importer (defs.shape definition).mentions read task)
    (hread : ∀ link, toShape (read link) = (defs.shape definition).relinkAll link)
    (hjoined : Joined typed job defs roots items world) (h : job.Sourced defs items world) :
    Yields world task fun value next => Joined typed job defs roots items next ∧
      job.Sourced defs items next ∧ job.Stems defs items next definition (toShape value) := by
  intro value next hon
  have htranslated := htranslates world h.slotted.live
  rw [hon] at htranslated
  obtain ⟨tokens, hreserves, -⟩ := htranslated.reserves
  obtain ⟨hvalue, hprovides⟩ := htranslated.succeeds (htranslated.admits value rfl)
  have hjoined := hjoined.quiet hreserves.quiet
  have hdefs := hjoined.progress.unchanged
  refine ⟨hjoined, h.reserves hreserves, next.translation job.importer, ?_,
    fun method hmem howns => ?_⟩
  · rw [Except.ok.inj hvalue, hread]
  -- An owner stands for a declaration by now, or has a slot.
  cases hbound : next.boundMethod? job.importer method with
  | some id =>
      rw [World.translation_owner_of_bound howns hbound]
      exact hjoined.progress.binds.methods _ id (hdefs ▸ hbound)
  | none =>
      obtain ⟨slot, hslot⟩ := Option.isSome_iff_exists.mp
        (hprovides _ hmem _ ⟨method, rfl, howns, rfl, hbound⟩)
      rw [World.translation_owner_of_slot howns hbound hslot]
      exact hdefs ▸ hslot

section Members

variable {owner : Imported .type} {intent : Intent}
  (hjoined : Joined typed job defs roots items world) (h : job.Sourced defs items world)
  (howner : items (owner.counterpart .type .type))

include hjoined h howner

theorem sourced_declareField {id : DefId .field} :
    Yields world (job.declareField owner.declaration id (defs.token (.field id)) intent)
      fun declaration => job.Sourced defs fun item =>
        items item ∨ item = ⟨.field id, intent, .field declaration⟩ := by
  unfold declareField
  refine .get ?_
  rw [hjoined.progress.unchanged]
  refine .bind (yields_import (.field id) .field (ImporterId.translates_importTypeSig _)
    (fun _ => rfl) hjoined h) ?_
  rintro signature next ⟨hjoined, h, hstems⟩
  have hholds : Holds roots items (.type owner.declaration) := Joined.holds howner
  refine .bind (Task.yields_declareField (hjoined.progress.mapped.has hholds) fun kind node hmem =>
    hjoined.progress.mapped.has_member hholds hmem) ?_
  rintro declaration middle ⟨hsame, hplants, hshape⟩
  refine .bind yields_changeImporter ?_
  rintro _ _ rfl
  exact .pure (h.plant hjoined.progress.mapped hholds hplants
    (sameMethods_of_redeclares h.slotted.live hsame fun _ => ⟨rfl, rfl, rfl, rfl⟩)
    (hshape.imp_right fun hshape => by rwa [hshape]))

theorem sourced_declareProperty {id : DefId .property} :
    Yields world (job.declareProperty owner.declaration id (defs.token (.property id)) intent)
      fun declaration => job.Sourced defs fun item =>
        items item ∨ item = ⟨.property id, intent, .property declaration⟩ := by
  unfold declareProperty
  refine .get ?_
  rw [hjoined.progress.unchanged]
  refine .bind (yields_import (.property id) .property (ImporterId.translates_importPropertySig _)
    (fun _ => rfl) hjoined h) ?_
  rintro signature next ⟨hjoined, h, hstems⟩
  have hholds : Holds roots items (.type owner.declaration) := Joined.holds howner
  refine (Task.yields_declareProperty (hjoined.progress.mapped.has hholds) fun kind node hmem =>
    hjoined.progress.mapped.has_member hholds hmem).mono ?_
  rintro declaration last ⟨hsame, hplants, hshape⟩
  exact h.plant hjoined.progress.mapped hholds hplants (hsame.sameMethods h.slotted.live)
    (hshape.imp_right fun hshape => by rwa [hshape])

theorem sourced_declareEvent {id : DefId .event} :
    Yields world (job.declareEvent owner.declaration id (defs.token (.event id)) intent)
      fun declaration => job.Sourced defs fun item =>
        items item ∨ item = ⟨.event id, intent, .event declaration⟩ := by
  unfold declareEvent
  refine .get ?_
  rw [hjoined.progress.unchanged]
  refine .bind (yields_import (.event id) .event (ImporterId.translates_importTypeRef _)
    (fun _ => rfl) hjoined h) ?_
  rintro type next ⟨hjoined, h, hstems⟩
  have hholds : Holds roots items (.type owner.declaration) := Joined.holds howner
  refine (Task.yields_declareEvent (hjoined.progress.mapped.has hholds) fun kind node hmem =>
    hjoined.progress.mapped.has_member hholds hmem).mono ?_
  rintro declaration last ⟨hsame, hplants, hshape⟩
  exact h.plant hjoined.progress.mapped hholds hplants (hsame.sameMethods h.slotted.live)
    (hshape.imp_right fun hshape => by rwa [hshape])

theorem sourced_declareMethod {id : DefId .method} :
    Yields world (job.declareMethod owner.declaration id (defs.token (.method id)) intent)
      fun declaration => job.Sourced defs fun item =>
        items item ∨ item = ⟨.method id, intent, .method declaration⟩ := by
  unfold declareMethod
  refine .get ?_
  rw [hjoined.progress.unchanged]
  refine .bind (yields_import (.method id) .method (ImporterId.translates_importMethodSig _)
    (fun _ => rfl) hjoined h) ?_
  rintro signature next ⟨hjoined, h, hstems⟩
  have hholds : Holds roots items (.type owner.declaration) := Joined.holds howner
  refine .bind (Task.yields_declareMethod (hjoined.progress.mapped.has hholds) fun kind node hmem =>
    hjoined.progress.mapped.has_member hholds hmem) ?_
  rintro declaration middle ⟨hsame, hplants, hoverload⟩
  have hplanted : job.Sourced defs
      (fun item => items item ∨ item = ⟨.method id, intent, .method declaration⟩) middle := by
    refine h.plant hjoined.progress.mapped hholds hplants (hsame.sameMethods h.slotted.live) ?_
    obtain ⟨hlisted, -⟩ | ⟨rfl, -⟩ := hoverload
    · exact .inl (List.mem_map_of_mem hlisted)
    · exact .inr hstems
  refine .bind (yields_bindMethod_sourced hplanted ?_) fun _ _ hlast => .pure hlast
  exact ⟨_, id, .inr rfl, rfl, rfl, rfl⟩

end Members

/-- What is declared stays what has been mapped, with signatures that are imported. -/
theorem preserves_sourced : job.Preserves defs fun items world =>
    Joined typed job defs roots items world ∧ job.Sourced defs items world where
  unchanged h := h.1.progress.unchanged
  field type id intent _ _ h howner hmem :=
    (preserves_joined.field type id intent h.1 howner hmem).and
      (sourced_declareField h.1 h.2 howner)
  method type id intent _ _ h howner hmem :=
    (preserves_joined.method type id intent h.1 howner hmem).and
      (sourced_declareMethod h.1 h.2 howner)
  property type id intent _ _ h howner hmem :=
    (preserves_joined.property type id intent h.1 howner hmem).and
      (sourced_declareProperty h.1 h.2 howner)
  event type id intent _ _ h howner hmem :=
    (preserves_joined.event type id intent h.1 howner hmem).and
      (sourced_declareEvent h.1 h.2 howner)

end ImportJob

end Graft
