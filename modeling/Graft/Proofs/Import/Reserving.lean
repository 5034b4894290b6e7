import Graft.Proofs.Import.Mapping
import Graft.Proofs.Signature.Mentions

/-!
# What imports do to an importer

An import looks up what stands for the definitions of the patch module, and that is all it does,
but for one thing: a method that owns a generic variable and stands for nothing yet gets a slot,
once (`World.reserve`). So an import ends in a world that a few reservations lead to
(`World.Reserves`), it succeeds when everything that it meets at any depth can be imported
(`World.Admits`), and the outcome is what it was given, relinked as that last world says
(`World.translation`). `Task.Translates` states the three together and is kept by doing one thing
after another.
-/

namespace Graft

/-- A state with a slot in which a method is put once it stands for a declaration. -/
def Importer.reserve (state : Importer) (token : Token) (slot : SlotId) : Importer :=
  { state with
    pending := state.pending.insert token ((state.pending.get? token).getD [] ++ [.own slot])
    deferred := state.deferred.insert token slot }

namespace World

variable (world : World) (importer : ImporterId)

/-- The declaration that the method with a token stands for, whether or not it still exists. -/
def methodFor? (token : Token) : Option (DeclId .method) :=
  (world.importer importer).methods.get? token

/-- The slot for the method with a token, if it has one. -/
def slotFor? (token : Token) : Option SlotId :=
  (world.importer importer).deferred.get? token

/-- The work that waits for the method with a token. -/
def queue (token : Token) : List Continuation :=
  ((world.importer importer).pending.get? token).getD []

/-- The world with a new slot for a method. -/
def reserve (token : Token) : World :=
  { world with
    slots := world.slots.push none
    importers := world.importers.update importer.index fun state =>
      state.reserve token ⟨world.slots.size⟩ }

/-- The worlds that are reached by giving slots to methods that stand for nothing and have none,
one after the other. -/
inductive Reserves (importer : ImporterId) : World → List Token → World → Prop
  | nil (world : World) : Reserves importer world [] world
  | cons {world final : World} {token : Token} {tokens : List Token}
      (unbound : world.methodFor? importer token = none)
      (fresh : world.slotFor? importer token = none)
      (rest : Reserves importer (world.reserve importer token) tokens final) :
      Reserves importer world (token :: tokens) final

/-- Whether a mention can be imported. A method that owns a variable itself always can. -/
def Admits : Mention → Prop
  | .target target => world.Imports importer target
  | _ => True

/-- The slot of a method that owns a variable, or the method itself if it has none. -/
def ownerSlot (id : DefId .method) : VarOwner :=
  (world.slotFor? importer (world.defs.token (.method id))).elim (.method (.definition id))
    .deferred

/-- What becomes of the owner of a generic variable, if it is a method of the patch module. -/
def translatedOwner : VarOwner → VarOwner
  | .method (.definition id) =>
    if importer.ownsMethod world id then
      (world.boundMethod? importer id).elim (world.ownerSlot importer id)
        fun declaration => .method (.declared declaration)
    else .method (.definition id)
  | owner => owner

/-- A way to relink that replaces definitions of the patch module by the declarations that they
stand for, and methods that own variables and stand for nothing by their slots. -/
def translation : Relink where
  onType := (world.bind importer).onType
  onField := (world.bind importer).onField
  onMethod := (world.bind importer).onMethod
  onOwner := world.translatedOwner importer

/-- Whether a mention is a method of the patch module that owns a variable and stands for
nothing. -/
def Awaits (mention : Mention) (token : Token) : Prop :=
  ∃ id, mention = .ownerDefinition id ∧ importer.ownsMethod world id = true ∧
    world.defs.token (.method id) = token ∧ world.methodFor? importer token = none

/-- Whether whatever waits for its method among some mentions has a slot. -/
def Provides (mentions : List Mention) : Prop :=
  ∀ mention ∈ mentions, ∀ token, world.Awaits importer mention token →
    (world.slotFor? importer token).isSome

section Reserve

variable {world final next : World} {importer : ImporterId} {token other : Token}
  {tokens tokens' : List Token} {mention : Mention} {mentions : List Mention}

theorem quiet_reserve : world.Quiet (world.reserve importer token) := by
  have hslots : world.Quiet { world with slots := world.slots.push none } := by
    refine ⟨rfl, rfl, rfl, rfl, fun _ => rfl, fun _ => rfl, fun _ => rfl, fun _ => rfl, ?_,
      fun _ h => h⟩
    exact (ImporterId.quiet_makeSlot world (.refl world)).1.slots
  exact hslots.trans (Quiet.ofImporter fun _ => ⟨rfl, rfl, rfl, rfl⟩)

/-- A reservation changes its importer and no other thing of it but queue and slots. -/
theorem importer_reserve (hlive : world.importers.has importer.index = true) :
    (world.reserve importer token).importer importer =
      (world.importer importer).reserve token ⟨world.slots.size⟩ :=
  importer_update_self hlive _

theorem slotFor?_reserve (hlive : world.importers.has importer.index = true) :
    (world.reserve importer token).slotFor? importer other =
      if token = other then some ⟨world.slots.size⟩ else world.slotFor? importer other := by
  rw [slotFor?, importer_reserve hlive]
  exact Dictionary.get?_insert ..

theorem queue_reserve (hlive : world.importers.has importer.index = true) :
    (world.reserve importer token).queue importer other =
      if token = other then world.queue importer other ++ [.own ⟨world.slots.size⟩]
      else world.queue importer other := by
  rw [queue, importer_reserve hlive]
  simp only [Importer.reserve, Dictionary.get?_insert, queue]
  split
  · subst other
    rfl
  · rfl

namespace Reserves

theorem append (h : Reserves importer world tokens next)
    (h' : Reserves importer next tokens' final) :
    Reserves importer world (tokens ++ tokens') final := by
  induction h with
  | nil => exact h'
  | cons unbound fresh _ ih => exact .cons unbound fresh (ih h')

theorem eq_of_nil (h : Reserves importer world [] final) : final = world := by
  cases h
  rfl

theorem quiet (h : Reserves importer world tokens final) : world.Quiet final := by
  induction h with
  | nil => exact .refl _
  | cons _ _ _ ih => exact quiet_reserve.trans ih

theorem live (h : Reserves importer world tokens final)
    (hlive : world.importers.has importer.index = true) :
    final.importers.has importer.index = true :=
  h.quiet.importers _ hlive

/-- A slot stays. -/
theorem slotFor?_eq (h : Reserves importer world tokens final) {slot : SlotId}
    (hlive : world.importers.has importer.index = true)
    (hslot : world.slotFor? importer token = some slot) :
    final.slotFor? importer token = some slot := by
  induction h with
  | nil => exact hslot
  | @cons world final first tokens _ fresh _ ih =>
      refine ih (quiet_reserve.importers _ hlive) ?_
      rw [slotFor?_reserve hlive, if_neg, hslot]
      rintro rfl
      rw [fresh] at hslot
      cases hslot

end Reserves

namespace Quiet

theorem methodFor?_eq (h : world.Quiet final) :
    final.methodFor? importer token = world.methodFor? importer token := by
  rw [methodFor?, methodFor?, h.methods]

theorem ownsMethod_eq (h : world.Quiet final) :
    importer.ownsMethod final = importer.ownsMethod world := by
  have hdefs := h.defs
  funext id
  simp only [ImporterId.ownsMethod, ImporterId.ownsMember, hdefs, h.ownsType_eq]

theorem admits_eq (h : world.Quiet final) : final.Admits importer = world.Admits importer := by
  funext mention
  cases mention with
  | target target => exact congrFun h.imports_eq target
  | _ => rfl

theorem awaits_iff (h : world.Quiet final) :
    final.Awaits importer mention token ↔ world.Awaits importer mention token := by
  have hdefs := h.defs
  simp only [Awaits, h.ownsMethod_eq, hdefs, h.methodFor?_eq]

end Quiet

theorem Provides.mono (h : world.Provides importer mentions)
    (hreserves : Reserves importer world tokens final)
    (hlive : world.importers.has importer.index = true) : final.Provides importer mentions := by
  intro mention hmem token hawaits
  obtain ⟨slot, hslot⟩ := Option.isSome_iff_exists.mp
    (h mention hmem token (hreserves.quiet.awaits_iff.mp hawaits))
  exact Option.isSome_iff_exists.mpr ⟨slot, hreserves.slotFor?_eq hlive hslot⟩

/-- Once everything that waits has its slot, further reservations change nothing about how it is
translated. -/
theorem Provides.agreesOn (h : world.Provides importer mentions)
    (hreserves : Reserves importer world tokens final)
    (hlive : world.importers.has importer.index = true) (hmem : mention ∈ mentions) :
    (world.translation importer).AgreesOn (final.translation importer) mention := by
  have hquiet := hreserves.quiet
  have hdefs := hquiet.defs
  cases mention with
  | target target =>
      simp only [Relink.AgreesOn, Relink.AgreesAt, translation, hquiet.bind_eq]
      split <;> trivial
  | ownerDefinition id =>
      simp only [Relink.AgreesOn, translation, translatedOwner, hquiet.ownsMethod_eq, boundMethod?,
        ownerSlot, hdefs, hquiet.methods]
      split
      · rename_i howns
        cases hmethod : (world.importer importer).methods.get? (world.defs.token (.method id)) with
        | some declaration => rfl
        | none =>
            obtain ⟨slot, hslot⟩ := Option.isSome_iff_exists.mp
              (h _ hmem _ ⟨id, rfl, howns, rfl, hmethod⟩)
            simp [hslot, hreserves.slotFor?_eq hlive hslot]
      · rfl
  | ownerDeclaration | slot => rfl

end Reserve

end World

namespace Task

variable {α β : Type}

/-- What an import leaves behind that meets some mentions and answers with what `read` makes of
the way in which they are translated. -/
structure Translated (importer : ImporterId) (mentions : List Mention) (read : Relink → α)
    (world : World) (outcome : Except Error α) (final : World) : Prop where
  reserves : ∃ tokens, World.Reserves importer world tokens final ∧
    ∀ token ∈ tokens, ∃ mention ∈ mentions, world.Awaits importer mention token
  admits : ∀ value, outcome = .ok value → ∀ mention ∈ mentions, world.Admits importer mention
  succeeds : (∀ mention ∈ mentions, world.Admits importer mention) →
    outcome = .ok (read (final.translation importer)) ∧ final.Provides importer mentions

/-- Whether a task leaves that behind wherever it is run. -/
def Translates (importer : ImporterId) (mentions : List Mention) (read : Relink → α)
    (task : Task α) : Prop :=
  ∀ world, world.importers.has importer.index = true →
    Translated importer mentions read world (task.on world).1 (task.on world).2

namespace Translates

variable {importer : ImporterId} {mentions mentions' : List Mention} {read : Relink → α}
  {read' : α → Relink → β} {task : Task α} {next : α → Task β}

theorem pure (value : α) : Translates importer [] (fun _ => value) (Pure.pure value) :=
  fun world _ =>
    { reserves := ⟨[], .nil world, by simp⟩
      admits := by simp
      succeeds := fun _ => ⟨rfl, by simp [World.Provides]⟩ }

/-- What is done after an import may build upon what it answers, as long as that depends on
nothing but how its mentions are translated. -/
theorem bind (htask : Translates importer mentions read task)
    (hread : ∀ link link' : Relink, (∀ mention ∈ mentions, link.AgreesOn link' mention) →
      read link = read link')
    (hnext : ∀ value, Translates importer mentions' (read' value) (next value)) :
    Translates importer (mentions ++ mentions') (fun link => read' (read link) link)
      (task >>= next) := by
  intro world hlive
  have hfirst := htask world hlive
  rw [Task.on_bind]
  cases hon : task.on world with
  | mk outcome middle =>
      rw [hon] at hfirst
      obtain ⟨tokens, hreserves, htokens⟩ := hfirst.reserves
      have hquiet := hreserves.quiet
      cases outcome with
      | error error =>
          refine ⟨⟨tokens, hreserves, fun token htoken => ?_⟩, by simp, fun hadmits => ?_⟩
          · obtain ⟨mention, hmem, hawaits⟩ := htokens token htoken
            exact ⟨mention, List.mem_append_left _ hmem, hawaits⟩
          · have heq := (hfirst.succeeds fun mention hmem =>
              hadmits mention (List.mem_append_left _ hmem)).1
            cases heq
      | ok value =>
          have hsecond := hnext value middle (hreserves.live hlive)
          obtain ⟨tokens', hreserves', htokens'⟩ := hsecond.reserves
          refine ⟨⟨tokens ++ tokens', hreserves.append hreserves', ?_⟩, ?_, ?_⟩
          · rintro token htoken
            rcases List.mem_append.mp htoken with htoken | htoken
            · obtain ⟨mention, hmem, hawaits⟩ := htokens token htoken
              exact ⟨mention, List.mem_append_left _ hmem, hawaits⟩
            · obtain ⟨mention, hmem, hawaits⟩ := htokens' token htoken
              exact ⟨mention, List.mem_append_right _ hmem, hquiet.awaits_iff.mp hawaits⟩
          · intro last hlast
            refine List.forall_mem_append.mpr ⟨hfirst.admits value rfl, ?_⟩
            rw [← hquiet.admits_eq]
            exact hsecond.admits last hlast
          · intro hadmits
            obtain ⟨hadmits, hadmits'⟩ := List.forall_mem_append.mp hadmits
            obtain ⟨hvalue, hprovides⟩ := hfirst.succeeds hadmits
            obtain ⟨hlast, hprovides'⟩ := hsecond.succeeds (hquiet.admits_eq ▸ hadmits')
            -- What the first half answered reads the same in the last world.
            have hsame : read (middle.translation importer) =
                read (((next value).on middle).2.translation importer) :=
              hread _ _ fun mention hmem =>
                hprovides.agreesOn hreserves' (hreserves.live hlive) hmem
            refine ⟨?_, List.forall_mem_append.mpr
              ⟨hprovides.mono hreserves' (hreserves.live hlive), hprovides'⟩⟩
            rw [hlast, ← hsame, Except.ok.inj hvalue]

theorem map (htask : Translates importer mentions read task) (f : α → β) :
    Translates importer mentions (fun link => f (read link)) (task >>= fun value =>
      Pure.pure (f value)) := by
  intro world hlive
  have hfirst := htask world hlive
  rw [Task.on_bind]
  cases hon : task.on world with
  | mk outcome middle =>
      rw [hon] at hfirst
      cases outcome with
      | error error =>
          refine ⟨hfirst.reserves, by simp, fun hadmits => ?_⟩
          cases (hfirst.succeeds hadmits).1
      | ok value =>
          refine ⟨hfirst.reserves, fun _ _ => hfirst.admits value rfl, fun hadmits => ?_⟩
          obtain ⟨hvalue, hprovides⟩ := hfirst.succeeds hadmits
          rw [Except.ok.inj hvalue]
          exact ⟨rfl, hprovides⟩

/-- A task that looks something up and leaves the world as it is. -/
theorem ofTarget {target : Target} (h : ∀ world,
    world.Imports importer target ∧
        task.on world = (.ok (read (world.translation importer)), world) ∨
      ¬world.Imports importer target ∧ ∃ error, task.on world = (.error error, world)) :
    Translates importer [.target target] read task := by
  intro world _
  have hreserves : ∃ tokens, World.Reserves importer world tokens world ∧
      ∀ token ∈ tokens, ∃ mention ∈ [Mention.target target], world.Awaits importer mention token :=
    ⟨[], .nil world, by simp⟩
  have hprovides : world.Provides importer [.target target] := by
    rintro mention hmem token ⟨id, rfl, -⟩
    cases List.mem_singleton.mp hmem
  rcases h world with ⟨himports, hon⟩ | ⟨himports, error, hon⟩ <;> rw [hon]
  · exact ⟨hreserves, fun _ _ => by simpa [World.Admits] using himports, fun _ => ⟨rfl, hprovides⟩⟩
  · exact ⟨hreserves, by simp, fun hadmits => absurd (hadmits _ List.mem_cons_self) himports⟩

/-- An owner that is no definition stays as it is. -/
theorem ofOwner {mention : Mention} {owner : VarOwner}
    (hmention : ∀ id, mention ≠ .ownerDefinition id)
    (hadmits : ∀ world, World.Admits world importer mention)
    (howner : ∀ world, World.translatedOwner world importer owner = owner) :
    Translates importer [mention] (fun link => link.onOwner owner) (Pure.pure owner) := by
  refine fun world _ => ⟨⟨[], .nil world, by simp⟩, fun _ _ => by simpa using hadmits world,
    fun _ => ⟨congrArg Except.ok (howner world).symm, ?_⟩⟩
  rintro mention hmem token ⟨id, rfl, -⟩
  exact absurd (List.mem_singleton.mp hmem).symm (hmention id)

end Translates

end Task

namespace ImporterId

open Graft.Task

variable {importer : ImporterId}

/-! ## Definitions -/

theorem translates_importTypeDef (id : DefId .type) :
    Translates importer [.target (.definition (.type id))]
      (fun link => link.onType (.definition id)) (importer.importTypeDef id) := by
  refine .ofTarget fun world => ?_
  rw [importTypeDef, on_bind, on_get]
  have howns_eq : (world.defs.types.has id.index && importer.ownsType world id) =
      world.ownsType importer id := rfl
  simp only [World.Imports, World.translation, World.bind, World.boundType?, howns_eq]
  by_cases howns : world.ownsType importer id = true
  · rw [if_pos howns, if_pos howns]
    cases (world.importer importer).types.get? (world.defs.token (.type id)) with
    | none => exact .inr ⟨by simp [howns], _, rfl⟩
    | some declaration => exact .inl ⟨fun _ => rfl, rfl⟩
  · rw [if_neg howns, if_neg howns]
    exact .inl ⟨fun h => absurd h howns, rfl⟩

theorem translates_importMethodDef (id : DefId .method) :
    Translates importer [.target (.definition (.method id))]
      (fun link => link.onMethod (.definition id)) (importer.importMethodDef id) := by
  refine .ofTarget fun world => ?_
  rw [importMethodDef, on_bind, on_get]
  simp only [World.Imports, World.translation, World.bind, World.boundMethod?]
  by_cases howns : importer.ownsMethod world id = true
  · rw [if_pos howns, if_pos howns]
    cases (world.importer importer).methods.get? (world.defs.token (.method id)) with
    | none => exact .inr ⟨by simp [howns], _, rfl⟩
    | some declaration => exact .inl ⟨fun _ => rfl, rfl⟩
  · rw [if_neg howns, if_neg howns]
    exact .inl ⟨fun h => absurd h howns, rfl⟩

/-! ## Owners -/

/-- A method that stands for nothing gets a slot, unless it has one. -/
theorem slotFor_on {world : World} {token : Token}
    (hunbound : world.methodFor? importer token = none) :
    (importer.slotFor token).on world =
      match world.slotFor? importer token with
      | some slot => (.ok slot, world)
      | none => (.ok ⟨world.slots.size⟩, world.reserve importer token) := by
  rw [slotFor, on_bind, state, on_bind, on_get]
  simp only [on_pure]
  rw [World.slotFor?]
  cases (world.importer importer).deferred.get? token with
  | some slot => rfl
  | none =>
      have hliving :
          (importer.livingMethod? token).on { world with slots := world.slots.push none } =
            (.ok none, { world with slots := world.slots.push none }) := by
        have hmethods : (World.importer { world with slots := world.slots.push none }
            importer).methods.get? token = none := hunbound
        rw [livingMethod?, on_bind, on_get]
        simp only [hmethods, Option.filter_none]
        rfl
      simp only [on_bind, makeSlot, on_modifyGet, defer, hliving, Task.changeImporter, on_modify,
        on_pure, Table.update_update, World.reserve]
      rfl

/-- The owner of a variable, looked up or given a slot. -/
theorem importOwnerDef_on (id : DefId .method) (world : World) :
    (importer.importOwnerDef id).on world =
      if importer.ownsMethod world id then
        match world.boundMethod? importer id with
        | some declaration => (.ok (.method (.declared declaration)), world)
        | none =>
          match world.slotFor? importer (world.defs.token (.method id)) with
          | some slot => (.ok (.deferred slot), world)
          | none =>
            (.ok (.deferred ⟨world.slots.size⟩),
              world.reserve importer (world.defs.token (.method id)))
      else (.ok (.method (.definition id)), world) := by
  rw [importOwnerDef, on_bind, on_get]
  dsimp only
  split
  · rw [World.boundMethod?]
    cases hmethod : (world.importer importer).methods.get? (world.defs.token (.method id)) with
    | some declaration => rfl
    | none =>
        have hslotFor := @slotFor_on importer world _ hmethod
        simp only [on_bind, hslotFor]
        cases world.slotFor? importer (world.defs.token (.method id)) <;> rfl
  · rfl

/-- A method that owns a variable itself can always be imported. -/
theorem translates_importOwnerDef (id : DefId .method) :
    Translates importer [.ownerDefinition id]
      (fun link => link.onOwner (.method (.definition id))) (importer.importOwnerDef id) := by
  intro world hlive
  have hadmits : ∀ mention ∈ [Mention.ownerDefinition id],
      world.Admits importer mention := by simp [World.Admits]
  have hprovides : ∀ final : World, (importer.ownsMethod final id = true →
      final.boundMethod? importer id = none →
        (final.slotFor? importer (final.defs.token (.method id))).isSome) →
      final.Provides importer [.ownerDefinition id] := by
    rintro final h _ hmem token ⟨other, rfl, howns, rfl, hunbound⟩
    cases List.mem_singleton.mp hmem
    exact h howns hunbound
  have hnone : ∃ tokens, World.Reserves importer world tokens world ∧ ∀ token ∈ tokens,
      ∃ mention ∈ [Mention.ownerDefinition id], world.Awaits importer mention token :=
    ⟨[], .nil world, by simp⟩
  rw [importOwnerDef_on]
  by_cases howns : importer.ownsMethod world id = true
  · rw [if_pos howns]
    -- A slot is reserved only for a method that belongs to the importer and is neither bound nor
    -- awaited.
    cases hbound : world.boundMethod? importer id with
    | some declaration =>
        refine ⟨hnone, fun _ _ => hadmits, fun _ => ⟨?_, hprovides world fun _ h => ?_⟩⟩
        · simp [World.translation, World.translatedOwner, howns, hbound]
        · rw [hbound] at h
          cases h
    | none =>
        cases hslot : world.slotFor? importer (world.defs.token (.method id)) with
        | some slot =>
            refine ⟨hnone, fun _ _ => hadmits, fun _ => ⟨?_, hprovides world fun _ _ => ?_⟩⟩
            · simp [World.translation, World.translatedOwner, howns, hbound, World.ownerSlot, hslot]
            · rw [hslot, Option.isSome_some]
        | none =>
            have hquiet : world.Quiet (world.reserve importer (world.defs.token (.method id))) :=
              World.quiet_reserve
            have hnew : (world.reserve importer (world.defs.token (.method id))).slotFor? importer
                (world.defs.token (.method id)) = some ⟨world.slots.size⟩ := by
              rw [World.slotFor?_reserve hlive, if_pos rfl]
            have hbound' : (world.reserve importer (world.defs.token (.method id))).boundMethod?
                importer id = none := by
              rw [← hbound]
              exact hquiet.methodFor?_eq
            refine ⟨⟨[world.defs.token (.method id)], .cons hbound hslot (.nil _), ?_⟩,
              fun _ _ => hadmits, fun _ => ⟨?_, hprovides _ fun _ _ => ?_⟩⟩
            · simpa using ⟨id, rfl, howns, rfl, hbound⟩
            · simp only [World.translation, World.translatedOwner, hquiet.ownsMethod_eq, howns,
                if_true, hbound', Option.elim_none, World.ownerSlot, hquiet.defs, hnew,
                Option.elim_some]
            · rw [hquiet.defs, hnew, Option.isSome_some]
  · rw [if_neg howns]
    refine ⟨hnone, fun _ _ => hadmits, fun _ => ⟨?_, hprovides world fun h => absurd h howns⟩⟩
    simp [World.translation, World.translatedOwner, howns]

/-! ## References and signatures -/

mutual

theorem translates_importTypeRef (ref : TypeRef) :
    Translates importer ref.mentions (fun link => ref.relinkAll link)
      (importer.importTypeRef ref) := by
  cases ref with
  | definition id =>
      simp only [importTypeRef, TypeRef.mentions, TypeRef.relinkAll]
      exact translates_importTypeDef id
  | external type =>
      simp only [importTypeRef, TypeRef.mentions, TypeRef.relinkAll]
      exact .pure _
  | declared id =>
      simp only [importTypeRef, TypeRef.mentions, TypeRef.relinkAll]
      exact .ofTarget fun world => .inl ⟨trivial, rfl⟩
  | constructed signature =>
      simp only [importTypeRef, TypeRef.mentions, TypeRef.relinkAll]
      exact (translates_importTypeSig signature).map _
termination_by structural ref

theorem translates_importMethodRef (ref : MethodRef) :
    Translates importer ref.mentions (fun link => ref.relinkAll link)
      (importer.importMethodRef ref) := by
  cases ref with
  | definition id =>
      simp only [importMethodRef, MethodRef.mentions, MethodRef.relinkAll]
      exact translates_importMethodDef id
  | declared id =>
      simp only [importMethodRef, MethodRef.mentions, MethodRef.relinkAll]
      exact .ofTarget fun world => .inl ⟨trivial, rfl⟩
  | external owner name signature =>
      simp only [importMethodRef, MethodRef.mentions, MethodRef.relinkAll]
      exact (translates_importTypeRef owner).bind (fun _ _ => owner.relinkAll_congr) fun owner' =>
        (translates_importMethodSig signature).map (MethodRef.external owner' name)
  | instantiated method args =>
      simp only [importMethodRef, MethodRef.mentions, MethodRef.relinkAll]
      exact (translates_importMethodRef method).bind (fun _ _ => method.relinkAll_congr) fun _ =>
        (translates_importTypeSigs args).map _
termination_by structural ref

theorem translates_importOwner (owner : VarOwner) :
    Translates importer owner.mentions (fun link => owner.relinkAll link)
      (importer.importOwner owner) := by
  cases owner with
  | unbound =>
      simp only [importOwner, VarOwner.mentions, VarOwner.relinkAll]
      exact .pure _
  | deferred slot =>
      simp only [importOwner, VarOwner.mentions, VarOwner.relinkAll]
      exact .ofOwner (by simp) (fun _ => trivial) fun _ => rfl
  | type owner =>
      simp only [importOwner, VarOwner.mentions, VarOwner.relinkAll]
      exact (translates_importTypeRef owner).map _
  | method owner =>
      cases owner with
      | definition id =>
          simp only [importOwner, VarOwner.mentions, VarOwner.relinkAll]
          exact translates_importOwnerDef id
      | declared id =>
          simp only [importOwner, VarOwner.mentions, VarOwner.relinkAll]
          exact .ofOwner (by simp) (fun _ => trivial) fun _ => rfl
      | external type name signature =>
          simp only [importOwner, VarOwner.mentions, VarOwner.relinkAll]
          exact (translates_importTypeRef type).bind (fun _ _ => type.relinkAll_congr) fun type' =>
            (translates_importMethodSig signature).map fun signature' =>
              VarOwner.method (.external type' name signature')
      | instantiated method args =>
          simp only [importOwner, VarOwner.mentions, VarOwner.relinkAll]
          exact (translates_importMethodRef method).bind (fun _ _ => method.relinkAll_congr)
            fun method' => (translates_importTypeSigs args).map fun args' =>
              VarOwner.method (.instantiated method' args')
termination_by structural owner

theorem translates_importTypeSig (signature : TypeSig) :
    Translates importer signature.mentions (fun link => signature.relinkAll link)
      (importer.importTypeSig signature) := by
  cases signature with
  | unknown =>
      simp only [importTypeSig, TypeSig.mentions, TypeSig.relinkAll]
      exact .ofTarget fun world => .inr ⟨id, _, rfl⟩
  | sentinel | primitive type =>
      simp only [importTypeSig, TypeSig.mentions, TypeSig.relinkAll]
      exact .pure _
  | classType type | valueType type =>
      simp only [importTypeSig, TypeSig.mentions, TypeSig.relinkAll]
      exact (translates_importTypeRef type).map _
  | genericVar kind index owner =>
      simp only [importTypeSig, TypeSig.mentions, TypeSig.relinkAll]
      exact (translates_importOwner owner).map _
  | function signature =>
      simp only [importTypeSig, TypeSig.mentions, TypeSig.relinkAll]
      exact (translates_importMethodSig signature).map _
  | applied generic args =>
      simp only [importTypeSig, TypeSig.mentions, TypeSig.relinkAll]
      exact (translates_importTypeSig generic).bind (fun _ _ => generic.relinkAll_congr) fun _ =>
        (translates_importTypeSigs args).map _
  | pointer inner | byRef inner | vector inner | pinned inner | inModule index inner =>
      simp only [importTypeSig, TypeSig.mentions, TypeSig.relinkAll]
      exact (translates_importTypeSig inner).map _
  | array inner shape =>
      simp only [importTypeSig, TypeSig.mentions, TypeSig.relinkAll]
      exact (translates_importTypeSig inner).map (TypeSig.array · shape)
  | required modifier inner | optional modifier inner =>
      simp only [importTypeSig, TypeSig.mentions, TypeSig.relinkAll]
      exact (translates_importTypeRef modifier).bind (fun _ _ => modifier.relinkAll_congr)
        fun _ => (translates_importTypeSig inner).map _
termination_by structural signature

theorem translates_importMethodSig (signature : MethodSig) :
    Translates importer signature.mentions (fun link => signature.relinkAll link)
      (importer.importMethodSig signature) := by
  obtain ⟨callConv, genericCount, result, params, varargs⟩ := signature
  simp only [importMethodSig, MethodSig.mentions, MethodSig.relinkAll]
  exact (translates_importTypeSig result).bind (fun _ _ => result.relinkAll_congr) fun _ =>
    (translates_importTypeSigs params).bind (fun _ _ => TypeSig.relinkAllList_congr params) fun _ =>
      (translates_importTypeSigs varargs).map _
termination_by structural signature

theorem translates_importTypeSigs (signatures : List TypeSig) :
    Translates importer (TypeSig.mentionsList signatures)
      (fun link => TypeSig.relinkAllList link signatures) (importer.importTypeSigs signatures) := by
  cases signatures with
  | nil =>
      simp only [importTypeSigs, TypeSig.mentionsList, TypeSig.relinkAllList]
      exact .pure _
  | cons signature rest =>
      simp only [importTypeSigs, TypeSig.mentionsList, TypeSig.relinkAllList]
      exact (translates_importTypeSig signature).bind (fun _ _ => signature.relinkAll_congr)
        fun _ => (translates_importTypeSigs rest).map _
termination_by structural signatures

end

end ImporterId

end Graft
