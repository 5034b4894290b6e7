import Graft.Proofs.Import.Mirroring
import Graft.Session.Reference

/-!
# Owners of generic variables

A generic variable is owned by a method, and a signature may be imported long before its owners
stand for anything. When an import is over, every owner that has been mapped has been replaced by
the declaration that it stands for, or by a slot with that declaration in it (`importPatch_owns`).
The importer goes by the module that a method belongs to and by its token. A method that the patch
module lists although it belongs to another one owns its variables as before, and where two methods
share a token one may be taken for the other (`owner_mistaken`).
-/

namespace Graft

/-- Whether methods with the token of a method stand for nothing but one declaration. -/
def Definitions.Singles (defs : Definitions) (items : List Counterpart) (method : DefId .method)
    (id : DeclId .method) : Prop :=
  ∀ item ∈ items, ∀ other, item.definition = .method other →
    defs.token (.method other) = defs.token (.method method) → item.declaration = .method id

/-- Whether the owner of a generic variable is a declaration, or a slot with it in it. -/
def World.OwnedBy (world : World) (id : DeclId .method) : VarOwner → Prop
  | .method (.declared other) => other = id
  | .deferred slot => world.slot? slot = some id
  | _ => False

/-- Whether everything in a patch has the signature of a definition that is mapped to it, in which
each owner of a generic variable has been replaced by the declaration that it stands for, if
`known` says that it can be told. -/
def Patch.Owns (patch : Patch) (defs : Definitions) (world : World) (items : List Counterpart)
    (known : DefId .method → DeclId .method → Prop) : Prop :=
  ∀ root ∈ patch.modules, ∀ node, node.kind ≠ .module → world.decls.Below (.module root) node →
    ∃ origin ∈ items, origin.declaration = node ∧ ∃ link : Relink,
      (world.decls.statement node).shape = (defs.shape origin.definition).relinkAll link ∧
        ∀ owner ∈ items, ∀ method id, owner.definition = .method method →
          owner.declaration = .method id →
          .ownerDefinition method ∈ (defs.shape origin.definition).mentions → known method id →
          world.OwnedBy id (link.onOwner (.method (.definition method)))

/-- A variable that a declaration owns is resolved as it is while the slots stay filled. -/
theorem World.OwnedBy.resolves {world : World} {id : DeclId .method} {owner : VarOwner}
    {state : SessionState} (h : world.OwnedBy id owner)
    (hslots : ∀ slot, world.slot? slot = some id → state.world.slot? slot = some id)
    (search : Search) (kind : VarKind) (index : UInt32) :
    (search.resolveTypeSig (.genericVar kind index owner)).on state =
      (.ok (.genericVar kind index owner), state) := by
  cases owner with
  | deferred slot =>
      have hsome : (state.world.slot? slot).isNone = false := by simp [hslots slot h]
      have hcheck : (Search.checkOwner kind index (.deferred slot)).on state = (.ok (), state) := by
        rw [Search.checkOwner, SessionTask.on_bind, SessionTask.on_world]
        dsimp only
        rw [hsome]
        rfl
      rw [Search.resolveTypeSig, SessionTask.on_bind, hcheck]
      rfl
  | method ref => rfl
  | unbound | type => exact h.elim

namespace ImportJob

variable {job : ImportJob} {world typed declared next : World} {patch : Patch}
  {types : List (Imported .type)} {members : Members}

section Ended

variable (h : job.Ended world patch types members typed declared next)

include h

/-- A method that belongs to the patch module is the importer's own. -/
theorem Ended.ownsMethod {method : DefId .method}
    (hhome : world.defs.home? (.method method) = some job.module) :
    job.importer.ownsMethod declared method = true := by
  have hhome : declared.defs.home? (.method method) =
      some (declared.importer job.importer).scope := by
    rw [h.joined.progress.unchanged, h.scope, hhome]
  exact World.owns_of_home (by simp [Definition.kind]) hhome

/-- What leads to the methods with a token is owned by the declaration that they all stand for. -/
theorem Ended.ownedBy {owner : VarOwner} {item : Counterpart} {method : DefId .method}
    {id : DeclId .method}
    (hitem : item ∈ types.map (·.counterpart .type .type) ++ members.counterparts)
    (hdefinition : item.definition = .method method)
    (hsingles : world.defs.Singles
      (types.map (·.counterpart .type .type) ++ members.counterparts) method id)
    (htraces : job.Traces world.defs (fun item =>
        item ∈ types.map (·.counterpart .type .type) ∨ item ∈ members.counterparts) declared
      (world.defs.token (.method method)) owner) : next.OwnedBy id owner := by
  have hanswers {other : DeclId .method} (hanswers : Answers world.defs (fun item =>
      item ∈ types.map (·.counterpart .type .type) ∨ item ∈ members.counterparts)
      (world.defs.token (.method method)) other) : other = id := by
    obtain ⟨item, found, hitem, hfound, htoken, hdeclaration⟩ := hanswers
    have hsame := hsingles item (List.mem_append.mpr hitem) found hfound htoken
    exact Declaration.method.inj (hdeclaration.symm.trans hsame)
  cases owner with
  | method ref =>
      cases ref with
      | declared other => exact hanswers htraces
      | definition | external | instantiated => exact htraces.elim
  | deferred slot =>
      have hbound : declared.methodFor? job.importer (world.defs.token (.method method)) ≠ none :=
        Option.isSome_iff_ne_none.mp
          (h.joined.progress.binds.bound item method (List.mem_append.mp hitem) hdefinition)
      obtain ⟨other, hfilled, hfound⟩ := h.sourced.filled _ slot htraces hbound
      exact h.detailed.slots slot id (hanswers hfound ▸ hfilled)
  | unbound | type => exact htraces.elim

end Ended

end ImportJob

variable {world next : World} {module : DefId .module} {manifest : Manifest} {patch : Patch}

/-- In what is imported, a generic variable is owned by the declaration that its owner stands for,
if its owner belongs to the patch module and no method with the same token stands for another
declaration. Such a variable can be resolved as long as the slots stay filled. -/
theorem importPatch_owns
    (hon : (Task.importPatch module manifest).on world = (.ok patch, next)) :
    ∃ items, (Task.importItems module manifest).on world = (.ok (patch, items), next) ∧
      (patch.Owns world.defs next items fun method id =>
        world.defs.home? (.method method) = some module ∧ world.defs.Singles items method id) ∧
      ∀ (search : Search) (state : SessionState) (kind : VarKind) (index : UInt32) id owner,
        next.OwnedBy id owner →
        (∀ slot, next.slot? slot = some id → state.world.slot? slot = some id) →
        (search.resolveTypeSig (.genericVar kind index owner)).on state =
          (.ok (.genericVar kind index owner), state) := by
  obtain ⟨items, hitems⟩ := Task.importItems_ok hon
  obtain ⟨job, types, members, typed, declared, rfl, rfl, rfl, h⟩ := Task.importItems_ended hitems
  refine ⟨_, hitems, fun root hroot node hkind hbelow => ?_,
    fun search state kind index id owner howned hslots =>
      howned.resolves hslots search kind index⟩
  obtain ⟨_, -, rfl⟩ | ⟨item, hitem, rfl⟩ := h.mapped.holds_below hroot hbelow
  · exact absurd rfl hkind
  -- The signature is as it was when everything had been declared.
  have hthere := h.joined.progress.mapped.there item (List.mem_append.mp hitem)
  obtain ⟨origin, horigin, heq, link, hshape, hlink⟩ :=
    h.sourced.stems item (List.mem_append.mp hitem)
  refine ⟨origin, List.mem_append.mpr horigin, heq, link,
    (h.detailed.decls.keeps.stays _ hthere).shape.trans hshape, ?_⟩
  rintro owner howner method id hdefinition - hmention ⟨hhome, hsingles⟩
  exact h.ownedBy howner hdefinition hsingles (hlink method hmention (h.ownsMethod hhome))

/-- A patch module with a field of a type that its generic method is given, and that method. -/
def World.picker : World :=
  let picked : TypeSig := .genericVar .method 0 (.method (.definition ⟨0⟩))
  let (mod, defs) := ({} : Definitions).makeModule { name := "Mod" }
  let (panel, defs) := defs.addType mod { namespaceName := "Ui", name := "Panel", flags := 1 }
  let (_, defs) := defs.addMethod panel
    { name := "Pick", flags := 6, signature := ⟨0x30, 1, picked, [.vector picked], []⟩ }
  let (_, defs) := defs.addField panel { name := "Best", flags := 6, signature := .vector picked }
  { defs }

/-- The manifest by which the type is added with its members where it is missing. -/
def Manifest.picker : Manifest where
  required := [("Game", false)]
  mappings := ⟨[(.ofParts .typeDef 1, { intent := .generated })]⟩

/-- The field is declared first, so the variable in it is owned by a slot. -/
theorem importPatch_owns_picker :
    ∃ patch items imported, (Task.importPatch ⟨0⟩ .picker).on .picker = (.ok patch, imported) ∧
      ⟨.method ⟨0⟩, .generated, .method ⟨0⟩⟩ ∈ items ∧
      World.picker.defs.home? (.method ⟨0⟩) = some ⟨0⟩ ∧
      World.picker.defs.Singles items ⟨0⟩ ⟨0⟩ ∧
      (imported.decls.field ⟨0⟩).signature.mentions = [.slot ⟨0⟩] ∧
      imported.OwnedBy ⟨0⟩ (.deferred ⟨0⟩) ∧
      patch.Owns World.picker.defs imported items fun method id =>
        World.picker.defs.home? (.method method) = some ⟨0⟩ ∧
          World.picker.defs.Singles items method id := by
  have himported : ((Task.importPatch ⟨0⟩ .picker).on .picker).1 =
      .ok { name := "Mod", modules := [⟨0⟩] } := by
    decide +kernel
  have hitems : ((Task.importItems ⟨0⟩ .picker).on .picker).1 =
      .ok ({ name := "Mod", modules := [⟨0⟩] },
        [⟨.type ⟨0⟩, .generated, .type ⟨0⟩⟩, ⟨.field ⟨0⟩, .generated, .field ⟨0⟩⟩,
          ⟨.method ⟨0⟩, .generated, .method ⟨0⟩⟩]) := by
    decide +kernel
  have hslot : let imported := ((Task.importPatch ⟨0⟩ .picker).on .picker).2
      (imported.decls.field ⟨0⟩).signature.mentions = [.slot ⟨0⟩] ∧
        imported.slot? ⟨0⟩ = some ⟨0⟩ := by
    decide +kernel
  cases himport : (Task.importPatch ⟨0⟩ .picker).on .picker with
  | mk outcome imported =>
      rw [himport] at himported hslot
      cases himported
      obtain ⟨items, hon, howns, -⟩ := importPatch_owns himport
      rw [hon] at hitems
      cases hitems
      refine ⟨_, _, imported, rfl, by simp, by decide +kernel, ?_, hslot.1, hslot.2, howns⟩
      simp [Definitions.Singles]

/-- A patch module with two types and, between them, a type that it has taken in from another
module. A field in each of the last two has a type that a generic method is given. -/
def World.borrowed : World :=
  let signature : MethodSig := ⟨0x30, 1, .primitive .void, [], []⟩
  let givenTo (method : DefId .method) : TypeSig :=
    .genericVar .method 0 (.method (.definition method))
  let (tools, defs) := ({} : Definitions).makeModule { name := "Tools" }
  let (gauge, defs) := defs.addType tools { namespaceName := "Ui", name := "Gauge", flags := 1 }
  let (_, defs) := defs.addMethod gauge { name := "Read", flags := 6, signature }
  let (reset, defs) := defs.addMethod gauge { name := "Reset", flags := 6, signature }
  let (_, defs) := defs.addField gauge { name := "Last", flags := 6, signature := givenTo reset }
  let (mod, defs) := defs.makeModule { name := "Mod" }
  let (panel, defs) := defs.addType mod { namespaceName := "Ui", name := "Panel", flags := 1 }
  let (pick, defs) := defs.addMethod panel { name := "Pick", flags := 6, signature }
  let defs := defs.enterType mod gauge
  let defs := defs.updateModule mod fun record => { record with types := record.types ++ [gauge] }
  let (dial, defs) := defs.addType mod { namespaceName := "Ui", name := "Dial", flags := 1 }
  let (_, defs) := defs.addField dial { name := "Best", flags := 6, signature := givenTo pick }
  { defs }

/-- The manifest by which all of it is added where it is missing. -/
def Manifest.borrowed : Manifest where
  required := [("Game", false)]
  mappings := ⟨[
    (.ofParts .typeDef 1, { intent := .generated }),
    (.ofParts .typeDef 3, { intent := .generated })]⟩

/-- What becomes of a field whose only variable is owned by a method that is mapped. -/
theorem Patch.Owns.field {defs : Definitions} {items : List Counterpart}
    {known : DefId .method → DeclId .method → Prop} {root : DeclId .module} {id : DeclId .field}
    {method : DefId .method} {owner : DeclId .method} (h : patch.Owns defs world items known)
    (field : DefId .field) (hroot : root ∈ patch.modules)
    (hbelow : world.decls.Below (.module root) (.field id))
    (honly : ∀ item ∈ items, item.declaration = .field id → item.definition = .field field)
    (howner : ∃ item ∈ items, item.definition = .method method ∧ item.declaration = .method owner)
    (hmentions : (defs.field field).signature.mentions = [.ownerDefinition method])
    (hknown : known method owner) :
    (world.decls.field id).signature.mentions = [.ownerDeclaration owner] ∨
      ∃ slot, (world.decls.field id).signature.mentions = [.slot slot] := by
  obtain ⟨origin, horigin, heq, link, hshape, hlink⟩ := h root hroot (.field id) nofun hbelow
  obtain ⟨item, hitem, hdefinition, hdeclaration⟩ := howner
  rw [honly origin horigin heq] at hshape hlink
  have howned := hlink item hitem method owner hdefinition hdeclaration
    (by simp [Definitions.shape, Shape.mentions, hmentions]) hknown
  have hsignature := congrArg TypeSig.mentions (Shape.field.inj hshape)
  rw [TypeSig.mentions_relinkAll, hmentions, List.flatMap_singleton, Relink.imageAll] at hsignature
  have hsignature : (world.decls.field id).signature.mentions = _ := hsignature
  rw [hsignature]
  generalize link.onOwner (.method (.definition method)) = replaced at howned
  cases replaced with
  | method ref =>
      cases ref with
      | declared other => exact .inl (congrArg (fun id => [Mention.ownerDeclaration id]) howned)
      | definition | external | instantiated => exact howned.elim
  | deferred slot => exact .inr ⟨slot, rfl⟩
  | unbound | type => exact howned.elim

theorem Task.importItems_borrowed : ((importItems ⟨1⟩ .borrowed).on .borrowed).1 =
    .ok ({ name := "Mod", modules := [⟨0⟩] },
      [⟨.type ⟨1⟩, .generated, .type ⟨0⟩⟩, ⟨.type ⟨0⟩, .generated, .type ⟨1⟩⟩,
        ⟨.type ⟨2⟩, .generated, .type ⟨2⟩⟩, ⟨.field ⟨0⟩, .generated, .field ⟨0⟩⟩,
        ⟨.field ⟨1⟩, .generated, .field ⟨1⟩⟩, ⟨.method ⟨2⟩, .generated, .method ⟨0⟩⟩,
        ⟨.method ⟨0⟩, .generated, .method ⟨1⟩⟩, ⟨.method ⟨1⟩, .generated, .method ⟨2⟩⟩]) := by
  decide +kernel

/-- The field of the type that was taken in has its owner as before, and the other field has a
method of that type for an owner. -/
theorem Patch.Owns.not_known_borrowed {items : List Counterpart}
    {known : DefId .method → DeclId .method → Prop}
    (h : patch.Owns World.borrowed.defs next items known)
    (hon : (Task.importItems ⟨1⟩ .borrowed).on .borrowed = (.ok (patch, items), next)) :
    ¬ known ⟨1⟩ ⟨2⟩ ∧ ¬ known ⟨2⟩ ⟨0⟩ := by
  have hitems := Task.importItems_borrowed
  have hmembers : (Declaration.type ⟨1⟩ ∈ next.decls.members (.module ⟨0⟩) .type ∧
        Declaration.type ⟨2⟩ ∈ next.decls.members (.module ⟨0⟩) .type) ∧
      Declaration.field ⟨0⟩ ∈ next.decls.members (.type ⟨1⟩) .field ∧
        Declaration.field ⟨1⟩ ∈ next.decls.members (.type ⟨2⟩) .field := by
    have hdecls := congrArg (fun answer => answer.2.decls) hon
    rw [← hdecls]
    decide +kernel
  have hmentions : (next.decls.field ⟨0⟩).signature.mentions = [.ownerDefinition ⟨1⟩] ∧
      (next.decls.field ⟨1⟩).signature.mentions = [.ownerDeclaration ⟨1⟩] := by
    have hdecls := congrArg (fun answer => answer.2.decls) hon
    rw [← hdecls]
    decide +kernel
  rw [hon] at hitems
  cases hitems
  obtain ⟨⟨hgauge, hdial⟩, hlast, hbest⟩ := hmembers
  constructor
  · intro hknown
    have howned := h.field ⟨0⟩ (by simp) (.member (.member .top hgauge) hlast) (by simp) (by simp)
      (by decide +kernel) hknown
    simp [hmentions] at howned
  · intro hknown
    have howned := h.field ⟨1⟩ (by simp) (.member (.member .top hdial) hbest) (by simp) (by simp)
      (by decide +kernel) hknown
    simp [hmentions] at howned

/-- A variable is not owned by what its owner stands for if the owner belongs to another module, or
if it shares its token with a method that stands for something else. -/
theorem owner_mistaken :
    (¬ ∀ world next module manifest patch, world.defs.Held →
      (Task.importPatch module manifest).on world = (.ok patch, next) →
      ∃ items, (Task.importItems module manifest).on world = (.ok (patch, items), next) ∧
        patch.Owns world.defs next items (world.defs.Singles items)) ∧
    ¬ ∀ world next module manifest patch, world.defs.Held →
      (Task.importPatch module manifest).on world = (.ok patch, next) →
      ∃ items, (Task.importItems module manifest).on world = (.ok (patch, items), next) ∧
        patch.Owns world.defs next items fun method _ =>
          world.defs.home? (.method method) = some module := by
  have himported : ((Task.importPatch ⟨1⟩ .borrowed).on .borrowed).1 =
      .ok { name := "Mod", modules := [⟨0⟩] } := by
    decide +kernel
  have hheld : World.borrowed.defs.Held := by decide +kernel
  cases himport : (Task.importPatch ⟨1⟩ .borrowed).on .borrowed with
  | mk outcome imported =>
      rw [himport] at himported
      cases himported
      constructor
      · intro h
        obtain ⟨items, hon, howns⟩ := h _ _ _ _ _ hheld himport
        refine (howns.not_known_borrowed hon).1 ?_
        have hitems := Task.importItems_borrowed
        rw [hon] at hitems
        cases hitems
        have htokens : ∀ other : DefId .method, other = ⟨0⟩ ∨ other = ⟨2⟩ →
            World.borrowed.defs.token (.method other) ≠ World.borrowed.defs.token (.method ⟨1⟩) := by
          rintro other (rfl | rfl) <;> decide +kernel
        simp [Definitions.Singles, htokens]
      · intro h
        obtain ⟨items, hon, howns⟩ := h _ _ _ _ _ hheld himport
        exact (howns.not_known_borrowed hon).2 (by decide +kernel)

end Graft
