import Graft.Proofs.Import.Mirroring

/-!
# What an import merges

Members of a patch type are told apart by what a declaration goes by: its kind and its name, and
methods by their overload as well, once the types in their signatures are imported (`SameKey`). As
long as no mapping renames anything, members with one declaration go by the same and have one
policy, and in each scope what goes by the same is one declaration (`importPatch_merges`). Results
do not count, so methods that differ in no more are merged (`results_merged`).
-/

namespace Graft

/-- Whether two members of a patch module go by the same when they are declared. -/
structure World.SameKey (world : World) (importer : ImporterId) (left right : Definition) :
    Prop where
  kind : left.kind = right.kind
  name : world.defs.simpleName left = world.defs.simpleName right
  overload : ∀ method method', left = .method method → right = .method method' →
    ((world.defs.method method).signature.relink (world.bind importer)).same world.typeNames
      .overload ((world.defs.method method').signature.relink (world.bind importer)) = true

/-- A member keeps its name where no mapping renames anything. -/
theorem Manifest.nameIn_member {manifest : Manifest} {defs : Definitions} {definition : Definition}
    (hnames : ∀ token mapping, manifest.mappings.get? token = some mapping →
      mapping.targetName = none)
    (hkind : definition.kind ≠ .type) :
    manifest.nameIn defs definition = (none, defs.simpleName definition) := by
  have hname (token : Token) (name : String) : manifest.targetName token name = name := by
    unfold targetName
    cases hget : manifest.mappings.get? token with
    | none => rfl
    | some mapping => simp [hnames token mapping hget]
  cases definition with
  | type => exact absurd rfl hkind
  | module | field | method | property | event => simp only [nameIn, hname]

namespace ImportJob

variable {job : ImportJob} {world typed declared next : World} {patch : Patch}
  {types : List (Imported .type)} {members : Members} {left right item : Counterpart}

section Ended

variable (h : job.Ended world patch types members typed declared next)

include h

/-- Types have the names in the end that they had when signatures were compared. -/
theorem Ended.names : next.typeNames = typed.typeNames :=
  (World.typeNames_eq h.detailed.defs h.detailed.decls.types).trans h.joined.names

theorem Ended.defs : next.defs = world.defs :=
  h.detailed.defs.trans h.joined.progress.unchanged

/-- A mapped method stands for a method of the same overload. -/
theorem Ended.overload {method : DefId .method} {id : DeclId .method}
    (hitem : item ∈ types.map (·.counterpart .type .type) ++ members.counterparts)
    (hdefinition : item.definition = .method method) (hdeclaration : item.declaration = .method id) :
    (next.decls.method id).signature.same next.typeNames .overload
      ((next.defs.method method).signature.relink (next.bind job.importer)) = true := by
  have hjoined := h.joined
  have hhas := hjoined.progress.mapped.there item (List.mem_append.mp hitem)
  rw [hdeclaration] at hhas
  have hrelink := relink_bind_congr (h.defs.trans hjoined.unchanged.symm)
    ((h.detailed.scope job.importer).trans hjoined.scope)
    ((h.detailed.types job.importer).trans hjoined.types) (next.defs.method method).signature
  rw [hrelink, h.names, h.defs, (h.detailed.decls.keeps.stays _ hhas).signature]
  exact hjoined.overloads item method id (List.mem_append.mp hitem) hdefinition hdeclaration

/-- Methods of a type that have one name and are the same overload are one method. -/
theorem Ended.distinct {holder : Declaration} {method method' : DeclId .method}
    (hholder : Holds patch.modules
      (fun item => item ∈ types.map (·.counterpart .type .type) ++ members.counterparts) holder)
    (hleft : .method method ∈ next.decls.members holder .method)
    (hright : .method method' ∈ next.decls.members holder .method)
    (hname : (next.decls.method method).name = (next.decls.method method').name)
    (hsame : (next.decls.method method).signature.same next.typeNames .overload
      (next.decls.method method').signature = true) : method = method' := by
  have hjoined := h.joined
  have hholds := hholder.mono fun item => List.mem_append.mp
  rw [h.detailed.decls.members] at hleft hright
  have hread {found : DeclId .method} (hmem : .method found ∈ declared.decls.members holder .method) :=
    h.detailed.decls.keeps.stays _ (hjoined.progress.mapped.has_member hholds hmem)
  rw [(hread hleft).methodName, (hread hright).methodName] at hname
  rw [h.names, (hread hleft).signature, (hread hright).signature] at hsame
  cases holder with
  | type owner =>
      have hlisted {found : DeclId .method}
          (hmem : .method found ∈ declared.decls.members (.type owner) .method) :
          found ∈ (declared.decls.type owner).methods := by
        simpa [Declarations.members] using hmem
      exact hjoined.distinct owner method method' hholds (hlisted hleft) (hlisted hright) hname hsame
  | module | field | method | property | event => cases hleft

section Names

variable (hnames : ∀ token mapping, job.manifest.mappings.get? token = some mapping →
  mapping.targetName = none)

include hnames

/-- A mapped member stands for a declaration of its name. -/
theorem Ended.name_eq
    (hitem : item ∈ types.map (·.counterpart .type .type) ++ members.counterparts)
    (hkind : item.definition.kind ≠ .type) :
    (next.decls.statement item.declaration).name = next.defs.simpleName item.definition := by
  have hnamed := h.mapped.named item hitem
  rw [Manifest.nameIn_member hnames hkind] at hnamed
  rw [hnamed.1, h.defs]

/-- Members with one declaration go by the same. -/
theorem Ended.sameKey
    (hleft : left ∈ types.map (·.counterpart .type .type) ++ members.counterparts)
    (hright : right ∈ types.map (·.counterpart .type .type) ++ members.counterparts)
    (hleftKind : left.definition.kind ≠ .type) (hrightKind : right.definition.kind ≠ .type)
    (heq : left.declaration = right.declaration) :
    next.SameKey job.importer left.definition right.definition where
  kind := by rw [← h.mapped.kinds left hleft, ← h.mapped.kinds right hright, heq]
  name := by
    rw [← h.name_eq hnames hleft hleftKind, ← h.name_eq hnames hright hrightKind, heq]
  overload method method' hmethod hmethod' := by
    have hkind := h.mapped.kinds left hleft
    rw [hmethod] at hkind
    cases hdeclaration : left.declaration with
    | method id =>
        exact MethodSig.same_of_same (h.overload hleft hmethod hdeclaration)
          (h.overload hright hmethod' (heq ▸ hdeclaration))
    | module | type | field | property | event =>
        rw [hdeclaration] at hkind
        cases hkind

/-- Declarations in one scope that members which go by the same stand for are one declaration. -/
theorem Ended.eq_of_sameKey {holder : Declaration} {id : DeclId .module}
    (hleft : left ∈ types.map (·.counterpart .type .type) ++ members.counterparts)
    (hright : right ∈ types.map (·.counterpart .type .type) ++ members.counterparts)
    (hleftKind : left.definition.kind ≠ .type) (hrightKind : right.definition.kind ≠ .type)
    (hid : id ∈ patch.modules) (hholder : next.decls.Below (.module id) holder)
    (hleftMem : left.declaration ∈ next.decls.members holder left.definition.kind)
    (hrightMem : right.declaration ∈ next.decls.members holder right.definition.kind)
    (hsame : next.SameKey job.importer left.definition right.definition) :
    left.declaration = right.declaration := by
  have hholds := h.mapped.holds_below hid hholder
  have hname : (next.decls.statement left.declaration).name =
      (next.decls.statement right.declaration).name := by
    rw [h.name_eq hnames hleft hleftKind, h.name_eq hnames hright hrightKind, hsame.name]
  have hleftDeclared := h.mapped.kinds left hleft
  have hrightDeclared := h.mapped.kinds right hright
  by_cases hmethod : left.definition.kind = .method
  · have hdefined {definition : Definition} (hkind : definition.kind = .method) :
        ∃ method, definition = .method method := by
      cases definition <;> first | exact ⟨_, rfl⟩ | cases hkind
    have hdeclared {declaration : Declaration} (hkind : declaration.kind = .method) :
        ∃ method, declaration = .method method := by
      cases declaration <;> first | exact ⟨_, rfl⟩ | cases hkind
    have hmethod' : right.definition.kind = .method := hsame.kind ▸ hmethod
    obtain ⟨method, hdefinition⟩ := hdefined hmethod
    obtain ⟨method', hdefinition'⟩ := hdefined hmethod'
    obtain ⟨found, hfound⟩ := hdeclared (hleftDeclared.trans hmethod)
    obtain ⟨found', hfound'⟩ := hdeclared (hrightDeclared.trans hmethod')
    have hoverload := h.overload hleft hdefinition hfound
    have hoverload' := h.overload hright hdefinition' hfound'
    rw [hmethod, hfound] at hleftMem
    rw [hmethod', hfound'] at hrightMem
    rw [hfound, hfound'] at hname ⊢
    have hmiddle := MethodSig.same_of_same (MethodSig.same_symm hoverload)
      (hsame.overload method method' hdefinition hdefinition')
    exact congrArg _ (h.distinct hholds hleftMem hrightMem hname
      (MethodSig.same_of_same (MethodSig.same_symm hmiddle) (MethodSig.same_symm hoverload')))
  · have hspace {node : Declaration} (hkind : node.kind ≠ .type) : next.decls.space? node = none := by
      cases node <;> first | rfl | exact absurd rfl hkind
    refine h.mapped.apart holder left.definition.kind _ _ hholds hmethod hleftMem
      (hsame.kind ▸ hrightMem) hname ?_
    rw [hspace (hleftDeclared ▸ hleftKind), hspace (hrightDeclared ▸ hrightKind)]

end Names

end Ended

end ImportJob

variable {world next : World} {module : DefId .module} {manifest : Manifest} {patch : Patch}

/-- Where no mapping renames anything, members that are mapped to one declaration go by the same and
have one policy, and in no scope do two declarations of members go by the same. -/
theorem importPatch_merges (hnames : ∀ token mapping,
      manifest.mappings.get? token = some mapping → mapping.targetName = none)
    (hon : (Task.importPatch module manifest).on world = (.ok patch, next)) :
    ∃ items, (Task.importItems module manifest).on world = (.ok (patch, items), next) ∧
      ∀ left ∈ items, ∀ right ∈ items, left.definition.kind ≠ .type →
        right.definition.kind ≠ .type →
        (left.declaration = right.declaration →
          next.SameKey ⟨world.importers.next⟩ left.definition right.definition ∧
            left.intent.policy = right.intent.policy) ∧
        ∀ id ∈ patch.modules, ∀ holder, next.decls.Below (.module id) holder →
          left.declaration ∈ next.decls.members holder left.definition.kind →
          right.declaration ∈ next.decls.members holder right.definition.kind →
          next.SameKey ⟨world.importers.next⟩ left.definition right.definition →
            left.declaration = right.declaration := by
  obtain ⟨items, hitems⟩ := Task.importItems_ok hon
  obtain ⟨job, types, members, typed, declared, rfl, rfl, rfl, h⟩ := Task.importItems_ended hitems
  refine ⟨_, hitems, fun left hleft right hright hleftKind hrightKind => ⟨fun heq => ⟨?_, ?_⟩, ?_⟩⟩
  · exact h.importer ▸ h.sameKey hnames hleft hright hleftKind hrightKind heq
  · rw [← h.mapped.policies left hleft, ← h.mapped.policies right hright, heq]
  · intro id hid holder hholder hleftMem hrightMem hsame
    exact h.eq_of_sameKey hnames hleft hright hleftKind hrightKind hid hholder hleftMem hrightMem
      (h.importer ▸ hsame)

/-- A patch module with a type that converts text to numbers of two sizes. -/
def World.casts : World :=
  let (mod, defs) := ({} : Definitions).makeModule { name := "Mod" }
  let (ratio, defs) := defs.addType mod { namespaceName := "Units", name := "Ratio", flags := 1 }
  let (_, defs) := defs.addMethod ratio
    { name := "op_Explicit"
      flags := 2198
      signature := ⟨0, 0, .primitive .int32, [.primitive .string], []⟩ }
  let (_, defs) := defs.addMethod ratio
    { name := "op_Explicit"
      flags := 2198
      signature := ⟨0, 0, .primitive .int64, [.primitive .string], []⟩ }
  { defs }

/-- The manifest by which the type exists and both conversions are added. -/
def Manifest.casts : Manifest where
  required := [("Game", false)]
  mappings := ⟨[
    (.ofParts .typeDef 1, { intent := .mixin }),
    (.ofParts .methodDef 1, { intent := .inject }),
    (.ofParts .methodDef 2, { intent := .inject })]⟩

/-- What is mapped of the type are the two conversions, and they are one declaration. -/
theorem Task.importItems_casts : ((importItems ⟨0⟩ .casts).on .casts).1 =
    .ok ({ name := "Mod", modules := [⟨0⟩] },
      [⟨.type ⟨0⟩, .mixin, .type ⟨0⟩⟩, ⟨.method ⟨0⟩, .inject, .method ⟨0⟩⟩,
        ⟨.method ⟨1⟩, .inject, .method ⟨0⟩⟩]) := by
  decide +kernel

theorem Manifest.names_casts : ∀ token mapping, Manifest.casts.mappings.get? token = some mapping →
    mapping.targetName = none := by
  intro token mapping hget
  have hmem := Dictionary.mem_of_get? hget
  have hall : ∀ entry ∈ Manifest.casts.mappings.entries, entry.2.targetName = none := by decide
  exact hall _ hmem

theorem importPatch_merges_casts :
    ∃ patch imported, (∀ token mapping, Manifest.casts.mappings.get? token = some mapping →
        mapping.targetName = none) ∧
      (Task.importPatch ⟨0⟩ .casts).on .casts = (.ok patch, imported) ∧
      imported.SameKey ⟨0⟩ (.method ⟨0⟩) (.method ⟨1⟩) := by
  cases himport : (Task.importPatch ⟨0⟩ .casts).on .casts with
  | mk outcome imported =>
      have himported : ((Task.importPatch ⟨0⟩ .casts).on .casts).1 =
          .ok { name := "Mod", modules := [⟨0⟩] } := by
        decide +kernel
      rw [himport] at himported
      cases himported
      obtain ⟨items, hon, hmerges⟩ := importPatch_merges Manifest.names_casts himport
      have hitems := Task.importItems_casts
      rw [hon] at hitems
      cases hitems
      have hkey := hmerges ⟨.method ⟨0⟩, .inject, .method ⟨0⟩⟩ (by simp)
        ⟨.method ⟨1⟩, .inject, .method ⟨0⟩⟩ (by simp) nofun nofun
      exact ⟨_, imported, Manifest.names_casts, rfl, (hkey.1 rfl).1⟩

/-- Methods of one type whose signatures differ in the result alone may be mapped to one
declaration. -/
theorem results_merged :
    ¬ ∀ world next module manifest patch items, world.defs.Held →
      (∀ token mapping, manifest.mappings.get? token = some mapping → mapping.targetName = none) →
      (Task.importItems module manifest).on world = (.ok (patch, items), next) →
      ∀ owner left right method method', left ∈ items → right ∈ items →
        left.definition = .method method → right.definition = .method method' →
        method ∈ (world.defs.type owner).methods → method' ∈ (world.defs.type owner).methods →
        (world.defs.method method).signature.same world.typeNames .strict
          (world.defs.method method').signature ≠ true →
        left.declaration ≠ right.declaration := by
  intro h
  cases himport : (Task.importItems ⟨0⟩ .casts).on .casts with
  | mk outcome imported =>
      have hitems := Task.importItems_casts
      rw [himport] at hitems
      cases hitems
      exact h .casts imported _ _ _ _ (by decide +kernel) Manifest.names_casts himport ⟨0⟩
        ⟨.method ⟨0⟩, .inject, .method ⟨0⟩⟩ ⟨.method ⟨1⟩, .inject, .method ⟨0⟩⟩ ⟨0⟩ ⟨1⟩ (by simp)
        (by simp) rfl rfl (by decide +kernel) (by decide +kernel) (by decide +kernel) rfl

end Graft
