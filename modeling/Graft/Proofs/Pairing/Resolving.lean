import Graft.Proofs.Pairing.Basic

/-!
# Resolving side by side

Two searches that come to the same end for all that an operation asks for may be put in place of each
other: the operation comes to the same end with both. There is one lemma for every function; what is
asked for before a declaration is located are its forerunners (`couples_locate`), and after that its
followers (`couples_reconcile`).
-/

namespace Graft

/-- Whether the accessors of every declaration exist. A property and an event hold the methods that
are named as their accessors. -/
def Declarations.HoldsAccessors (decls : Declarations) : Prop :=
  ∀ declaration role method, decls.has declaration = true →
    (role, method) ∈ (decls.statement declaration).accessors → decls.has (.method method) = true

theorem Declarations.holdsAccessors_iff {decls : Declarations} :
    decls.HoldsAccessors ↔ ∀ declaration ∈ decls.all, decls.has declaration = true →
      ∀ entry ∈ (decls.statement declaration).accessors, decls.has (.method entry.2) = true :=
  ⟨fun h declaration _ hhas entry hmem => h declaration entry.1 entry.2 hhas hmem,
    fun h declaration _ _ hhas hmem => h declaration (mem_all hhas) hhas _ hmem⟩

instance (decls : Declarations) : Decidable decls.HoldsAccessors :=
  decidable_of_iff _ Declarations.holdsAccessors_iff.symm

/-- Whether two searches come to the same end for those of some declarations that exist. -/
def Pairing.CouplesAll (P : Pairing) (decls : Declarations) (search search' : Search)
    (asked : List Declaration) : Prop :=
  ∀ declaration ∈ asked, decls.has declaration = true →
    P.Couples (search declaration) (search' declaration)

namespace Search

open SessionTask Pairing

variable {P : Pairing} {decls : Declarations} {search search' : Search}

section Asking

variable {asked asked' : List Declaration}

theorem couplesAll_append : P.CouplesAll decls search search' (asked ++ asked') ↔
    P.CouplesAll decls search search' asked ∧ P.CouplesAll decls search search' asked' :=
  List.forall_mem_append

theorem couplesAll_mono (h : P.CouplesAll decls search search' asked)
    (hsubset : asked' ⊆ asked) : P.CouplesAll decls search search' asked' :=
  fun declaration hmem => h declaration (hsubset hmem)

end Asking

/-! ## References -/

section Definitions

variable (law : P.Linked decls)

include law

theorem couples_module {id : DeclId .module}
    (h : P.Couples (search (.module id)) (search' (.module id))) :
    P.Couples (search.module id) (search'.module id) := by
  refine h.bind fun found => ?_
  cases found with
  | module => exact .pure _
  | type | field | method | property | event =>
      exact law.world fun _ _ hlinks _ =>
        Couples.throw (hlinks.kindMismatch _ _) (law.expected _ trivial)

theorem couples_type {id : DeclId .type}
    (h : P.Couples (search (.type id)) (search' (.type id))) :
    P.Couples (search.type id) (search'.type id) := by
  refine h.bind fun found => ?_
  cases found with
  | type => exact .pure _
  | module | field | method | property | event =>
      exact law.world fun _ _ hlinks _ =>
        Couples.throw (hlinks.kindMismatch _ _) (law.expected _ trivial)

theorem couples_field {id : DeclId .field}
    (h : P.Couples (search (.field id)) (search' (.field id))) :
    P.Couples (search.field id) (search'.field id) := by
  refine h.bind fun found => ?_
  cases found with
  | field => exact .pure _
  | module | type | method | property | event =>
      exact law.world fun _ _ hlinks _ =>
        Couples.throw (hlinks.kindMismatch _ _) (law.expected _ trivial)

theorem couples_method {id : DeclId .method}
    (h : P.Couples (search (.method id)) (search' (.method id))) :
    P.Couples (search.method id) (search'.method id) := by
  refine h.bind fun found => ?_
  cases found with
  | method => exact .pure _
  | module | type | field | property | event =>
      exact law.world fun _ _ hlinks _ =>
        Couples.throw (hlinks.kindMismatch _ _) (law.expected _ trivial)

end Definitions

mutual

theorem couples_resolveTypeRef (law : P.Linked decls) (ref : TypeRef)
    (h : P.CouplesAll decls search search' (declaredIn ref.targets)) :
    P.Couples (search.resolveTypeRef ref) (search'.resolveTypeRef ref) := by
  cases ref with
  | definition id | external type =>
      rw [resolveTypeRef, resolveTypeRef]
      exact .pure _
  | declared id =>
      rw [resolveTypeRef, resolveTypeRef]
      refine law.checkLiving fun hhas => ?_
      exact (couples_type law (h _ List.mem_cons_self hhas)).bind fun _ => .pure _
  | constructed signature =>
      rw [resolveTypeRef, resolveTypeRef]
      rw [TypeRef.targets] at h
      exact (couples_resolveTypeSig law signature h).bind fun _ => .pure _
termination_by structural ref

theorem couples_resolveTypeSig (law : P.Linked decls) (signature : TypeSig)
    (h : P.CouplesAll decls search search' (declaredIn signature.targets)) :
    P.Couples (search.resolveTypeSig signature) (search'.resolveTypeSig signature) := by
  cases signature with
  | unknown =>
      rw [resolveTypeSig, resolveTypeSig]
      exact Couples.throw rfl (law.expected _ trivial)
  | sentinel | primitive type =>
      rw [resolveTypeSig, resolveTypeSig]
      exact .pure _
  | classType type | valueType type =>
      rw [resolveTypeSig, resolveTypeSig]
      rw [TypeSig.targets] at h
      exact (couples_resolveTypeRef law type h).bind fun _ => .pure _
  | genericVar kind index owner =>
      rw [resolveTypeSig, resolveTypeSig]
      exact (law.checkOwner kind index owner).bind fun _ => .pure _
  | function signature =>
      rw [resolveTypeSig, resolveTypeSig]
      rw [TypeSig.targets] at h
      exact (couples_resolveMethodSig law signature h).bind fun _ => .pure _
  | applied generic args =>
      rw [resolveTypeSig, resolveTypeSig]
      rw [TypeSig.targets, declaredIn_append, couplesAll_append] at h
      refine (couples_resolveTypeSig law generic h.1).bind fun _ => ?_
      exact (couples_resolveTypeSigs law args h.2).bind fun _ => .pure _
  | pointer inner | byRef inner | vector inner | pinned inner | array inner shape
  | inModule index inner =>
      rw [resolveTypeSig, resolveTypeSig]
      rw [TypeSig.targets] at h
      exact (couples_resolveTypeSig law inner h).bind fun _ => .pure _
  | required modifier inner | optional modifier inner =>
      rw [resolveTypeSig, resolveTypeSig]
      rw [TypeSig.targets, declaredIn_append, couplesAll_append] at h
      refine (couples_resolveTypeRef law modifier h.1).bind fun _ => ?_
      exact (couples_resolveTypeSig law inner h.2).bind fun _ => .pure _
termination_by structural signature

theorem couples_resolveMethodSig (law : P.Linked decls) (signature : MethodSig)
    (h : P.CouplesAll decls search search' (declaredIn signature.targets)) :
    P.Couples (search.resolveMethodSig signature) (search'.resolveMethodSig signature) := by
  obtain ⟨callConv, genericCount, result, params, varargs⟩ := signature
  rw [resolveMethodSig, resolveMethodSig]
  rw [MethodSig.targets, declaredIn_append, declaredIn_append, couplesAll_append,
    couplesAll_append] at h
  obtain ⟨⟨hresult, hparams⟩, hvarargs⟩ := h
  refine (couples_resolveTypeSig law result hresult).bind fun _ => ?_
  refine (couples_resolveTypeSigs law params hparams).bind fun _ => ?_
  exact (couples_resolveTypeSigs law varargs hvarargs).bind fun _ => .pure _
termination_by structural signature

theorem couples_resolveTypeSigs (law : P.Linked decls) (signatures : List TypeSig)
    (h : P.CouplesAll decls search search' (declaredIn (TypeSig.targetsList signatures))) :
    P.Couples (search.resolveTypeSigs signatures) (search'.resolveTypeSigs signatures) := by
  cases signatures with
  | nil =>
      rw [resolveTypeSigs, resolveTypeSigs]
      exact .pure _
  | cons signature rest =>
      rw [resolveTypeSigs, resolveTypeSigs]
      rw [TypeSig.targetsList, declaredIn_append, couplesAll_append] at h
      refine (couples_resolveTypeSig law signature h.1).bind fun _ => ?_
      exact (couples_resolveTypeSigs law rest h.2).bind fun _ => .pure _
termination_by structural signatures

end

section MemberReferences

variable (law : P.Linked decls)

include law

theorem couples_resolveFieldRef (ref : FieldRef)
    (h : P.CouplesAll decls search search' (declaredIn ref.targets)) :
    P.Couples (search.resolveFieldRef ref) (search'.resolveFieldRef ref) := by
  cases ref with
  | definition id => exact .pure _
  | declared id =>
      refine law.checkLiving fun hhas => ?_
      exact (couples_field law (h _ List.mem_cons_self hhas)).bind fun _ => .pure _
  | external owner name signature =>
      rw [FieldRef.targets, declaredIn_append, couplesAll_append] at h
      refine (couples_resolveTypeRef law owner h.1).bind fun _ => ?_
      exact (couples_resolveTypeSig law signature h.2).bind fun _ => .pure _

theorem couples_resolveMethodRef (ref : MethodRef)
    (h : P.CouplesAll decls search search' (declaredIn ref.targets)) :
    P.Couples (search.resolveMethodRef ref) (search'.resolveMethodRef ref) := by
  cases ref with
  | definition id =>
      rw [resolveMethodRef, resolveMethodRef]
      exact .pure _
  | declared id =>
      rw [resolveMethodRef, resolveMethodRef]
      refine law.checkLiving fun hhas => ?_
      exact (couples_method law (h _ List.mem_cons_self hhas)).bind fun _ => .pure _
  | external owner name signature =>
      rw [resolveMethodRef, resolveMethodRef]
      rw [MethodRef.targets, declaredIn_append, couplesAll_append] at h
      refine (couples_resolveTypeRef law owner h.1).bind fun _ => ?_
      exact (couples_resolveMethodSig law signature h.2).bind fun _ => .pure _
  | instantiated method args =>
      rw [resolveMethodRef, resolveMethodRef]
      rw [MethodRef.targets, declaredIn_append, couplesAll_append] at h
      refine (couples_resolveMethodRef method h.1).bind fun _ => ?_
      exact (couples_resolveTypeSigs law args h.2).bind fun _ => .pure _
termination_by structural ref

theorem couples_resolvePropertySig (signature : PropertySig)
    (h : P.CouplesAll decls search search' (declaredIn signature.targets)) :
    P.Couples (search.resolvePropertySig signature) (search'.resolvePropertySig signature) := by
  rw [PropertySig.targets, declaredIn_append, couplesAll_append] at h
  refine (couples_resolveTypeSig law signature.type h.1).bind fun _ => ?_
  exact (couples_resolveTypeSigs law signature.params h.2).bind fun _ => .pure _

theorem couples_resolveGenericParam (param : GenericParam)
    (h : P.CouplesAll decls search search' (declaredIn param.targets)) :
    P.Couples (search.resolveGenericParam param) (search'.resolveGenericParam param) := by
  rw [GenericParam.targets, declaredIn_flatMap] at h
  refine (Couples.mapM fun ref hmem => ?_).bind fun _ => .pure _
  exact couples_resolveTypeRef law ref
    (couplesAll_mono h fun _ hother => List.mem_flatMap_of_mem hmem hother)

theorem couples_resolveOverride (override : Override)
    (h : P.CouplesAll decls search search' (declaredIn override.targets)) :
    P.Couples (search.resolveOverride override) (search'.resolveOverride override) := by
  rw [Override.targets, declaredIn_append, couplesAll_append] at h
  refine (couples_resolveMethodRef law override.body h.1).bind fun _ => ?_
  exact (couples_resolveMethodRef law override.declaration h.2).bind fun _ => .pure _

/-- The scope around a member is asked for only if it exists. -/
theorem couples_ownerOf {declaration : Declaration} {owner : DeclId .type}
    (h : P.CouplesAll decls search search' ((decls.living? owner).map Declaration.type).toList) :
    P.Couples (search.ownerOf declaration owner) (search'.ownerOf declaration owner) := by
  refine law.world fun world world' hlinks hdecls => ?_
  subst hdecls
  rw [hlinks.decls]
  cases hliving : world.decls.living? owner with
  | none => exact Couples.throw (hlinks.detached _) (law.expected _ trivial)
  | some living =>
      rw [hliving] at h
      exact couples_type law (h _ List.mem_cons_self (Declarations.has_living hliving))

end MemberReferences

/-! ## Locating -/

variable (law : P.Lawful decls)

include law

/-- A declaration is located in the same way by two searches that agree on its forerunners. -/
theorem couples_locate {declaration : Declaration} (hdoubts : P.Doubts declaration)
    (h : P.CouplesAll decls search search' (decls.forerunners declaration)) :
    P.Couples (search.locate declaration) (search'.locate declaration) := by
  have hsplit := couplesAll_append.mp h
  -- In every case the scope comes first, then the signature, and then a search that reads only the
  -- definitions.
  cases declaration with
  | module id =>
      refine Couples.bind (law.world fun world world' hlinks _ => ?_) fun _ => .pure _
      rw [hlinks.decls]
      refine (law.module? _).bind fun found => law.findOrCreate hdoubts ?_
      exact (law.makeDef _).bind fun made => (law.keepModule _ made).bind fun _ => .pure _
  | type id =>
      refine Couples.bind (law.world fun world world' hlinks hdecls => ?_) fun _ => .pure _
      subst hdecls
      have hparent := hsplit.1
      rw [hlinks.decls]
      rw [Declarations.parent?] at hparent
      cases houter : world.decls.outer? id with
      | some outer =>
          rw [houter] at hparent
          have hhas := Declarations.has_outer houter
          refine (couples_type law.toLinked (hparent _ List.mem_cons_self hhas)).bind fun owner => ?_
          refine law.world fun world world' hlinks _ => ?_
          dsimp only
          rw [hlinks.defs, hlinks.decls]
          exact law.findOrCreate hdoubts (law.makeDef _)
      | none =>
          rw [houter] at hparent
          cases hmodule : world.decls.moduleOf? id with
          | none => exact Couples.throw (hlinks.detached _) (law.expected _ trivial)
          | some module =>
              rw [hmodule] at hparent
              have hhas := Declarations.has_moduleWithin hmodule
              refine (couples_module law.toLinked (hparent _ List.mem_cons_self hhas)).bind fun owner => ?_
              refine law.world fun world world' hlinks _ => ?_
              dsimp only
              rw [hlinks.defs, hlinks.decls]
              exact law.findOrCreate hdoubts (law.makeDef _)
  | field id =>
      refine Couples.bind (law.world fun world world' hlinks hdecls => ?_) fun _ => .pure _
      subst hdecls
      rw [hlinks.decls]
      refine (couples_ownerOf law.toLinked hsplit.1).bind fun owner => ?_
      refine (couples_resolveTypeSig law.toLinked _ hsplit.2).bind fun signature => ?_
      refine law.world fun world world' hlinks _ => ?_
      dsimp only
      rw [hlinks.defs]
      exact law.findOrCreate hdoubts (law.makeDef _)
  | method id =>
      refine Couples.bind (law.world fun world world' hlinks hdecls => ?_) fun _ => .pure _
      subst hdecls
      rw [hlinks.decls]
      refine (couples_ownerOf law.toLinked hsplit.1).bind fun owner => ?_
      refine (couples_resolveMethodSig law.toLinked _ hsplit.2).bind fun signature => ?_
      refine law.world fun world world' hlinks _ => ?_
      dsimp only
      rw [hlinks.defs, hlinks.typeNames]
      exact law.findOrCreate hdoubts (law.makeDef _)
  | property id =>
      refine Couples.bind (law.world fun world world' hlinks hdecls => ?_) fun _ => .pure _
      subst hdecls
      rw [hlinks.decls]
      refine (couples_ownerOf law.toLinked hsplit.1).bind fun owner => ?_
      refine (couples_resolvePropertySig law.toLinked _ hsplit.2).bind fun signature => ?_
      refine law.world fun world world' hlinks _ => ?_
      dsimp only
      rw [hlinks.defs]
      exact law.findOrCreate hdoubts (law.makeDef _)
  | event id =>
      refine Couples.bind (law.world fun world world' hlinks hdecls => ?_) fun _ => .pure _
      subst hdecls
      rw [hlinks.decls]
      refine (couples_ownerOf law.toLinked hsplit.1).bind fun owner => ?_
      refine (couples_resolveTypeRef law.toLinked _ hsplit.2).bind fun type => ?_
      refine law.world fun world world' hlinks _ => ?_
      dsimp only
      rw [hlinks.defs]
      exact law.findOrCreate hdoubts (law.makeDef _)

/-! ## Reconciling -/

theorem couples_reconcileBase (id : DeclId .type) (type : DefId .type) (made : Bool)
    (hdoubts : made = false → P.Doubts (.type id))
    (h : P.CouplesAll decls search search'
      (declaredIn ((decls.type id).base.elim [] TypeRef.targets))) :
    P.Couples (search.reconcileBase id type made) (search'.reconcileBase id type made) := by
  refine law.world fun world world' hlinks hdecls => ?_
  subst hdecls
  rw [hlinks.decls]
  cases hbase : (world.decls.type id).base with
  | none => exact .pure _
  | some declared =>
      rw [hbase] at h
      refine (couples_resolveTypeRef law.toLinked declared h).bind fun resolved => ?_
      refine law.worldIn fun world world' hlinks _ => ?_
      dsimp only
      rw [hlinks.defs, hlinks.typeNames, hlinks.declSymbol]
      split
      · exact Couples.inside (.pure _) world
      · split
        · exact (law.changeDefs _).inside world
        · exact .mismatch (hdoubts (eq_false_of_ne_true ‹_›)) _

theorem couples_reconcileInterface (id : DeclId .type) (type : DefId .type) (declared : TypeRef)
    (h : P.CouplesAll decls search search' (declaredIn declared.targets)) :
    P.Couples (search.reconcileInterface id type declared)
      (search'.reconcileInterface id type declared) := by
  refine (couples_resolveTypeRef law.toLinked declared h).bind fun resolved => ?_
  refine law.world fun world world' hlinks _ => ?_
  dsimp only
  rw [hlinks.defs, hlinks.typeNames, hlinks.typeRefName]
  split
  · exact .pure _
  · exact (law.checkWritable _).bind fun _ => (law.log _).bind fun _ => law.changeDefs _

theorem couples_reconcileGenerics (id : DeclId .type) (type : DefId .type) (made : Bool)
    (hdoubts : made = false → P.Doubts (.type id))
    (h : P.CouplesAll decls search search'
      (declaredIn ((decls.type id).generics.elim [] (List.flatMap GenericParam.targets)))) :
    P.Couples (search.reconcileGenerics id type made) (search'.reconcileGenerics id type made) := by
  refine law.world fun world world' hlinks hdecls => ?_
  subst hdecls
  rw [hlinks.decls]
  cases hgenerics : (world.decls.type id).generics with
  | none => exact .pure _
  | some declared =>
      rw [hgenerics, Option.elim_some, declaredIn_flatMap] at h
      refine (Couples.mapM fun param hmem => ?_).bind fun resolved => ?_
      · exact couples_resolveGenericParam law.toLinked param
          (couplesAll_mono h fun _ hother => List.mem_flatMap_of_mem hmem hother)
      · split
        · exact law.changeDefs _
        · refine law.worldIn fun world world' hlinks _ => ?_
          dsimp only
          rw [hlinks.defs, hlinks.declSymbol]
          split
          · exact .mismatch (hdoubts (eq_false_of_ne_true ‹_›)) _
          · exact Couples.inside (.pure _) world

theorem couples_reconcileOverride (id : DeclId .method) (method : DefId .method)
    (declared : Override) (h : P.CouplesAll decls search search' (declaredIn declared.targets)) :
    P.Couples (search.reconcileOverride id method declared)
      (search'.reconcileOverride id method declared) := by
  refine (couples_resolveOverride law.toLinked declared h).bind fun resolved => ?_
  refine law.world fun world world' hlinks _ => ?_
  dsimp only
  rw [hlinks.defs, hlinks.typeNames, hlinks.methodName, hlinks.methodRefName]
  split
  · exact .pure _
  · exact (law.checkWritable _).bind fun _ => (law.log _).bind fun _ => law.changeDefs _

theorem couples_reconcileAccessors {declaration : Declaration} {definition : Definition}
    {present : World → Accessors} {store : (Accessors → Accessors) → SessionTask Unit}
    {accessors : DeclaredAccessors}
    (hpresent : ∀ world world' : World, world.SameLinks world' → present world' = present world)
    (hstore : ∀ change, P.Couples (store change) (store change))
    (h : ∀ entry ∈ accessors, P.Couples (search (.method entry.2)) (search' (.method entry.2))) :
    P.Couples
      (accessors.forM fun (role, declared) =>
        search.reconcileAccessor declaration definition present store role declared)
      (accessors.forM fun (role, declared) =>
        search'.reconcileAccessor declaration definition present store role declared) := by
  refine .forM fun entry hmem => ?_
  refine (couples_method law.toLinked (h entry hmem)).bind fun method => ?_
  -- Whether the accessor is linked already is looked up only after it has been resolved.
  refine law.world fun world world' hlinks _ => ?_
  rw [hpresent world world' hlinks, hlinks.defName, hlinks.methodName]
  split
  · exact .pure _
  · exact (law.checkWritable _).bind fun _ => (law.log _).bind fun _ => hstore _

theorem couples_reconcileType (id : DeclId .type) (type : DefId .type) (made : Bool)
    (hdoubts : made = false → P.Doubts (.type id))
    (h : P.CouplesAll decls search search' (decls.followers (.type id))) :
    P.Couples (search.reconcileType id type made) (search'.reconcileType id type made) := by
  rw [followers_type, couplesAll_append, couplesAll_append] at h
  obtain ⟨hbase, hinterfaces, hgenerics⟩ := h
  have hrest : P.Couples
      (do
        search.reconcileBase id type made
        ((← SessionTask.world).decls.type id).interfaces.forM
          (search.reconcileInterface id type)
        search.reconcileGenerics id type made)
      (do
        search'.reconcileBase id type made
        ((← SessionTask.world).decls.type id).interfaces.forM
          (search'.reconcileInterface id type)
        search'.reconcileGenerics id type made) := by
    refine (couples_reconcileBase law id type made hdoubts hbase).bind fun _ => ?_
    refine law.world fun world world' hlinks hdecls => ?_
    subst hdecls
    rw [hlinks.decls]
    refine (Couples.forM fun ref hmem => ?_).bind fun _ =>
      couples_reconcileGenerics law id type made hdoubts hgenerics
    exact couples_reconcileInterface law id type ref
      (couplesAll_mono hinterfaces fun _ hother => List.mem_flatMap_of_mem hmem hother)
  unfold reconcileType
  cases made with
  | true => exact hrest
  | false =>
      refine law.world fun world world' hlinks _ => ?_
      dsimp only
      rw [hlinks.defs, hlinks.decls]
      exact (law.reconcileFlags fun _ => law.changeDefs _).bind fun _ => hrest

theorem couples_reconcileField (id : DeclId .field) (field : DefId .field) (made : Bool)
    (hdoubts : made = false → P.Doubts (.field id))
    (h : P.CouplesAll decls search search' (declaredIn (decls.field id).signature.targets)) :
    P.Couples (search.reconcileField id field made) (search'.reconcileField id field made) := by
  unfold reconcileField
  cases made with
  | true => exact .pure ()
  | false =>
      refine law.world fun world world' hlinks hdecls => ?_
      subst hdecls
      rw [hlinks.decls]
      refine (couples_resolveTypeSig law.toLinked _ h).bind fun declared => ?_
      refine law.worldIn fun world world' hlinks _ => ?_
      dsimp only
      rw [hlinks.defs, hlinks.decls, hlinks.typeNames, hlinks.declSymbol]
      split
      · exact (law.reconcileFlags fun _ => law.changeDefs _).inside world
      · exact .mismatch (hdoubts rfl) _

/-- A method comes to the same end if its result fits wherever that is looked at, or if it is to be
expected that it does not. -/
theorem agree_reconcileMethod (id : DeclId .method) (method : DefId .method) (made : Bool)
    {left right : SessionState} (halike : P.Alike left right)
    (hfits : made = false → ∀ declared last,
      (search.resolveMethodSig (decls.method id).signature).on left = (.ok declared, last) →
        (last.world.defs.method method).signature.result.same last.world.typeNames .declared
          declared.result = true ∨ P.Doubts (.method id))
    (h : P.CouplesAll decls search search' (declaredIn (decls.method id).signature.targets))
    (hoverrides : P.CouplesAll decls search search' (decls.followers (.method id))) :
    P.Agree ((search.reconcileMethod id method made).on left)
      ((search'.reconcileMethod id method made).on right) := by
  rw [followers_method] at hoverrides
  have hrest : P.Couples
      (do
        ((← SessionTask.world).decls.method id).overrides.forM
          (search.reconcileOverride id method))
      (do
        ((← SessionTask.world).decls.method id).overrides.forM
          (search'.reconcileOverride id method)) := by
    refine law.world fun world world' hlinks hdecls => ?_
    subst hdecls
    rw [hlinks.decls]
    refine .forM fun override hmem => ?_
    exact couples_reconcileOverride law id method override
      (couplesAll_mono hoverrides fun _ hother => List.mem_flatMap_of_mem hmem hother)
  unfold reconcileMethod
  cases made with
  | true => exact hrest left right halike
  | false =>
      refine Agree.world ?_
      rw [(law.links left right halike).decls, law.decls_eq left right halike]
      refine (couples_resolveMethodSig law.toLinked _ h left right halike).bind
        fun declared last last' hon halike' => Agree.world ?_
      have hlinks := law.links last last' halike'
      dsimp only
      rw [hlinks.defs, hlinks.decls, hlinks.typeNames, hlinks.declSymbol]
      split
      · exact ((law.reconcileFlags fun _ => law.changeDefs _).bind fun _ => hrest) last last' halike'
      · have hdoubts := (hfits rfl declared last hon).resolve_left ‹_›
        exact CouplesIn.mismatch hdoubts _ last last' halike' rfl

theorem couples_reconcileMethod (id : DeclId .method) (method : DefId .method) (made : Bool)
    (hdoubts : made = false → P.Doubts (.method id))
    (h : P.CouplesAll decls search search' (declaredIn (decls.method id).signature.targets))
    (hoverrides : P.CouplesAll decls search search' (decls.followers (.method id))) :
    P.Couples (search.reconcileMethod id method made) (search'.reconcileMethod id method made) :=
  fun _ _ halike => agree_reconcileMethod law id method made halike
    (fun hmade _ _ _ => .inr (hdoubts hmade)) h hoverrides

/-- A property comes to the same end if its signature fits wherever that is looked at, or if it is to
be expected that it does not. -/
theorem agree_reconcileProperty (id : DeclId .property) (property : DefId .property) (made : Bool)
    {left right : SessionState} (halike : P.Alike left right)
    (hfits : made = false → ∀ declared last,
      (search.resolvePropertySig (decls.property id).signature).on left = (.ok declared, last) →
        (last.world.defs.property property).signature.same last.world.typeNames .declared
          declared = true ∨ P.Doubts (.property id))
    (haccessors : ∀ entry ∈ (decls.property id).accessors,
      P.Couples (search (.method entry.2)) (search' (.method entry.2)))
    (h : P.CouplesAll decls search search' (declaredIn (decls.property id).signature.targets)) :
    P.Agree ((search.reconcileProperty id property made).on left)
      ((search'.reconcileProperty id property made).on right) := by
  have hrest : P.Couples
      (do
        ((← SessionTask.world).decls.property id).accessors.forM fun (role, declared) =>
          search.reconcileAccessor (.property id) (.property property)
            (fun world => (world.defs.property property).accessors)
            (fun change => changeDefs (·.updateProperty property fun record =>
              { record with accessors := change record.accessors }))
            role declared)
      (do
        ((← SessionTask.world).decls.property id).accessors.forM fun (role, declared) =>
          search'.reconcileAccessor (.property id) (.property property)
            (fun world => (world.defs.property property).accessors)
            (fun change => changeDefs (·.updateProperty property fun record =>
              { record with accessors := change record.accessors }))
            role declared) := by
    refine law.world fun world world' hlinks hdecls => ?_
    subst hdecls
    rw [hlinks.decls]
    exact couples_reconcileAccessors law (fun _ _ hlinks => by rw [hlinks.defs])
      (fun _ => law.changeDefs _) haccessors
  unfold reconcileProperty
  cases made with
  | true => exact hrest left right halike
  | false =>
      refine Agree.world ?_
      rw [(law.links left right halike).decls, law.decls_eq left right halike]
      refine (couples_resolvePropertySig law.toLinked _ h left right halike).bind
        fun declared last last' hon halike' => Agree.world ?_
      have hlinks := law.links last last' halike'
      dsimp only
      rw [hlinks.defs, hlinks.decls, hlinks.typeNames, hlinks.declSymbol]
      split
      · exact ((law.reconcileFlags fun _ => law.changeDefs _).bind fun _ => hrest) last last' halike'
      · have hdoubts := (hfits rfl declared last hon).resolve_left ‹_›
        exact CouplesIn.mismatch hdoubts _ last last' halike' rfl

theorem couples_reconcileProperty (id : DeclId .property) (property : DefId .property) (made : Bool)
    (hdoubts : made = false → P.Doubts (.property id))
    (haccessors : ∀ entry ∈ (decls.property id).accessors,
      P.Couples (search (.method entry.2)) (search' (.method entry.2)))
    (h : P.CouplesAll decls search search' (declaredIn (decls.property id).signature.targets)) :
    P.Couples (search.reconcileProperty id property made)
      (search'.reconcileProperty id property made) :=
  fun _ _ halike => agree_reconcileProperty law id property made halike
    (fun hmade _ _ _ => .inr (hdoubts hmade)) haccessors h

theorem couples_reconcileEvent (id : DeclId .event) (event : DefId .event) (made : Bool)
    (hdoubts : made = false → P.Doubts (.event id))
    (haccessors : ∀ entry ∈ (decls.event id).accessors,
      P.Couples (search (.method entry.2)) (search' (.method entry.2)))
    (h : P.CouplesAll decls search search' (declaredIn (decls.event id).type.targets)) :
    P.Couples (search.reconcileEvent id event made) (search'.reconcileEvent id event made) := by
  have hrest : P.Couples
      (do
        ((← SessionTask.world).decls.event id).accessors.forM fun (role, declared) =>
          search.reconcileAccessor (.event id) (.event event)
            (fun world => (world.defs.event event).accessors)
            (fun change => changeDefs (·.updateEvent event fun record =>
              { record with accessors := change record.accessors }))
            role declared)
      (do
        ((← SessionTask.world).decls.event id).accessors.forM fun (role, declared) =>
          search'.reconcileAccessor (.event id) (.event event)
            (fun world => (world.defs.event event).accessors)
            (fun change => changeDefs (·.updateEvent event fun record =>
              { record with accessors := change record.accessors }))
            role declared) := by
    refine law.world fun world world' hlinks hdecls => ?_
    subst hdecls
    rw [hlinks.decls]
    exact couples_reconcileAccessors law (fun _ _ hlinks => by rw [hlinks.defs])
      (fun _ => law.changeDefs _) haccessors
  unfold reconcileEvent
  cases made with
  | true => exact hrest
  | false =>
      refine law.world fun world world' hlinks hdecls => ?_
      subst hdecls
      rw [hlinks.decls]
      refine (couples_resolveTypeRef law.toLinked _ h).bind fun declared => ?_
      refine law.worldIn fun world world' hlinks _ => ?_
      dsimp only
      rw [hlinks.defs, hlinks.decls, hlinks.typeNames, hlinks.declSymbol]
      split
      · exact ((law.reconcileFlags fun _ => law.changeDefs _).bind fun _ => hrest).inside world
      · exact .mismatch (hdoubts rfl) _

/-- A definition is reconciled in the same way by two searches that agree on the signature and on the
followers of its declaration. Accessors are asked for even if they do not exist. -/
theorem couples_reconcile {declaration : Declaration} (definition : Definition) (made : Bool)
    (hdoubts : made = false → P.Doubts declaration)
    (haccessors : ∀ entry ∈ (decls.statement declaration).accessors,
      P.Couples (search (.method entry.2)) (search' (.method entry.2)))
    (h : P.CouplesAll decls search search'
      (declaredIn (decls.statement declaration).shape.targets ++ decls.followers declaration)) :
    P.Couples (search.reconcile declaration definition made)
      (search'.reconcile declaration definition made) := by
  obtain ⟨hshape, hfollowers⟩ := couplesAll_append.mp h
  cases declaration <;> cases definition <;> try exact .pure _
  case type id type => exact couples_reconcileType law id type made hdoubts hfollowers
  case field id field => exact couples_reconcileField law id field made hdoubts hshape
  case method id method => exact couples_reconcileMethod law id method made hdoubts hshape hfollowers
  case property id property =>
    exact couples_reconcileProperty law id property made hdoubts haccessors hshape
  case event id event => exact couples_reconcileEvent law id event made hdoubts haccessors hshape

end Search

end Graft
