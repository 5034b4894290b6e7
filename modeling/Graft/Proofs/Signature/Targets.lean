import Graft.Code.Body

/-!
# What references lead to

`targets` lists everything that a reference or a signature refers to, at any depth, in the order
in which it is written. Owners of generic variables are left out: they take no part in a
comparison and are never resolved. `relink` replaces the identities in a reference and keeps its
shape; what a relinked reference refers to is the image of what it referred to before
(`targets_relink`), and two ways to relink that agree on the targets give the same result
(`relink_congr`).
-/

namespace Graft

/-- What a reference leads to. -/
inductive Target where
  | definition (definition : Definition)
  | declaration (declaration : Declaration)
  /-- A signature of unknown shape, which leads nowhere. -/
  | unknown
  deriving DecidableEq

/-- The declaration that a reference leads to, if it leads to one. -/
def Target.declared? : Target → Option Declaration
  | .declaration other => some other
  | .definition _ | .unknown => none

/-! ## Targets -/

mutual

/-- What a type reference refers to. -/
def TypeRef.targets : TypeRef → List Target
  | .definition id => [.definition (.type id)]
  | .external _ => []
  | .declared id => [.declaration (.type id)]
  | .constructed signature => signature.targets
termination_by structural ref => ref

/-- What a type signature refers to. -/
def TypeSig.targets : TypeSig → List Target
  | .unknown => [.unknown]
  | .sentinel | .primitive _ | .genericVar .. => []
  | .classType type | .valueType type => type.targets
  | .function signature => signature.targets
  | .applied generic args => generic.targets ++ TypeSig.targetsList args
  | .pointer inner | .byRef inner | .vector inner | .pinned inner => inner.targets
  | .array inner _ | .inModule _ inner => inner.targets
  | .required modifier inner | .optional modifier inner => modifier.targets ++ inner.targets
termination_by structural signature => signature

/-- What a method signature refers to. -/
def MethodSig.targets : MethodSig → List Target
  | ⟨_, _, result, params, varargs⟩ =>
    result.targets ++ TypeSig.targetsList params ++ TypeSig.targetsList varargs
termination_by structural signature => signature

/-- What several type signatures refer to. -/
def TypeSig.targetsList : List TypeSig → List Target
  | [] => []
  | signature :: rest => signature.targets ++ TypeSig.targetsList rest
termination_by structural signatures => signatures

end

/-- What a field reference refers to. -/
def FieldRef.targets : FieldRef → List Target
  | .definition id => [.definition (.field id)]
  | .external owner _ signature => owner.targets ++ signature.targets
  | .declared id => [.declaration (.field id)]

/-- What a method reference refers to. -/
def MethodRef.targets : MethodRef → List Target
  | .definition id => [.definition (.method id)]
  | .external owner _ signature => owner.targets ++ signature.targets
  | .declared id => [.declaration (.method id)]
  | .instantiated method args => method.targets ++ TypeSig.targetsList args
termination_by structural ref => ref

/-- What a property signature refers to. -/
def PropertySig.targets (signature : PropertySig) : List Target :=
  signature.type.targets ++ TypeSig.targetsList signature.params

/-- What the constraints of a generic parameter refer to. -/
def GenericParam.targets (param : GenericParam) : List Target :=
  param.constraints.flatMap TypeRef.targets

/-- What both methods of an override refer to. -/
def Override.targets (override : Override) : List Target :=
  override.body.targets ++ override.declaration.targets

/-- What an operand refers to. A raw token refers to nothing by itself. -/
def Operand.targets : Operand → List Target
  | .type ref => ref.targets
  | .field ref => ref.targets
  | .method ref => ref.targets
  | .signature value => value.targets
  | .none | .immediate _ | .text _ | .target _ | .switch _ | .localVar _ | .argument _
  | .token _ => []

/-- What a body refers to: its operands, its local variables and the types it catches. -/
def Body.targets (body : Body) : List Target :=
  body.code.flatMap (·.operand.targets) ++ TypeSig.targetsList body.locals
    ++ body.handlers.flatMap fun handler => handler.catchType.elim [] TypeRef.targets

/-! ## Slots -/

/-- The slot of an owner that is still to be filled in. -/
def VarOwner.slots : VarOwner → List SlotId
  | .deferred slot => [slot]
  | .unbound | .type _ | .method _ => []

mutual

/-- The slots of the owners of generic variables in a type reference. -/
def TypeRef.slots : TypeRef → List SlotId
  | .definition _ | .external _ | .declared _ => []
  | .constructed signature => signature.slots
termination_by structural ref => ref

/-- The slots of the owners of generic variables in a type signature. -/
def TypeSig.slots : TypeSig → List SlotId
  | .unknown | .sentinel | .primitive _ => []
  | .genericVar _ _ owner => owner.slots
  | .classType type | .valueType type => type.slots
  | .function signature => signature.slots
  | .applied generic args => generic.slots ++ TypeSig.slotsList args
  | .pointer inner | .byRef inner | .vector inner | .pinned inner => inner.slots
  | .array inner _ | .inModule _ inner => inner.slots
  | .required modifier inner | .optional modifier inner => modifier.slots ++ inner.slots
termination_by structural signature => signature

/-- The slots of the owners of generic variables in a method signature. -/
def MethodSig.slots : MethodSig → List SlotId
  | ⟨_, _, result, params, varargs⟩ =>
    result.slots ++ TypeSig.slotsList params ++ TypeSig.slotsList varargs
termination_by structural signature => signature

/-- The slots of the owners of generic variables in several type signatures. -/
def TypeSig.slotsList : List TypeSig → List SlotId
  | [] => []
  | signature :: rest => signature.slots ++ TypeSig.slotsList rest
termination_by structural signatures => signatures

end

/-- The slots of the owners of generic variables in a field reference. -/
def FieldRef.slots : FieldRef → List SlotId
  | .definition _ | .declared _ => []
  | .external owner _ signature => owner.slots ++ signature.slots

/-- The slots of the owners of generic variables in a method reference. -/
def MethodRef.slots : MethodRef → List SlotId
  | .definition _ | .declared _ => []
  | .external owner _ signature => owner.slots ++ signature.slots
  | .instantiated method args => method.slots ++ TypeSig.slotsList args
termination_by structural ref => ref

/-- The slots of the owners of generic variables in a property signature. -/
def PropertySig.slots (signature : PropertySig) : List SlotId :=
  signature.type.slots ++ TypeSig.slotsList signature.params

/-- The slots of the owners of generic variables in the constraints of a generic parameter. -/
def GenericParam.slots (param : GenericParam) : List SlotId :=
  param.constraints.flatMap TypeRef.slots

/-- The slots of the owners of generic variables in both methods of an override. -/
def Override.slots (override : Override) : List SlotId :=
  override.body.slots ++ override.declaration.slots

theorem TypeSig.targetsList_eq_flatMap (signatures : List TypeSig) :
    TypeSig.targetsList signatures = signatures.flatMap TypeSig.targets := by
  induction signatures with
  | nil => simp [TypeSig.targetsList]
  | cons signature rest ih => simp [TypeSig.targetsList, ih]

/-! ## Relinking -/

/-- A way to replace identities. What names external symbols stays as it is. -/
structure Relink where
  onType : TypeRef → TypeRef := id
  onField : FieldRef → FieldRef := id
  onMethod : MethodRef → MethodRef := id
  onOwner : VarOwner → VarOwner := id

section Relink

variable (link : Relink)

mutual

/-- A type reference relinked. -/
def TypeRef.relink : TypeRef → TypeRef
  | .definition id => link.onType (.definition id)
  | .external type => .external type
  | .declared id => link.onType (.declared id)
  | .constructed signature => .constructed signature.relink
termination_by structural ref => ref

/-- A type signature relinked. -/
def TypeSig.relink : TypeSig → TypeSig
  | .unknown => .unknown
  | .sentinel => .sentinel
  | .primitive type => .primitive type
  | .classType type => .classType type.relink
  | .valueType type => .valueType type.relink
  | .genericVar kind index owner => .genericVar kind index (link.onOwner owner)
  | .function signature => .function signature.relink
  | .applied generic args => .applied generic.relink (TypeSig.relinkList args)
  | .pointer inner => .pointer inner.relink
  | .byRef inner => .byRef inner.relink
  | .vector inner => .vector inner.relink
  | .pinned inner => .pinned inner.relink
  | .array inner shape => .array inner.relink shape
  | .required modifier inner => .required modifier.relink inner.relink
  | .optional modifier inner => .optional modifier.relink inner.relink
  | .inModule index inner => .inModule index inner.relink
termination_by structural signature => signature

/-- A method signature relinked. -/
def MethodSig.relink : MethodSig → MethodSig
  | ⟨callConv, genericCount, result, params, varargs⟩ =>
    ⟨callConv, genericCount, result.relink, TypeSig.relinkList params,
      TypeSig.relinkList varargs⟩
termination_by structural signature => signature

/-- Type signatures relinked. -/
def TypeSig.relinkList : List TypeSig → List TypeSig
  | [] => []
  | signature :: rest => signature.relink :: TypeSig.relinkList rest
termination_by structural signatures => signatures

end

/-- A field reference relinked. -/
def FieldRef.relink : FieldRef → FieldRef
  | .definition id => link.onField (.definition id)
  | .external owner name signature => .external (owner.relink link) name (signature.relink link)
  | .declared id => link.onField (.declared id)

/-- A method reference relinked. -/
def MethodRef.relink : MethodRef → MethodRef
  | .definition id => link.onMethod (.definition id)
  | .external owner name signature => .external (owner.relink link) name (signature.relink link)
  | .declared id => link.onMethod (.declared id)
  | .instantiated method args => .instantiated method.relink (TypeSig.relinkList link args)
termination_by structural ref => ref

/-- A property signature relinked. -/
def PropertySig.relink (signature : PropertySig) : PropertySig :=
  { signature with
    type := signature.type.relink link
    params := TypeSig.relinkList link signature.params }

/-- A generic parameter with its constraints relinked. -/
def GenericParam.relink (param : GenericParam) : GenericParam :=
  { param with constraints := param.constraints.map (TypeRef.relink link) }

/-- An override with both methods relinked. -/
def Override.relink (override : Override) : Override :=
  ⟨override.body.relink link, override.declaration.relink link⟩

end Relink

/-- An operand relinked. -/
def Operand.relink (link : Relink) : Operand → Operand
  | .type ref => .type (ref.relink link)
  | .field ref => .field (ref.relink link)
  | .method ref => .method (ref.relink link)
  | .signature value => .signature (value.relink link)
  | operand => operand

/-! ## Where relinked references lead -/

namespace Relink

variable (link link' : Relink)

/-- What a target is relinked to. -/
def image : Target → List Target
  | .definition (.type id) => (link.onType (.definition id)).targets
  | .definition (.field id) => (link.onField (.definition id)).targets
  | .definition (.method id) => (link.onMethod (.definition id)).targets
  | .declaration (.type id) => (link.onType (.declared id)).targets
  | .declaration (.field id) => (link.onField (.declared id)).targets
  | .declaration (.method id) => (link.onMethod (.declared id)).targets
  | target => [target]

/-- Whether two ways to relink agree on a target. -/
def AgreesAt : Target → Prop
  | .definition (.type id) => link.onType (.definition id) = link'.onType (.definition id)
  | .definition (.field id) => link.onField (.definition id) = link'.onField (.definition id)
  | .definition (.method id) => link.onMethod (.definition id) = link'.onMethod (.definition id)
  | .declaration (.type id) => link.onType (.declared id) = link'.onType (.declared id)
  | .declaration (.field id) => link.onField (.declared id) = link'.onField (.declared id)
  | .declaration (.method id) => link.onMethod (.declared id) = link'.onMethod (.declared id)
  | _ => True

end Relink

section Images

variable {link link' : Relink}

mutual

theorem TypeRef.targets_relink (ref : TypeRef) :
    (ref.relink link).targets = ref.targets.flatMap link.image := by
  cases ref with
  | definition id => simp [TypeRef.relink, TypeRef.targets, Relink.image]
  | external type => simp [TypeRef.relink, TypeRef.targets]
  | declared id => simp [TypeRef.relink, TypeRef.targets, Relink.image]
  | constructed signature =>
      simp [TypeRef.relink, TypeRef.targets, TypeSig.targets_relink signature]
termination_by structural ref

theorem TypeSig.targets_relink (signature : TypeSig) :
    (signature.relink link).targets = signature.targets.flatMap link.image := by
  cases signature with
  | unknown => simp [TypeSig.relink, TypeSig.targets, Relink.image]
  | sentinel | primitive | genericVar => simp [TypeSig.relink, TypeSig.targets]
  | classType type | valueType type =>
      simp [TypeSig.relink, TypeSig.targets, TypeRef.targets_relink type]
  | function signature =>
      simp [TypeSig.relink, TypeSig.targets, MethodSig.targets_relink signature]
  | applied generic args =>
      simp [TypeSig.relink, TypeSig.targets, TypeSig.targets_relink generic,
        TypeSig.targets_relinkList args]
  | pointer inner | byRef inner | vector inner | pinned inner | array inner shape
  | inModule index inner =>
      simp [TypeSig.relink, TypeSig.targets, TypeSig.targets_relink inner]
  | required modifier inner | optional modifier inner =>
      simp [TypeSig.relink, TypeSig.targets, TypeRef.targets_relink modifier,
        TypeSig.targets_relink inner]
termination_by structural signature

theorem MethodSig.targets_relink (signature : MethodSig) :
    (signature.relink link).targets = signature.targets.flatMap link.image := by
  obtain ⟨callConv, genericCount, result, params, varargs⟩ := signature
  simp [MethodSig.relink, MethodSig.targets, TypeSig.targets_relink result,
    TypeSig.targets_relinkList params, TypeSig.targets_relinkList varargs]
termination_by structural signature

theorem TypeSig.targets_relinkList (signatures : List TypeSig) :
    TypeSig.targetsList (TypeSig.relinkList link signatures) =
      (TypeSig.targetsList signatures).flatMap link.image := by
  cases signatures with
  | nil => simp [TypeSig.relinkList, TypeSig.targetsList]
  | cons signature rest =>
      simp [TypeSig.relinkList, TypeSig.targetsList, TypeSig.targets_relink signature,
        TypeSig.targets_relinkList rest]
termination_by structural signatures

end

theorem FieldRef.targets_relink (ref : FieldRef) :
    (ref.relink link).targets = ref.targets.flatMap link.image := by
  cases ref <;>
    simp [FieldRef.relink, FieldRef.targets, Relink.image, TypeRef.targets_relink,
      TypeSig.targets_relink]

theorem MethodRef.targets_relink (ref : MethodRef) :
    (ref.relink link).targets = ref.targets.flatMap link.image := by
  cases ref with
  | definition id | declared id => simp [MethodRef.relink, MethodRef.targets, Relink.image]
  | external owner name signature =>
      simp [MethodRef.relink, MethodRef.targets, TypeRef.targets_relink,
        MethodSig.targets_relink]
  | instantiated method args =>
      simp [MethodRef.relink, MethodRef.targets, MethodRef.targets_relink method,
        TypeSig.targets_relinkList]
termination_by structural ref

theorem PropertySig.targets_relink (signature : PropertySig) :
    (signature.relink link).targets = signature.targets.flatMap link.image := by
  simp [PropertySig.relink, PropertySig.targets, TypeSig.targets_relink,
    TypeSig.targets_relinkList]

theorem GenericParam.targets_relink (param : GenericParam) :
    (param.relink link).targets = param.targets.flatMap link.image := by
  simp [GenericParam.relink, GenericParam.targets, List.flatMap_map, List.flatMap_assoc,
    TypeRef.targets_relink]

theorem Override.targets_relink (override : Override) :
    (override.relink link).targets = override.targets.flatMap link.image := by
  simp [Override.relink, Override.targets, MethodRef.targets_relink]

theorem Operand.targets_relink (operand : Operand) :
    (operand.relink link).targets = operand.targets.flatMap link.image := by
  cases operand <;>
    simp [Operand.relink, Operand.targets, TypeRef.targets_relink, FieldRef.targets_relink,
      MethodRef.targets_relink, MethodSig.targets_relink]

/-! ## Agreement

Ways to relink that agree on everything a reference leads to, and on owners, relink it alike. -/

section Agreement

set_option linter.unusedSectionVars false

variable (howner : link.onOwner = link'.onOwner)

include howner

mutual

theorem TypeRef.relink_congr (ref : TypeRef)
    (h : ∀ target ∈ ref.targets, link.AgreesAt link' target) :
    ref.relink link = ref.relink link' := by
  cases ref with
  | definition id | declared id =>
      simpa [TypeRef.relink, TypeRef.targets, Relink.AgreesAt] using h
  | external type => simp [TypeRef.relink]
  | constructed signature =>
      simp only [TypeRef.targets] at h
      simp [TypeRef.relink, TypeSig.relink_congr signature h]
termination_by structural ref

theorem TypeSig.relink_congr (signature : TypeSig)
    (h : ∀ target ∈ signature.targets, link.AgreesAt link' target) :
    signature.relink link = signature.relink link' := by
  cases signature with
  | unknown | sentinel | primitive => simp [TypeSig.relink]
  | genericVar kind index owner => simp [TypeSig.relink, howner]
  | classType type | valueType type =>
      simp only [TypeSig.targets] at h
      simp [TypeSig.relink, TypeRef.relink_congr type h]
  | function signature =>
      simp only [TypeSig.targets] at h
      simp [TypeSig.relink, MethodSig.relink_congr signature h]
  | applied generic args =>
      simp only [TypeSig.targets, List.forall_mem_append] at h
      simp [TypeSig.relink, TypeSig.relink_congr generic h.1, TypeSig.relinkList_congr args h.2]
  | pointer inner | byRef inner | vector inner | pinned inner | array inner shape
  | inModule index inner =>
      simp only [TypeSig.targets] at h
      simp [TypeSig.relink, TypeSig.relink_congr inner h]
  | required modifier inner | optional modifier inner =>
      simp only [TypeSig.targets, List.forall_mem_append] at h
      simp [TypeSig.relink, TypeRef.relink_congr modifier h.1, TypeSig.relink_congr inner h.2]
termination_by structural signature

theorem MethodSig.relink_congr (signature : MethodSig)
    (h : ∀ target ∈ signature.targets, link.AgreesAt link' target) :
    signature.relink link = signature.relink link' := by
  obtain ⟨callConv, genericCount, result, params, varargs⟩ := signature
  simp only [MethodSig.targets, List.forall_mem_append] at h
  simp [MethodSig.relink, TypeSig.relink_congr result h.1.1,
    TypeSig.relinkList_congr params h.1.2, TypeSig.relinkList_congr varargs h.2]
termination_by structural signature

theorem TypeSig.relinkList_congr (signatures : List TypeSig)
    (h : ∀ target ∈ TypeSig.targetsList signatures, link.AgreesAt link' target) :
    TypeSig.relinkList link signatures = TypeSig.relinkList link' signatures := by
  cases signatures with
  | nil => simp [TypeSig.relinkList]
  | cons signature rest =>
      simp only [TypeSig.targetsList, List.forall_mem_append] at h
      simp [TypeSig.relinkList, TypeSig.relink_congr signature h.1,
        TypeSig.relinkList_congr rest h.2]
termination_by structural signatures

end

theorem FieldRef.relink_congr (ref : FieldRef)
    (h : ∀ target ∈ ref.targets, link.AgreesAt link' target) :
    ref.relink link = ref.relink link' := by
  cases ref with
  | definition id | declared id =>
      simpa [FieldRef.relink, FieldRef.targets, Relink.AgreesAt] using h
  | external owner name signature =>
      simp only [FieldRef.targets, List.forall_mem_append] at h
      simp [FieldRef.relink, TypeRef.relink_congr howner owner h.1,
        TypeSig.relink_congr howner signature h.2]

theorem MethodRef.relink_congr (ref : MethodRef)
    (h : ∀ target ∈ ref.targets, link.AgreesAt link' target) :
    ref.relink link = ref.relink link' := by
  cases ref with
  | definition id | declared id =>
      simpa [MethodRef.relink, MethodRef.targets, Relink.AgreesAt] using h
  | external owner name signature =>
      simp only [MethodRef.targets, List.forall_mem_append] at h
      simp [MethodRef.relink, TypeRef.relink_congr howner owner h.1,
        MethodSig.relink_congr howner signature h.2]
  | instantiated method args =>
      simp only [MethodRef.targets, List.forall_mem_append] at h
      simp [MethodRef.relink, MethodRef.relink_congr method h.1,
        TypeSig.relinkList_congr howner args h.2]
termination_by structural ref

theorem PropertySig.relink_congr (signature : PropertySig)
    (h : ∀ target ∈ signature.targets, link.AgreesAt link' target) :
    signature.relink link = signature.relink link' := by
  simp only [PropertySig.targets, List.forall_mem_append] at h
  simp [PropertySig.relink, TypeSig.relink_congr howner signature.type h.1,
    TypeSig.relinkList_congr howner signature.params h.2]

theorem GenericParam.relink_congr (param : GenericParam)
    (h : ∀ target ∈ param.targets, link.AgreesAt link' target) :
    param.relink link = param.relink link' := by
  simp only [GenericParam.targets, List.mem_flatMap] at h
  have hconstraints : param.constraints.map (TypeRef.relink link)
      = param.constraints.map (TypeRef.relink link') :=
    List.map_congr_left fun ref href =>
      TypeRef.relink_congr howner ref fun target ht => h target ⟨ref, href, ht⟩
  simp [GenericParam.relink, hconstraints]

theorem Override.relink_congr (override : Override)
    (h : ∀ target ∈ override.targets, link.AgreesAt link' target) :
    override.relink link = override.relink link' := by
  simp only [Override.targets, List.forall_mem_append] at h
  simp [Override.relink, MethodRef.relink_congr howner override.body h.1,
    MethodRef.relink_congr howner override.declaration h.2]

theorem Operand.relink_congr (operand : Operand)
    (h : ∀ target ∈ operand.targets, link.AgreesAt link' target) :
    operand.relink link = operand.relink link' := by
  cases operand with
  | type ref => exact congrArg type (ref.relink_congr howner h)
  | field ref => exact congrArg field (ref.relink_congr howner h)
  | method ref => exact congrArg method (ref.relink_congr howner h)
  | signature value => exact congrArg signature (value.relink_congr howner h)
  | _ => rfl

end Agreement

end Images

/-! ## Relinking twice -/

/-- One way to relink after another. -/
def Relink.andThen (link link' : Relink) : Relink where
  onType ref := (link.onType ref).relink link'
  onField ref := (link.onField ref).relink link'
  onMethod ref := (link.onMethod ref).relink link'
  onOwner owner := link'.onOwner (link.onOwner owner)

section Twice

variable {link link' : Relink}

mutual

theorem TypeRef.relink_relink (ref : TypeRef) :
    (ref.relink link).relink link' = ref.relink (link.andThen link') := by
  cases ref with
  | definition id | declared id => simp [TypeRef.relink, Relink.andThen]
  | external type => simp [TypeRef.relink]
  | constructed signature => simp [TypeRef.relink, TypeSig.relink_relink signature]
termination_by structural ref

theorem TypeSig.relink_relink (signature : TypeSig) :
    (signature.relink link).relink link' = signature.relink (link.andThen link') := by
  cases signature with
  | unknown | sentinel | primitive => simp [TypeSig.relink]
  | genericVar kind index owner => simp [TypeSig.relink, Relink.andThen]
  | classType type | valueType type => simp [TypeSig.relink, TypeRef.relink_relink type]
  | function signature => simp [TypeSig.relink, MethodSig.relink_relink signature]
  | applied generic args =>
      simp [TypeSig.relink, TypeSig.relink_relink generic, TypeSig.relinkList_relinkList args]
  | pointer inner | byRef inner | vector inner | pinned inner | array inner shape
  | inModule index inner => simp [TypeSig.relink, TypeSig.relink_relink inner]
  | required modifier inner | optional modifier inner =>
      simp [TypeSig.relink, TypeRef.relink_relink modifier, TypeSig.relink_relink inner]
termination_by structural signature

theorem MethodSig.relink_relink (signature : MethodSig) :
    (signature.relink link).relink link' = signature.relink (link.andThen link') := by
  obtain ⟨callConv, genericCount, result, params, varargs⟩ := signature
  simp [MethodSig.relink, TypeSig.relink_relink result, TypeSig.relinkList_relinkList params,
    TypeSig.relinkList_relinkList varargs]
termination_by structural signature

theorem TypeSig.relinkList_relinkList (signatures : List TypeSig) :
    TypeSig.relinkList link' (TypeSig.relinkList link signatures) =
      TypeSig.relinkList (link.andThen link') signatures := by
  cases signatures with
  | nil => simp [TypeSig.relinkList]
  | cons signature rest =>
      simp [TypeSig.relinkList, TypeSig.relink_relink signature,
        TypeSig.relinkList_relinkList rest]
termination_by structural signatures

end

theorem FieldRef.relink_relink (ref : FieldRef) :
    (ref.relink link).relink link' = ref.relink (link.andThen link') := by
  cases ref with
  | definition id | declared id => simp [FieldRef.relink, Relink.andThen]
  | external owner name signature =>
      simp [FieldRef.relink, TypeRef.relink_relink, TypeSig.relink_relink]

theorem MethodRef.relink_relink (ref : MethodRef) :
    (ref.relink link).relink link' = ref.relink (link.andThen link') := by
  cases ref with
  | definition id | declared id => simp [MethodRef.relink, Relink.andThen]
  | external owner name signature =>
      simp [MethodRef.relink, TypeRef.relink_relink, MethodSig.relink_relink]
  | instantiated method args =>
      simp [MethodRef.relink, MethodRef.relink_relink method, TypeSig.relinkList_relinkList]
termination_by structural ref

theorem PropertySig.relink_relink (signature : PropertySig) :
    (signature.relink link).relink link' = signature.relink (link.andThen link') := by
  simp [PropertySig.relink, TypeSig.relink_relink, TypeSig.relinkList_relinkList]

theorem Override.relink_relink (override : Override) :
    (override.relink link).relink link' = override.relink (link.andThen link') := by
  simp [Override.relink, MethodRef.relink_relink]

theorem Operand.relink_relink (operand : Operand) :
    (operand.relink link).relink link' = operand.relink (link.andThen link') := by
  cases operand with
  | type ref => exact congrArg type ref.relink_relink
  | field ref => exact congrArg field ref.relink_relink
  | method ref => exact congrArg method ref.relink_relink
  | signature value => exact congrArg signature value.relink_relink
  | _ => rfl

end Twice

/-- What all that can be relinked has in common. -/
structure Relinks {α : Type} (targets : α → List Target) (relink : Relink → α → α) : Prop where
  targets_relink : ∀ {link : Relink} (value : α),
    targets (relink link value) = (targets value).flatMap link.image
  relink_congr : ∀ {link link' : Relink}, link.onOwner = link'.onOwner → ∀ value : α,
    (∀ target ∈ targets value, link.AgreesAt link' target) → relink link value = relink link' value
  relink_relink : ∀ {link link' : Relink} (value : α),
    relink link' (relink link value) = relink (link.andThen link') value

theorem TypeRef.relinks : Relinks TypeRef.targets TypeRef.relink :=
  ⟨targets_relink, relink_congr, relink_relink⟩

theorem TypeSig.relinks : Relinks TypeSig.targets TypeSig.relink :=
  ⟨targets_relink, relink_congr, relink_relink⟩

theorem TypeSig.relinksList : Relinks TypeSig.targetsList TypeSig.relinkList :=
  ⟨targets_relinkList, relinkList_congr, relinkList_relinkList⟩

theorem MethodSig.relinks : Relinks MethodSig.targets MethodSig.relink :=
  ⟨targets_relink, relink_congr, relink_relink⟩

theorem FieldRef.relinks : Relinks FieldRef.targets FieldRef.relink :=
  ⟨targets_relink, relink_congr, relink_relink⟩

theorem MethodRef.relinks : Relinks MethodRef.targets MethodRef.relink :=
  ⟨targets_relink, relink_congr, relink_relink⟩

theorem PropertySig.relinks : Relinks PropertySig.targets PropertySig.relink :=
  ⟨targets_relink, relink_congr, relink_relink⟩

theorem Override.relinks : Relinks Override.targets Override.relink :=
  ⟨targets_relink, relink_congr, relink_relink⟩

theorem Operand.relinks : Relinks Operand.targets Operand.relink :=
  ⟨targets_relink, relink_congr, relink_relink⟩

end Graft
