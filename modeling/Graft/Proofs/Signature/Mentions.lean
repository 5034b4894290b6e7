import Graft.Proofs.Signature.Targets

/-!
# References at every depth

`mentions` lists everything that a reference or a signature refers to, the owners of generic
variables included, and `relinkAll` relinks all of it. A method or a slot that owns a variable
itself stands apart: an owner may be relinked to something that no reference is. What holds for
`targets` and `relink` holds for these two as well: relinking moves the mentions
(`mentions_relinkAll`), depends on nothing else (`relinkAll_congr`), and can be done in one go
instead of two (`relinkAll_relinkAll`).
-/

namespace Graft

/-- What a signature refers to somewhere. -/
inductive Mention where
  | target (target : Target)
  /-- A definition of a method that owns a generic variable itself. -/
  | ownerDefinition (id : DefId .method)
  /-- A declaration of a method that owns a generic variable itself. -/
  | ownerDeclaration (id : DeclId .method)
  /-- A slot for the owner of a generic variable. -/
  | slot (slot : SlotId)
  deriving DecidableEq

/-! ## Mentions -/

mutual

/-- What a type reference refers to, at any depth. -/
def TypeRef.mentions : TypeRef → List Mention
  | .definition id => [.target (.definition (.type id))]
  | .external _ => []
  | .declared id => [.target (.declaration (.type id))]
  | .constructed signature => signature.mentions
termination_by structural ref => ref

/-- What a method reference refers to, at any depth. -/
def MethodRef.mentions : MethodRef → List Mention
  | .definition id => [.target (.definition (.method id))]
  | .external owner _ signature => owner.mentions ++ signature.mentions
  | .declared id => [.target (.declaration (.method id))]
  | .instantiated method args => method.mentions ++ TypeSig.mentionsList args
termination_by structural ref => ref

/-- What the owner of a generic variable refers to, at any depth. -/
def VarOwner.mentions : VarOwner → List Mention
  | .unbound => []
  | .type owner => owner.mentions
  | .method owner =>
    match owner with
    | .definition id => [.ownerDefinition id]
    | .external type _ signature => type.mentions ++ signature.mentions
    | .declared id => [.ownerDeclaration id]
    | .instantiated method args => method.mentions ++ TypeSig.mentionsList args
  | .deferred slot => [.slot slot]
termination_by structural owner => owner

/-- What a type signature refers to, at any depth. -/
def TypeSig.mentions : TypeSig → List Mention
  | .unknown => [.target .unknown]
  | .sentinel | .primitive _ => []
  | .classType type | .valueType type => type.mentions
  | .genericVar _ _ owner => owner.mentions
  | .function signature => signature.mentions
  | .applied generic args => generic.mentions ++ TypeSig.mentionsList args
  | .pointer inner | .byRef inner | .vector inner | .pinned inner => inner.mentions
  | .array inner _ | .inModule _ inner => inner.mentions
  | .required modifier inner | .optional modifier inner => modifier.mentions ++ inner.mentions
termination_by structural signature => signature

/-- What a method signature refers to, at any depth. -/
def MethodSig.mentions : MethodSig → List Mention
  | ⟨_, _, result, params, varargs⟩ =>
    result.mentions ++ (TypeSig.mentionsList params ++ TypeSig.mentionsList varargs)
termination_by structural signature => signature

/-- What several type signatures refer to, at any depth. -/
def TypeSig.mentionsList : List TypeSig → List Mention
  | [] => []
  | signature :: rest => signature.mentions ++ TypeSig.mentionsList rest
termination_by structural signatures => signatures

end

/-- What a field reference refers to, at any depth. -/
def FieldRef.mentions : FieldRef → List Mention
  | .definition id => [.target (.definition (.field id))]
  | .external owner _ signature => owner.mentions ++ signature.mentions
  | .declared id => [.target (.declaration (.field id))]

/-- What the signature of a property refers to, at any depth. -/
def PropertySig.mentions (signature : PropertySig) : List Mention :=
  signature.type.mentions ++ TypeSig.mentionsList signature.params

/-! ## Relinking at every depth -/

section RelinkAll

variable (link : Relink)

mutual

/-- A type reference relinked at every depth. -/
def TypeRef.relinkAll : TypeRef → TypeRef
  | .definition id => link.onType (.definition id)
  | .external type => .external type
  | .declared id => link.onType (.declared id)
  | .constructed signature => .constructed signature.relinkAll
termination_by structural ref => ref

/-- A method reference relinked at every depth. -/
def MethodRef.relinkAll : MethodRef → MethodRef
  | .definition id => link.onMethod (.definition id)
  | .external owner name signature => .external owner.relinkAll name signature.relinkAll
  | .declared id => link.onMethod (.declared id)
  | .instantiated method args => .instantiated method.relinkAll (TypeSig.relinkAllList args)
termination_by structural ref => ref

/-- The owner of a generic variable relinked at every depth. -/
def VarOwner.relinkAll : VarOwner → VarOwner
  | .unbound => .unbound
  | .type owner => .type owner.relinkAll
  | .method owner =>
    match owner with
    | .definition id => link.onOwner (.method (.definition id))
    | .external type name signature => .method (.external type.relinkAll name signature.relinkAll)
    | .declared id => link.onOwner (.method (.declared id))
    | .instantiated method args =>
      .method (.instantiated method.relinkAll (TypeSig.relinkAllList args))
  | .deferred slot => link.onOwner (.deferred slot)
termination_by structural owner => owner

/-- A type signature relinked at every depth. -/
def TypeSig.relinkAll : TypeSig → TypeSig
  | .unknown => .unknown
  | .sentinel => .sentinel
  | .primitive type => .primitive type
  | .classType type => .classType type.relinkAll
  | .valueType type => .valueType type.relinkAll
  | .genericVar kind index owner => .genericVar kind index owner.relinkAll
  | .function signature => .function signature.relinkAll
  | .applied generic args => .applied generic.relinkAll (TypeSig.relinkAllList args)
  | .pointer inner => .pointer inner.relinkAll
  | .byRef inner => .byRef inner.relinkAll
  | .vector inner => .vector inner.relinkAll
  | .pinned inner => .pinned inner.relinkAll
  | .array inner shape => .array inner.relinkAll shape
  | .required modifier inner => .required modifier.relinkAll inner.relinkAll
  | .optional modifier inner => .optional modifier.relinkAll inner.relinkAll
  | .inModule index inner => .inModule index inner.relinkAll
termination_by structural signature => signature

/-- A method signature relinked at every depth. -/
def MethodSig.relinkAll : MethodSig → MethodSig
  | ⟨callConv, genericCount, result, params, varargs⟩ =>
    ⟨callConv, genericCount, result.relinkAll, TypeSig.relinkAllList params,
      TypeSig.relinkAllList varargs⟩
termination_by structural signature => signature

/-- Type signatures relinked at every depth. -/
def TypeSig.relinkAllList : List TypeSig → List TypeSig
  | [] => []
  | signature :: rest => signature.relinkAll :: TypeSig.relinkAllList rest
termination_by structural signatures => signatures

end

/-- A field reference relinked at every depth. -/
def FieldRef.relinkAll : FieldRef → FieldRef
  | .definition id => link.onField (.definition id)
  | .external owner name signature =>
    .external (owner.relinkAll link) name (signature.relinkAll link)
  | .declared id => link.onField (.declared id)

/-- The signature of a property relinked at every depth. -/
def PropertySig.relinkAll (signature : PropertySig) : PropertySig :=
  { signature with
    type := signature.type.relinkAll link
    params := TypeSig.relinkAllList link signature.params }

end RelinkAll

namespace Relink

variable (link link' : Relink)

/-- What a mention is relinked to. -/
def imageAll : Mention → List Mention
  | .target (.definition (.type id)) => (link.onType (.definition id)).mentions
  | .target (.declaration (.type id)) => (link.onType (.declared id)).mentions
  | .target (.definition (.field id)) => (link.onField (.definition id)).mentions
  | .target (.declaration (.field id)) => (link.onField (.declared id)).mentions
  | .target (.definition (.method id)) => (link.onMethod (.definition id)).mentions
  | .target (.declaration (.method id)) => (link.onMethod (.declared id)).mentions
  | .target target => [.target target]
  | .ownerDefinition id => (link.onOwner (.method (.definition id))).mentions
  | .ownerDeclaration id => (link.onOwner (.method (.declared id))).mentions
  | .slot slot => (link.onOwner (.deferred slot)).mentions

/-- Whether two ways to relink agree on a mention. -/
def AgreesOn : Mention → Prop
  | .target target => link.AgreesAt link' target
  | .ownerDefinition id =>
    link.onOwner (.method (.definition id)) = link'.onOwner (.method (.definition id))
  | .ownerDeclaration id =>
    link.onOwner (.method (.declared id)) = link'.onOwner (.method (.declared id))
  | .slot slot => link.onOwner (.deferred slot) = link'.onOwner (.deferred slot)

/-- One way to relink after another, at every depth. -/
def andThenAll : Relink where
  onType ref := (link.onType ref).relinkAll link'
  onField ref := (link.onField ref).relinkAll link'
  onMethod ref := (link.onMethod ref).relinkAll link'
  onOwner owner := (link.onOwner owner).relinkAll link'

end Relink

/-! ## Where everything leads after relinking -/

section Images

variable {link : Relink}

mutual

theorem TypeRef.mentions_relinkAll (ref : TypeRef) :
    (ref.relinkAll link).mentions = ref.mentions.flatMap link.imageAll := by
  cases ref with
  | definition id | declared id => simp [TypeRef.relinkAll, TypeRef.mentions, Relink.imageAll]
  | external type => simp [TypeRef.relinkAll, TypeRef.mentions]
  | constructed signature =>
      simp [TypeRef.relinkAll, TypeRef.mentions, TypeSig.mentions_relinkAll signature]
termination_by structural ref

theorem MethodRef.mentions_relinkAll (ref : MethodRef) :
    (ref.relinkAll link).mentions = ref.mentions.flatMap link.imageAll := by
  cases ref with
  | definition id | declared id => simp [MethodRef.relinkAll, MethodRef.mentions, Relink.imageAll]
  | external owner name signature =>
      simp [MethodRef.relinkAll, MethodRef.mentions, TypeRef.mentions_relinkAll owner,
        MethodSig.mentions_relinkAll signature]
  | instantiated method args =>
      simp [MethodRef.relinkAll, MethodRef.mentions, MethodRef.mentions_relinkAll method,
        TypeSig.mentions_relinkAllList args]
termination_by structural ref

theorem VarOwner.mentions_relinkAll (owner : VarOwner) :
    (owner.relinkAll link).mentions = owner.mentions.flatMap link.imageAll := by
  cases owner with
  | unbound => simp [VarOwner.relinkAll, VarOwner.mentions]
  | deferred slot => simp [VarOwner.relinkAll, VarOwner.mentions, Relink.imageAll]
  | type owner => simp [VarOwner.relinkAll, VarOwner.mentions, TypeRef.mentions_relinkAll owner]
  | method owner =>
      cases owner with
      | definition id | declared id =>
          simp [VarOwner.relinkAll, VarOwner.mentions, Relink.imageAll]
      | external type name signature =>
          simp [VarOwner.relinkAll, VarOwner.mentions, TypeRef.mentions_relinkAll type,
            MethodSig.mentions_relinkAll signature]
      | instantiated method args =>
          simp [VarOwner.relinkAll, VarOwner.mentions, MethodRef.mentions_relinkAll method,
            TypeSig.mentions_relinkAllList args]
termination_by structural owner

theorem TypeSig.mentions_relinkAll (signature : TypeSig) :
    (signature.relinkAll link).mentions = signature.mentions.flatMap link.imageAll := by
  cases signature with
  | unknown => simp [TypeSig.relinkAll, TypeSig.mentions, Relink.imageAll]
  | sentinel | primitive => simp [TypeSig.relinkAll, TypeSig.mentions]
  | classType type | valueType type =>
      simp [TypeSig.relinkAll, TypeSig.mentions, TypeRef.mentions_relinkAll type]
  | genericVar kind index owner =>
      simp [TypeSig.relinkAll, TypeSig.mentions, VarOwner.mentions_relinkAll owner]
  | function signature =>
      simp [TypeSig.relinkAll, TypeSig.mentions, MethodSig.mentions_relinkAll signature]
  | applied generic args =>
      simp [TypeSig.relinkAll, TypeSig.mentions, TypeSig.mentions_relinkAll generic,
        TypeSig.mentions_relinkAllList args]
  | pointer inner | byRef inner | vector inner | pinned inner | array inner shape
  | inModule index inner =>
      simp [TypeSig.relinkAll, TypeSig.mentions, TypeSig.mentions_relinkAll inner]
  | required modifier inner | optional modifier inner =>
      simp [TypeSig.relinkAll, TypeSig.mentions, TypeRef.mentions_relinkAll modifier,
        TypeSig.mentions_relinkAll inner]
termination_by structural signature

theorem MethodSig.mentions_relinkAll (signature : MethodSig) :
    (signature.relinkAll link).mentions = signature.mentions.flatMap link.imageAll := by
  obtain ⟨callConv, genericCount, result, params, varargs⟩ := signature
  simp [MethodSig.relinkAll, MethodSig.mentions, TypeSig.mentions_relinkAll result,
    TypeSig.mentions_relinkAllList params, TypeSig.mentions_relinkAllList varargs]
termination_by structural signature

theorem TypeSig.mentions_relinkAllList (signatures : List TypeSig) :
    TypeSig.mentionsList (TypeSig.relinkAllList link signatures) =
      (TypeSig.mentionsList signatures).flatMap link.imageAll := by
  cases signatures with
  | nil => simp [TypeSig.relinkAllList, TypeSig.mentionsList]
  | cons signature rest =>
      simp [TypeSig.relinkAllList, TypeSig.mentionsList, TypeSig.mentions_relinkAll signature,
        TypeSig.mentions_relinkAllList rest]
termination_by structural signatures

end

end Images

/-! ## Agreement -/

section Agreement

variable {link link' : Relink}

mutual

theorem TypeRef.relinkAll_congr (ref : TypeRef)
    (h : ∀ mention ∈ ref.mentions, link.AgreesOn link' mention) :
    ref.relinkAll link = ref.relinkAll link' := by
  cases ref with
  | definition id | declared id =>
      simpa [TypeRef.relinkAll, TypeRef.mentions, Relink.AgreesOn, Relink.AgreesAt] using h
  | external type => simp [TypeRef.relinkAll]
  | constructed signature =>
      simp only [TypeRef.mentions] at h
      simp [TypeRef.relinkAll, TypeSig.relinkAll_congr signature h]
termination_by structural ref

theorem MethodRef.relinkAll_congr (ref : MethodRef)
    (h : ∀ mention ∈ ref.mentions, link.AgreesOn link' mention) :
    ref.relinkAll link = ref.relinkAll link' := by
  cases ref with
  | definition id | declared id =>
      simpa [MethodRef.relinkAll, MethodRef.mentions, Relink.AgreesOn, Relink.AgreesAt] using h
  | external owner name signature =>
      simp only [MethodRef.mentions, List.forall_mem_append] at h
      simp [MethodRef.relinkAll, TypeRef.relinkAll_congr owner h.1,
        MethodSig.relinkAll_congr signature h.2]
  | instantiated method args =>
      simp only [MethodRef.mentions, List.forall_mem_append] at h
      simp [MethodRef.relinkAll, MethodRef.relinkAll_congr method h.1,
        TypeSig.relinkAllList_congr args h.2]
termination_by structural ref

theorem VarOwner.relinkAll_congr (owner : VarOwner)
    (h : ∀ mention ∈ owner.mentions, link.AgreesOn link' mention) :
    owner.relinkAll link = owner.relinkAll link' := by
  cases owner with
  | unbound => simp [VarOwner.relinkAll]
  | deferred slot => simpa [VarOwner.relinkAll, VarOwner.mentions, Relink.AgreesOn] using h
  | type owner =>
      simp only [VarOwner.mentions] at h
      simp [VarOwner.relinkAll, TypeRef.relinkAll_congr owner h]
  | method owner =>
      cases owner with
      | definition id | declared id =>
          simpa [VarOwner.relinkAll, VarOwner.mentions, Relink.AgreesOn] using h
      | external type name signature =>
          simp only [VarOwner.mentions, List.forall_mem_append] at h
          simp [VarOwner.relinkAll, TypeRef.relinkAll_congr type h.1,
            MethodSig.relinkAll_congr signature h.2]
      | instantiated method args =>
          simp only [VarOwner.mentions, List.forall_mem_append] at h
          simp [VarOwner.relinkAll, MethodRef.relinkAll_congr method h.1,
            TypeSig.relinkAllList_congr args h.2]
termination_by structural owner

theorem TypeSig.relinkAll_congr (signature : TypeSig)
    (h : ∀ mention ∈ signature.mentions, link.AgreesOn link' mention) :
    signature.relinkAll link = signature.relinkAll link' := by
  cases signature with
  | unknown | sentinel | primitive => simp [TypeSig.relinkAll]
  | genericVar kind index owner =>
      simp only [TypeSig.mentions] at h
      simp [TypeSig.relinkAll, VarOwner.relinkAll_congr owner h]
  | classType type | valueType type =>
      simp only [TypeSig.mentions] at h
      simp [TypeSig.relinkAll, TypeRef.relinkAll_congr type h]
  | function signature =>
      simp only [TypeSig.mentions] at h
      simp [TypeSig.relinkAll, MethodSig.relinkAll_congr signature h]
  | applied generic args =>
      simp only [TypeSig.mentions, List.forall_mem_append] at h
      simp [TypeSig.relinkAll, TypeSig.relinkAll_congr generic h.1,
        TypeSig.relinkAllList_congr args h.2]
  | pointer inner | byRef inner | vector inner | pinned inner | array inner shape
  | inModule index inner =>
      simp only [TypeSig.mentions] at h
      simp [TypeSig.relinkAll, TypeSig.relinkAll_congr inner h]
  | required modifier inner | optional modifier inner =>
      simp only [TypeSig.mentions, List.forall_mem_append] at h
      simp [TypeSig.relinkAll, TypeRef.relinkAll_congr modifier h.1,
        TypeSig.relinkAll_congr inner h.2]
termination_by structural signature

theorem MethodSig.relinkAll_congr (signature : MethodSig)
    (h : ∀ mention ∈ signature.mentions, link.AgreesOn link' mention) :
    signature.relinkAll link = signature.relinkAll link' := by
  obtain ⟨callConv, genericCount, result, params, varargs⟩ := signature
  simp only [MethodSig.mentions, List.forall_mem_append] at h
  simp [MethodSig.relinkAll, TypeSig.relinkAll_congr result h.1,
    TypeSig.relinkAllList_congr params h.2.1, TypeSig.relinkAllList_congr varargs h.2.2]
termination_by structural signature

theorem TypeSig.relinkAllList_congr (signatures : List TypeSig)
    (h : ∀ mention ∈ TypeSig.mentionsList signatures, link.AgreesOn link' mention) :
    TypeSig.relinkAllList link signatures = TypeSig.relinkAllList link' signatures := by
  cases signatures with
  | nil => simp [TypeSig.relinkAllList]
  | cons signature rest =>
      simp only [TypeSig.mentionsList, List.forall_mem_append] at h
      simp [TypeSig.relinkAllList, TypeSig.relinkAll_congr signature h.1,
        TypeSig.relinkAllList_congr rest h.2]
termination_by structural signatures

end

end Agreement

/-! ## Relinking twice -/

section Twice

variable {link link' : Relink}

mutual

theorem TypeRef.relinkAll_relinkAll (ref : TypeRef) :
    (ref.relinkAll link).relinkAll link' = ref.relinkAll (link.andThenAll link') := by
  cases ref with
  | definition id | declared id => simp [TypeRef.relinkAll, Relink.andThenAll]
  | external type => simp [TypeRef.relinkAll]
  | constructed signature => simp [TypeRef.relinkAll, TypeSig.relinkAll_relinkAll signature]
termination_by structural ref

theorem MethodRef.relinkAll_relinkAll (ref : MethodRef) :
    (ref.relinkAll link).relinkAll link' = ref.relinkAll (link.andThenAll link') := by
  cases ref with
  | definition id | declared id => simp [MethodRef.relinkAll, Relink.andThenAll]
  | external owner name signature =>
      simp [MethodRef.relinkAll, TypeRef.relinkAll_relinkAll owner,
        MethodSig.relinkAll_relinkAll signature]
  | instantiated method args =>
      simp [MethodRef.relinkAll, MethodRef.relinkAll_relinkAll method,
        TypeSig.relinkAllList_relinkAllList args]
termination_by structural ref

theorem VarOwner.relinkAll_relinkAll (owner : VarOwner) :
    (owner.relinkAll link).relinkAll link' = owner.relinkAll (link.andThenAll link') := by
  cases owner with
  | unbound => simp [VarOwner.relinkAll]
  | deferred slot => simp [VarOwner.relinkAll, Relink.andThenAll]
  | type owner => simp [VarOwner.relinkAll, TypeRef.relinkAll_relinkAll owner]
  | method owner =>
      cases owner with
      | definition id | declared id => simp [VarOwner.relinkAll, Relink.andThenAll]
      | external type name signature =>
          simp [VarOwner.relinkAll, TypeRef.relinkAll_relinkAll type,
            MethodSig.relinkAll_relinkAll signature]
      | instantiated method args =>
          simp [VarOwner.relinkAll, MethodRef.relinkAll_relinkAll method,
            TypeSig.relinkAllList_relinkAllList args]
termination_by structural owner

theorem TypeSig.relinkAll_relinkAll (signature : TypeSig) :
    (signature.relinkAll link).relinkAll link' = signature.relinkAll (link.andThenAll link') := by
  cases signature with
  | unknown | sentinel | primitive => simp [TypeSig.relinkAll]
  | genericVar kind index owner => simp [TypeSig.relinkAll, VarOwner.relinkAll_relinkAll owner]
  | classType type | valueType type => simp [TypeSig.relinkAll, TypeRef.relinkAll_relinkAll type]
  | function signature => simp [TypeSig.relinkAll, MethodSig.relinkAll_relinkAll signature]
  | applied generic args =>
      simp [TypeSig.relinkAll, TypeSig.relinkAll_relinkAll generic,
        TypeSig.relinkAllList_relinkAllList args]
  | pointer inner | byRef inner | vector inner | pinned inner | array inner shape
  | inModule index inner => simp [TypeSig.relinkAll, TypeSig.relinkAll_relinkAll inner]
  | required modifier inner | optional modifier inner =>
      simp [TypeSig.relinkAll, TypeRef.relinkAll_relinkAll modifier,
        TypeSig.relinkAll_relinkAll inner]
termination_by structural signature

theorem MethodSig.relinkAll_relinkAll (signature : MethodSig) :
    (signature.relinkAll link).relinkAll link' = signature.relinkAll (link.andThenAll link') := by
  obtain ⟨callConv, genericCount, result, params, varargs⟩ := signature
  simp [MethodSig.relinkAll, TypeSig.relinkAll_relinkAll result,
    TypeSig.relinkAllList_relinkAllList params, TypeSig.relinkAllList_relinkAllList varargs]
termination_by structural signature

theorem TypeSig.relinkAllList_relinkAllList (signatures : List TypeSig) :
    TypeSig.relinkAllList link' (TypeSig.relinkAllList link signatures) =
      TypeSig.relinkAllList (link.andThenAll link') signatures := by
  cases signatures with
  | nil => simp [TypeSig.relinkAllList]
  | cons signature rest =>
      simp [TypeSig.relinkAllList, TypeSig.relinkAll_relinkAll signature,
        TypeSig.relinkAllList_relinkAllList rest]
termination_by structural signatures

end

end Twice

/-- What all that can be relinked at every depth has in common. -/
structure RelinksAll {α : Type} (mentions : α → List Mention) (relinkAll : Relink → α → α) :
    Prop where
  mentions_relinkAll : ∀ {link : Relink} (value : α),
    mentions (relinkAll link value) = (mentions value).flatMap link.imageAll
  relinkAll_congr : ∀ {link link' : Relink} (value : α),
    (∀ mention ∈ mentions value, link.AgreesOn link' mention) →
      relinkAll link value = relinkAll link' value
  relinkAll_relinkAll : ∀ {link link' : Relink} (value : α),
    relinkAll link' (relinkAll link value) = relinkAll (link.andThenAll link') value

theorem TypeSig.relinksAll : RelinksAll TypeSig.mentions TypeSig.relinkAll :=
  ⟨mentions_relinkAll, relinkAll_congr, relinkAll_relinkAll⟩

theorem MethodSig.relinksAll : RelinksAll MethodSig.mentions MethodSig.relinkAll :=
  ⟨mentions_relinkAll, relinkAll_congr, relinkAll_relinkAll⟩

end Graft
