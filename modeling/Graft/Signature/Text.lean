import Graft.Signature.Basic

/-!
# The text of signatures

How references and signatures read in names and messages. Generic variables show their index and
never their owner, so the text of a type signature depends on the names of types alone; a
`TypeNames` supplies them.
-/

namespace Graft

/-- The full names of the types that exist; a type that is gone has none. -/
structure TypeNames where
  definition : DefId .type → Option String
  declaration : DeclId .type → Option String

/-- What stands for the name of a reference whose target is gone. -/
def goneName : String := "<dropped>"

/-- The items separated by commas. -/
def commaSeparated (items : List String) : String :=
  ", ".intercalate items

/-- The text of the variable parameters, set off from the fixed ones by a sentinel. -/
def varargsText (varargs : List String) : String :=
  if varargs.isEmpty then "" else ", ..., " ++ commaSeparated varargs

/-- The number of generic parameters in angle brackets, or nothing if there are none. -/
def genericCountText (count : UInt32) : String :=
  if count = 0 then "" else "<" ++ toString count.toNat ++ ">"

mutual

/-- The full name of a referenced type. -/
def TypeRef.fullName (names : TypeNames) : TypeRef → String
  | .definition id => (names.definition id).getD goneName
  | .external type => type.fullName
  | .declared id => (names.declaration id).getD goneName
  | .constructed signature => signature.text names
termination_by structural ref => ref

/-- The text of a type signature. -/
def TypeSig.text (names : TypeNames) : TypeSig → String
  | .unknown => "<unknown>"
  | .sentinel => "..."
  | .primitive type => type.name
  | .classType type => "class " ++ type.fullName names
  | .valueType type => "valuetype " ++ type.fullName names
  | .genericVar .type index _ => "!" ++ toString index.toNat
  | .genericVar .method index _ => "!!" ++ toString index.toNat
  | .function signature => "method " ++ signature.text names
  | .applied generic args =>
    generic.text names ++ "<" ++ commaSeparated (TypeSig.textList names args) ++ ">"
  | .pointer inner => inner.text names ++ "*"
  | .byRef inner => inner.text names ++ "&"
  | .vector inner => inner.text names ++ "[]"
  | .pinned inner => inner.text names ++ " pinned"
  | .array inner shape =>
    inner.text names ++ "[" ++ String.ofList (List.replicate (shape.rank.toNat - 1) ',') ++ "]"
  | .required modifier inner =>
    inner.text names ++ " modreq(" ++ modifier.fullName names ++ ")"
  | .optional modifier inner =>
    inner.text names ++ " modopt(" ++ modifier.fullName names ++ ")"
  | .inModule index inner => "[" ++ toString index.toNat ++ "]" ++ inner.text names
termination_by structural signature => signature

/-- The text of a method signature without a method name. -/
def MethodSig.text (names : TypeNames) : MethodSig → String
  | ⟨callConv, genericCount, result, params, varargs⟩ =>
    (if callConv &&& MethodSig.hasThisBit = MethodSig.hasThisBit then "instance " else "")
      ++ result.text names ++ genericCountText genericCount
      ++ "(" ++ commaSeparated (TypeSig.textList names params)
      ++ varargsText (TypeSig.textList names varargs) ++ ")"
termination_by structural signature => signature

/-- The texts of a list of type signatures. -/
def TypeSig.textList (names : TypeNames) : List TypeSig → List String
  | [] => []
  | signature :: rest => signature.text names :: TypeSig.textList names rest
termination_by structural signatures => signatures

end

/-- The full name of a method with this signature: result type, declaring type, name, number of
generic parameters and parameter types. -/
def MethodSig.memberText (names : TypeNames) (signature : MethodSig) (owner name : String) :
    String :=
  signature.result.text names ++ " " ++ owner ++ "::" ++ name
    ++ genericCountText signature.genericCount
    ++ "(" ++ commaSeparated (TypeSig.textList names signature.params)
    ++ varargsText (TypeSig.textList names signature.varargs) ++ ")"

/-- The text of a property signature. -/
def PropertySig.text (names : TypeNames) (signature : PropertySig) : String :=
  (if signature.hasThis then "instance " else "") ++ signature.type.text names
    ++ (if signature.params.isEmpty then ""
        else "[" ++ commaSeparated (TypeSig.textList names signature.params) ++ "]")

end Graft
