import Graft.Signature.Text

/-!
# Comparing signatures

Equality of references and signatures under options. Strictly, two references are equal when they
name the same object; with the scope ignored, when they have the same full name. Modifiers may be
ignored at every depth, and result types of methods may be left out. Generic variables are equal
by kind and index whoever owns them, and a signature of unknown shape is equal to none.
-/

namespace Graft

/-- What a comparison disregards, as a word of bits. Bits without a meaning are kept. -/
structure Comparison where
  bits : UInt32 := 0
  deriving DecidableEq, Repr, Inhabited

namespace Comparison

/-- Types are equal by full name, whatever module they belong to. -/
def ignoreScope (options : Comparison) : Bool :=
  options.bits &&& 1 ≠ 0

/-- Required and optional modifiers do not count. -/
def ignoreModifiers (options : Comparison) : Bool :=
  options.bits &&& 2 ≠ 0

/-- Result types of methods do not count. -/
def ignoreResult (options : Comparison) : Bool :=
  options.bits &&& 4 ≠ 0

/-- Methods that are out of reach by name are looked at all the same. -/
def compilerControlled (options : Comparison) : Bool :=
  options.bits &&& 8 ≠ 0

/-- Everything counts. -/
def strict : Comparison := {}

/-- Signatures as declarations give them: the module of a type does not count. -/
def declared : Comparison := ⟨1⟩

/-- Signatures as overloads are told apart: by calling convention, generic arity and parameters. -/
def overload : Comparison := ⟨15⟩

@[simp] theorem ignoreScope_strict : strict.ignoreScope = false := rfl
@[simp] theorem ignoreModifiers_strict : strict.ignoreModifiers = false := rfl
@[simp] theorem ignoreResult_strict : strict.ignoreResult = false := rfl
@[simp] theorem compilerControlled_strict : strict.compilerControlled = false := rfl

@[simp] theorem ignoreScope_declared : declared.ignoreScope = true := rfl
@[simp] theorem ignoreModifiers_declared : declared.ignoreModifiers = false := rfl
@[simp] theorem ignoreResult_declared : declared.ignoreResult = false := rfl
@[simp] theorem compilerControlled_declared : declared.compilerControlled = false := rfl

@[simp] theorem ignoreScope_overload : overload.ignoreScope = true := rfl
@[simp] theorem ignoreModifiers_overload : overload.ignoreModifiers = true := rfl
@[simp] theorem ignoreResult_overload : overload.ignoreResult = true := rfl
@[simp] theorem compilerControlled_overload : overload.compilerControlled = true := rfl

/-- Whether a method with these flags takes part in the comparison at all. -/
def admits (options : Comparison) (methodFlags : UInt32) : Bool :=
  options.compilerControlled || methodFlags &&& 7 ≠ 0

end Comparison

/-- The signature under the modifiers that the comparison ignores. -/
def TypeSig.bare (options : Comparison) : TypeSig → TypeSig
  | .required modifier inner =>
    if options.ignoreModifiers then inner.bare options else .required modifier inner
  | .optional modifier inner =>
    if options.ignoreModifiers then inner.bare options else .optional modifier inner
  | signature => signature
termination_by structural signature => signature

/-- Whether a reference is built by a signature. -/
def TypeRef.isConstructed : TypeRef → Bool
  | .constructed _ => true
  | _ => false

section Same

variable (names : TypeNames) (options : Comparison)

/-- Equality of two references that are not both built by a signature: by full name when the
scope is ignored, else by what they name. -/
def TypeRef.namesSame (left right : TypeRef) : Bool :=
  if options.ignoreScope then
    !left.isConstructed && !right.isConstructed && left.fullName names == right.fullName names
  else
    match left, right with
    | .definition left, .definition right => left == right
    | .declared left, .declared right => left == right
    | .external left, .external right => left == right
    | _, _ => false

mutual

/-- Equality of type references. -/
def TypeRef.same : TypeRef → TypeRef → Bool
  | .constructed left, right =>
    match right with
    | .constructed right => left.same right
    | _ => false
  | .definition left, right => TypeRef.namesSame names options (.definition left) right
  | .external left, right => TypeRef.namesSame names options (.external left) right
  | .declared left, right => TypeRef.namesSame names options (.declared left) right
termination_by structural left => left

/-- Equality of type signatures. -/
def TypeSig.same : TypeSig → TypeSig → Bool
  | .unknown, _ => false
  | .sentinel, right =>
    match right.bare options with
    | .sentinel => true
    | _ => false
  | .primitive left, right =>
    match right.bare options with
    | .primitive right => left == right
    | _ => false
  | .classType left, right =>
    match right.bare options with
    | .classType right => left.same right
    | _ => false
  | .valueType left, right =>
    match right.bare options with
    | .valueType right => left.same right
    | _ => false
  | .genericVar leftKind leftIndex _, right =>
    match right.bare options with
    | .genericVar rightKind rightIndex _ => leftKind == rightKind && leftIndex == rightIndex
    | _ => false
  | .function left, right =>
    match right.bare options with
    | .function right => left.same right
    | _ => false
  | .applied leftGeneric leftArgs, right =>
    match right.bare options with
    | .applied rightGeneric rightArgs =>
      leftGeneric.same rightGeneric && TypeSig.sameList leftArgs rightArgs
    | _ => false
  | .pointer left, right =>
    match right.bare options with
    | .pointer right => left.same right
    | _ => false
  | .byRef left, right =>
    match right.bare options with
    | .byRef right => left.same right
    | _ => false
  | .vector left, right =>
    match right.bare options with
    | .vector right => left.same right
    | _ => false
  | .pinned left, right =>
    match right.bare options with
    | .pinned right => left.same right
    | _ => false
  | .array left leftShape, right =>
    match right.bare options with
    | .array right rightShape => leftShape == rightShape && left.same right
    | _ => false
  | .required leftModifier left, right =>
    if options.ignoreModifiers then left.same right
    else
      match right with
      | .required rightModifier right => leftModifier.same rightModifier && left.same right
      | _ => false
  | .optional leftModifier left, right =>
    if options.ignoreModifiers then left.same right
    else
      match right with
      | .optional rightModifier right => leftModifier.same rightModifier && left.same right
      | _ => false
  | .inModule leftIndex left, right =>
    match right.bare options with
    | .inModule rightIndex right => leftIndex == rightIndex && left.same right
    | _ => false
termination_by structural left => left

/-- Equality of method signatures. -/
def MethodSig.same : MethodSig → MethodSig → Bool
  | ⟨callConv, genericCount, result, params, varargs⟩, right =>
    callConv == right.callConv && genericCount == right.genericCount
      && (options.ignoreResult || result.same right.result)
      && TypeSig.sameList params right.params
      && TypeSig.sameList varargs right.varargs
termination_by structural left => left

/-- Equality of lists of type signatures: the same number, pairwise equal. -/
def TypeSig.sameList : List TypeSig → List TypeSig → Bool
  | [], [] => true
  | left :: lefts, right :: rights => left.same right && TypeSig.sameList lefts rights
  | _, _ => false
termination_by structural lefts => lefts

end

/-- Equality of property signatures. -/
def PropertySig.same (left right : PropertySig) : Bool :=
  left.hasThis == right.hasThis && left.type.same names options right.type
    && TypeSig.sameList names options left.params right.params

/-- Equality of field references. -/
def FieldRef.same : FieldRef → FieldRef → Bool
  | .definition left, .definition right => left == right
  | .declared left, .declared right => left == right
  | .external leftOwner leftName left, .external rightOwner rightName right =>
    leftName == rightName && leftOwner.same names options rightOwner
      && left.same names options right
  | _, _ => false

/-- Equality of method references. -/
def MethodRef.same : MethodRef → MethodRef → Bool
  | .definition left, .definition right => left == right
  | .declared left, .declared right => left == right
  | .external leftOwner leftName left, .external rightOwner rightName right =>
    leftName == rightName && leftOwner.same names options rightOwner
      && left.same names options right
  | .instantiated left leftArgs, .instantiated right rightArgs =>
    left.same right && TypeSig.sameList names options leftArgs rightArgs
  | _, _ => false
termination_by structural left => left

end Same

end Graft
