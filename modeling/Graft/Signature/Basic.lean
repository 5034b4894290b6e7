import Graft.Symbol
import Graft.Text.QualifiedName

/-!
# References and signatures

References to types, fields and methods, and the signatures built from them. A reference to a
definition or a declaration holds its identity; an external reference holds names, since its
target belongs to a module that is not loaded.
-/

namespace Graft

/-- The built-in types. -/
inductive Primitive where
  | void | boolean | char | int8 | uint8 | int16 | uint16 | int32 | uint32 | int64 | uint64
  | float32 | float64 | string | typedRef | nativeInt | nativeUInt | object
  deriving DecidableEq, Repr, Inhabited

namespace Primitive

/-- The name of a built-in type in signatures. -/
def name : Primitive → String
  | void => "void"
  | boolean => "bool"
  | char => "char"
  | int8 => "int8"
  | uint8 => "uint8"
  | int16 => "int16"
  | uint16 => "uint16"
  | int32 => "int32"
  | uint32 => "uint32"
  | int64 => "int64"
  | uint64 => "uint64"
  | float32 => "float32"
  | float64 => "float64"
  | string => "string"
  | typedRef => "typedref"
  | nativeInt => "native int"
  | nativeUInt => "native uint"
  | object => "object"

/-- The short name of a built-in type: its family and its size in bytes. -/
def shortName : Primitive → String
  | void => "Void"
  | boolean => "Boolean"
  | char => "Char"
  | int8 => "I1"
  | uint8 => "U1"
  | int16 => "I2"
  | uint16 => "U2"
  | int32 => "I4"
  | uint32 => "U4"
  | int64 => "I8"
  | uint64 => "U8"
  | float32 => "R4"
  | float64 => "R8"
  | string => "String"
  | typedRef => "TypedByRef"
  | nativeInt => "I"
  | nativeUInt => "U"
  | object => "Object"

/-- Every built-in type. -/
def all : List Primitive :=
  [void, boolean, char, int8, uint8, int16, uint16, int32, uint32, int64, uint64, float32, float64,
   string, typedRef, nativeInt, nativeUInt, object]

/-- The element type byte that stands for a built-in type in a signature blob. -/
def elementType : Primitive → UInt8
  | void => 0x01
  | boolean => 0x02
  | char => 0x03
  | int8 => 0x04
  | uint8 => 0x05
  | int16 => 0x06
  | uint16 => 0x07
  | int32 => 0x08
  | uint32 => 0x09
  | int64 => 0x0A
  | uint64 => 0x0B
  | float32 => 0x0C
  | float64 => 0x0D
  | string => 0x0E
  | typedRef => 0x16
  | nativeInt => 0x18
  | nativeUInt => 0x19
  | object => 0x1C

end Primitive

/-- A type of a module that is not loaded. A nested type belongs to the scope of the type around
it and has no namespace of its own. -/
inductive ExternalType where
  | topLevel (scope namespaceName name : String)
  | nested (outer : ExternalType) (name : String)
  deriving DecidableEq, Repr, Inhabited

/-- The full name of an external type, without its scope. -/
def ExternalType.fullName : ExternalType → String
  | .topLevel _ namespaceName name => Text.qualify namespaceName name
  | .nested outer name => outer.fullName ++ "/" ++ name

/-- The shape of a general array: its rank, and the sizes and lower bounds of its leading
dimensions. -/
structure ArrayShape where
  rank : UInt32
  sizes : List UInt32
  lowerBounds : List Int32
  deriving DecidableEq, Inhabited

/-- Whether a generic variable belongs to a type or to a method. -/
inductive VarKind where
  | type | method
  deriving DecidableEq, Repr, Inhabited

mutual

/-- A reference to a type. -/
inductive TypeRef where
  /-- A definition of a loaded module. -/
  | definition (id : DefId .type)
  /-- A type of a module that is not loaded. -/
  | external (type : ExternalType)
  /-- Whatever a declaration turns out to stand for. -/
  | declared (id : DeclId .type)
  /-- A type built by a signature. -/
  | constructed (signature : TypeSig)

/-- A reference to a method. -/
inductive MethodRef where
  | definition (id : DefId .method)
  | external (owner : TypeRef) (name : String) (signature : MethodSig)
  | declared (id : DeclId .method)
  /-- A generic method at type arguments. -/
  | instantiated (method : MethodRef) (args : List TypeSig)

/-- What a generic variable belongs to, as far as it is known. -/
inductive VarOwner where
  | unbound
  | type (owner : TypeRef)
  | method (owner : MethodRef)
  /-- A method that is put into the slot once it is known. -/
  | deferred (slot : SlotId)

/-- The signature of a type. -/
inductive TypeSig where
  /-- A signature of unknown shape, equal to no signature. -/
  | unknown
  /-- The mark between the fixed and the variable arguments of a call. -/
  | sentinel
  | primitive (type : Primitive)
  | classType (type : TypeRef)
  | valueType (type : TypeRef)
  | genericVar (kind : VarKind) (index : UInt32) (owner : VarOwner)
  | function (signature : MethodSig)
  /-- A generic type at type arguments. -/
  | applied (generic : TypeSig) (args : List TypeSig)
  | pointer (inner : TypeSig)
  | byRef (inner : TypeSig)
  /-- An array of one dimension that starts at zero. -/
  | vector (inner : TypeSig)
  | pinned (inner : TypeSig)
  | array (inner : TypeSig) (shape : ArrayShape)
  /-- A type with a modifier that callers have to understand. -/
  | required (modifier : TypeRef) (inner : TypeSig)
  /-- A type with a modifier that callers may ignore. -/
  | optional (modifier : TypeRef) (inner : TypeSig)
  | inModule (index : UInt32) (inner : TypeSig)

/-- The signature of a method. -/
structure MethodSig where
  callConv : UInt8
  genericCount : UInt32
  result : TypeSig
  params : List TypeSig
  /-- The parameters after the sentinel. -/
  varargs : List TypeSig

end

instance : Inhabited TypeSig := ⟨.unknown⟩

instance : Inhabited TypeRef := ⟨.constructed .unknown⟩

instance : Inhabited MethodSig := ⟨⟨0, 0, .primitive .void, [], []⟩⟩

/-- A reference to a field. -/
inductive FieldRef where
  | definition (id : DefId .field)
  | external (owner : TypeRef) (name : String) (signature : TypeSig)
  | declared (id : DeclId .field)

/-- The signature of a property. -/
structure PropertySig where
  hasThis : Bool
  type : TypeSig
  params : List TypeSig
  deriving Inhabited

/-- A generic parameter of a type. -/
structure GenericParam where
  number : UInt16
  flags : UInt32
  name : String
  constraints : List TypeRef
  deriving Inhabited

/-- The statement that a method implements another one. -/
structure Override where
  body : MethodRef
  declaration : MethodRef

namespace TypeSig

/-- The signature inside a signature that wraps exactly one. -/
def inner? : TypeSig → Option TypeSig
  | pointer inner | byRef inner | vector inner | pinned inner => some inner
  | array inner _ | required _ inner | optional _ inner | inModule _ inner => some inner
  | unknown | sentinel | primitive _ | classType _ | valueType _ | genericVar .. | function _
  | applied .. => none

/-- Whether a signature wraps no other. -/
def isLeaf (signature : TypeSig) : Bool :=
  signature.inner?.isNone

end TypeSig

namespace MethodSig

/-- The bit of the calling convention that says the method is called on an instance. -/
def hasThisBit : UInt8 := 0x20

/-- The bit of the calling convention that says the method is generic. -/
def genericBit : UInt8 := 0x10

/-- Whether the method is called on an instance. -/
def hasThis (signature : MethodSig) : Bool :=
  signature.callConv &&& hasThisBit = hasThisBit

/-- The signature made generic in `count` parameters. -/
def withGenericParams (signature : MethodSig) (count : UInt32) : MethodSig :=
  { signature with callConv := signature.callConv ||| genericBit, genericCount := count }

end MethodSig

end Graft
