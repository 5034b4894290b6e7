import Graft.Access
import Graft.Text.Hex

/-!
# Flags

Every symbol carries 32 bits of flags. What the bits mean depends on the kind of symbol and is
written down once per kind in a `FlagScheme`: the named bits in the order in which a description
lists them, the bits that hold the access level, and the bits that describe data stored beside the
symbol and therefore stay with the symbol.
-/

namespace Graft

/-- The meaning of the flags of one kind of symbol. -/
structure FlagScheme where
  /-- The name under which a description shows the flags. -/
  title : String
  /-- The named bit patterns, in the order of a description. -/
  named : List (String × UInt32)
  /-- The bits that hold the access level. -/
  accessMask : UInt32
  /-- The bits that a declaration never changes. -/
  preserved : UInt32
  /-- The access level of flags, for a symbol that is or is not nested in a type. -/
  level : Bool → UInt32 → AccessLevel

namespace FlagScheme

/-- Flags of types. -/
def type : FlagScheme where
  title := "TypeAttributes"
  named :=
    [("VISIBILITY_MASK", 0x7), ("NOT_PUBLIC", 0x0), ("PUBLIC", 0x1), ("NESTED_PUBLIC", 0x2),
     ("NESTED_PRIVATE", 0x3), ("NESTED_FAMILY", 0x4), ("NESTED_ASSEMBLY", 0x5),
     ("NESTED_FAM_AND_ASSEM", 0x6), ("NESTED_FAM_OR_ASSEM", 0x7), ("SEQUENTIAL_LAYOUT", 0x8),
     ("EXPLICIT_LAYOUT", 0x10), ("INTERFACE", 0x20), ("ABSTRACT", 0x80), ("SEALED", 0x100),
     ("SPECIAL_NAME", 0x400), ("RT_SPECIAL_NAME", 0x800), ("IMPORT", 0x1000),
     ("SERIALIZABLE", 0x2000), ("HAS_SECURITY", 0x40000), ("BEFORE_FIELD_INIT", 0x100000)]
  accessMask := 0x7
  preserved := 0x800 ||| 0x40000
  level := AccessLevel.ofTypeBits

/-- Flags of fields. -/
def field : FlagScheme where
  title := "FieldAttributes"
  named :=
    [("FIELD_ACCESS_MASK", 0x7), ("COMPILER_CONTROLLED", 0x0), ("PRIVATE", 0x1),
     ("FAM_AND_ASSEM", 0x2), ("ASSEMBLY", 0x3), ("FAMILY", 0x4), ("FAM_OR_ASSEM", 0x5),
     ("PUBLIC", 0x6), ("STATIC", 0x10), ("INIT_ONLY", 0x20), ("LITERAL", 0x40),
     ("NOT_SERIALIZED", 0x80), ("HAS_FIELD_RVA", 0x100), ("SPECIAL_NAME", 0x200),
     ("RT_SPECIAL_NAME", 0x400), ("HAS_FIELD_MARSHAL", 0x1000), ("PINVOKE_IMPL", 0x2000),
     ("HAS_DEFAULT", 0x8000)]
  accessMask := 0x7
  preserved := 0x100 ||| 0x400 ||| 0x1000 ||| 0x8000
  level := fun _ => AccessLevel.ofMemberBits

/-- Flags of methods. -/
def method : FlagScheme where
  title := "MethodAttributes"
  named :=
    [("MEMBER_ACCESS_MASK", 0x7), ("COMPILER_CONTROLLED", 0x0), ("PRIVATE", 0x1),
     ("FAM_AND_ASSEM", 0x2), ("ASSEMBLY", 0x3), ("FAMILY", 0x4), ("FAM_OR_ASSEM", 0x5),
     ("PUBLIC", 0x6), ("UNMANAGED_EXPORT", 0x8), ("STATIC", 0x10), ("FINAL", 0x20),
     ("VIRTUAL", 0x40), ("HIDE_BY_SIG", 0x80), ("NEW_SLOT", 0x100), ("STRICT", 0x200),
     ("ABSTRACT", 0x400), ("SPECIAL_NAME", 0x800), ("RT_SPECIAL_NAME", 0x1000),
     ("PINVOKE_IMPL", 0x2000), ("HAS_SECURITY", 0x4000), ("REQUIRE_SEC_OBJECT", 0x8000)]
  accessMask := 0x7
  preserved := 0x1000 ||| 0x4000 ||| 0x8000
  level := fun _ => AccessLevel.ofMemberBits

/-- Flags of properties, which have no access level of their own. -/
def property : FlagScheme where
  title := "PropertyAttributes"
  named := [("SPECIAL_NAME", 0x200), ("RT_SPECIAL_NAME", 0x400), ("HAS_DEFAULT", 0x1000)]
  accessMask := 0
  preserved := 0x400 ||| 0x1000
  level := fun _ _ => .everywhere

/-- Flags of events, which have no access level of their own. -/
def event : FlagScheme where
  title := "EventAttributes"
  named := [("SPECIAL_NAME", 0x200), ("RT_SPECIAL_NAME", 0x400)]
  accessMask := 0
  preserved := 0x400
  level := fun _ _ => .everywhere

/-- The names that describe `whole`, given that the bits in `left` are not accounted for yet, and
the bits that no name accounts for. A name applies when all its bits are set and at least one of
them is still unaccounted for. -/
def nameBits (whole : UInt32) : List (String × UInt32) → UInt32 → List String × UInt32
  | [], left => ([], left)
  | (name, bits) :: rest, left =>
    if bits ≠ 0 ∧ whole &&& bits = bits ∧ left &&& bits ≠ 0 then
      let (names, unnamed) := nameBits whole rest (left &&& ~~~ bits)
      (name :: names, unnamed)
    else nameBits whole rest left

/-- Flags as text: the names that apply, then the bits without a name. -/
def describe (scheme : FlagScheme) (bits : UInt32) : String :=
  let (names, unnamed) := nameBits bits scheme.named bits
  let parts :=
    if bits = 0 then ["0x0"]
    else if unnamed = 0 then names
    else names ++ ["0x" ++ Text.hex 1 unnamed.toNat]
  scheme.title ++ "(" ++ " | ".intercalate parts ++ ")"

end FlagScheme

/-! ## Flag values

The values that definitions are made with and asked about. -/

namespace Flags

/-- A nested type visible inside its declaring type only. -/
def nestedPrivate : UInt32 := 0x3

/-- A member visible inside its declaring type only. -/
def privateMember : UInt32 := 0x1

/-- A method that belongs to its type and not to an instance. -/
def static : UInt32 := 0x10

/-- A method that hides inherited methods by signature and not by name alone. -/
def hideBySig : UInt32 := 0x80

/-- A top-level type visible everywhere. -/
def publicType : UInt32 := 0x1

end Flags

end Graft
