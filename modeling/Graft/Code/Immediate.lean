import Graft.Text.Hex

/-!
# Immediate values

Numbers that stand in the code itself. A floating-point number is kept as its bits; two of them
are equal as numbers are, so a value that is not a number equals nothing and both zeros are equal.
-/

namespace Graft

/-- A number in the code. -/
inductive Immediate where
  | int8 (value : Int8)
  | uint8 (value : UInt8)
  | int16 (value : Int16)
  | uint16 (value : UInt16)
  | int32 (value : Int32)
  | uint32 (value : UInt32)
  | int64 (value : Int64)
  | uint64 (value : UInt64)
  | float32 (bits : UInt32)
  | float64 (bits : UInt64)
  deriving DecidableEq, Inhabited

namespace Immediate

/-- Equality of binary floating-point numbers given as bits with `fraction` fraction bits and
`exponent` exponent bits. -/
def sameFloat (fraction exponent : Nat) (left right : Nat) : Bool :=
  let magnitude (bits : Nat) := bits % (1 <<< (fraction + exponent))
  let infinity := ((1 <<< exponent) - 1) <<< fraction
  magnitude left ≤ infinity && magnitude right ≤ infinity
    && (left == right || (magnitude left == 0 && magnitude right == 0))

/-- Equality as numbers of one kind. -/
def same : Immediate → Immediate → Bool
  | float32 left, float32 right => sameFloat 23 8 left.toNat right.toNat
  | float64 left, float64 right => sameFloat 52 11 left.toNat right.toNat
  | left, right => left == right

/-- The number of bytes and the bits of a value. -/
def encoding : Immediate → Nat × Nat
  | int8 value => (1, value.toUInt8.toNat)
  | uint8 value => (1, value.toNat)
  | int16 value => (2, value.toUInt16.toNat)
  | uint16 value => (2, value.toNat)
  | int32 value => (4, value.toUInt32.toNat)
  | uint32 value => (4, value.toNat)
  | int64 value => (8, value.toUInt64.toNat)
  | uint64 value => (8, value.toNat)
  | float32 bits => (4, bits.toNat)
  | float64 bits => (8, bits.toNat)

/-- The bits of a value in upper-case hexadecimal, two digits a byte. -/
def hex (value : Immediate) : String :=
  Text.upperHex (2 * value.encoding.1) value.encoding.2

/-- The value as 64 bits: signed numbers keep their sign, floating-point numbers their bits. -/
def toUInt64 : Immediate → UInt64
  | int8 value => value.toInt64.toUInt64
  | uint8 value => value.toUInt64
  | int16 value => value.toInt64.toUInt64
  | uint16 value => value.toUInt64
  | int32 value => value.toInt64.toUInt64
  | uint32 value => value.toUInt64
  | int64 value => value.toUInt64
  | uint64 value => value
  | float32 bits => bits.toUInt64
  | float64 bits => bits

end Immediate

end Graft
