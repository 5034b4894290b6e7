/-!
# Hexadecimal text

Numbers written in base sixteen, padded with zeros to a fixed width. A number that needs more
digits than the width is written in full, so no digit is ever lost.
-/

namespace Graft.Text

/-- The lower-case digits of `n` in base sixteen, padded with zeros to at least `width`. -/
def hexDigits (width n : Nat) : List Char :=
  (Nat.toDigits 16 n).leftpad width '0'

/-- `n` in lower-case hexadecimal, at least `width` digits wide. -/
def hex (width n : Nat) : String :=
  String.ofList (hexDigits width n)

/-- `n` in upper-case hexadecimal, at least `width` digits wide. -/
def upperHex (width n : Nat) : String :=
  String.ofList ((hexDigits width n).map Char.toUpper)

/-- Padding never shortens: the text has at least `width` digits. -/
theorem le_length_hexDigits (width n : Nat) : width ≤ (hexDigits width n).length := by
  simp only [hexDigits, List.leftpad, List.length_append, List.length_replicate]
  omega

end Graft.Text
