import MapEmbed.Json.Printer

/-!
# Fresh identifiers

A map without an identifier of its own gets one of 32 hexadecimal digits. Six of its 128 bits are fixed, in the
way of identifiers that are drawn at random: a digit four after twelve digits, and one of the upper four digits of
the second half after sixteen. The other 122 bits are those of a number, so numbers that differ by less than the
sixtieth power of two get different identifiers.
-/

namespace MapEmbed.Page

/-- The last digits of a number to the base sixteen, so many of them. -/
def hexDigits : Nat → Nat → Text
  | 0, _ => []
  | count + 1, number => hexDigits count (number / 16) ++ [Json.hexDigit number]

/-- There are as many digits as were asked for. -/
theorem length_hexDigits (count number : Nat) : (hexDigits count number).length = count := by
  induction count generalizing number with
  | zero => rfl
  | succ count ih => simp [hexDigits, ih]

/-- The identifier of a number. -/
def blockIdOf (number : Nat) : Text :=
  hexDigits 12 (number / Nat.pow 2 74) ++ ['4'] ++ hexDigits 3 (number / Nat.pow 2 62) ++
    [Json.hexDigit (8 + number / Nat.pow 2 60 % 4)] ++ hexDigits 15 number

/-- Every identifier has 32 digits. -/
theorem length_blockIdOf (number : Nat) : (blockIdOf number).length = 32 := by
  simp [blockIdOf, length_hexDigits]

end MapEmbed.Page
