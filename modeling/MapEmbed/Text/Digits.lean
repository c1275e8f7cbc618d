import MapEmbed.Text.Basic

/-!
# Digits of other bases

Numbers are written to the bases two, eight, ten and sixteen. The digits above nine are letters of either case.
-/

namespace MapEmbed.Text

/-- A hexadecimal digit, of either case. -/
def isHexDigit (c : Char) : Bool :=
  Unicode.isAsciiDigit c || (decide ('a' ≤ c) && decide (c ≤ 'f')) || (decide ('A' ≤ c) && decide (c ≤ 'F'))

/-- The value of a hexadecimal digit. -/
def hexDigitValue (c : Char) : Nat :=
  if Unicode.isAsciiDigit c then c.toNat - '0'.toNat
  else if decide ('a' ≤ c) then c.toNat - 'a'.toNat + 10
  else c.toNat - 'A'.toNat + 10

/-- The number that digits denote to a base. -/
def valueInBase (base : Nat) (digits : Text) : Nat :=
  digits.foldl (fun total c => total * base + hexDigitValue c) 0

/-- One more digit moves those before it up by one place. -/
theorem valueInBase_append_singleton (base : Nat) (digits : Text) (c : Char) :
    valueInBase base (digits ++ [c]) = valueInBase base digits * base + hexDigitValue c := by
  simp [valueInBase]

end MapEmbed.Text
