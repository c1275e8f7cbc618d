import MapEmbed.Text.Basic

/-!
# Binary numbers of 53 significant bits

The finite numbers of the 64-bit binary format, as exact values. A magnitude is a whole number of units of
2^-1074, the least positive number of the format, so no exponent can be negative and every operation is exact
arithmetic on naturals followed by one rounding. Zero keeps its sign. Infinities and undefined results are not
values of the type: an operation whose result is too great has none.

Powers are `Nat.pow` in full, so that they do not depend on the instances a library adds for raised exponents.
-/

namespace MapEmbed

/-- The quotient rounded to the nearest whole number; a half goes to the even neighbour. -/
def roundToEven (numerator denominator : Nat) : Nat :=
  let quotient := numerator / denominator
  let doubled := 2 * (numerator % denominator)
  if doubled < denominator then quotient
  else if denominator < doubled then quotient + 1
  else quotient + quotient % 2

namespace Binary64

/-- The exponent of the spacing of the format at a magnitude: zero below 2^53 units, then one more for each
further bit. -/
def spacing (units : Nat) : Nat :=
  Nat.log2 units + 1 - 53

/-- The greatest finite magnitude. -/
def greatest : Nat :=
  (Nat.pow 2 53 - 1) * Nat.pow 2 2045

/-- A magnitude of the format: a multiple of the spacing there, and not too great. -/
def Representable (units : Nat) : Prop :=
  units % Nat.pow 2 (spacing units) = 0 ∧ units ≤ greatest

instance (units : Nat) : Decidable (Representable units) :=
  inferInstanceAs (Decidable (_ ∧ _))

/-- The magnitude nearest to a quotient, in units, without regard to the greatest. -/
def roundRatio (numerator denominator : Nat) : Nat :=
  let scaled := numerator * Nat.pow 2 1074
  let step := Nat.pow 2 (spacing (scaled / denominator))
  roundToEven scaled (denominator * step) * step

end Binary64

/-- A finite number of the 64-bit binary format. The two infinities and what is not a number cannot be written in it: the
readers of attributes and of data pass them over, so they never come into a map or a marker. -/
structure Binary64 where
  negative : Bool
  /-- The magnitude in units of 2^-1074. -/
  units : Nat
  representable : Binary64.Representable units
  deriving DecidableEq

namespace Binary64

/-- Zero, which has a sign. -/
def zero (negative : Bool) : Binary64 :=
  ⟨negative, 0, by simp [Representable]⟩

/-- The number nearest to a quotient, or nothing if that is beyond the greatest finite one. -/
def ofRatio? (negative : Bool) (numerator denominator : Nat) : Option Binary64 :=
  let units := roundRatio numerator denominator
  if finite : Representable units then some ⟨negative, units, finite⟩ else none

/-- The number nearest to `digits · 10^exponent`. An exponent so large or so small that the answer is settled by
the number of digits is never raised. -/
def ofDecimal? (negative : Bool) (digits : Nat) (exponent : Int) : Option Binary64 :=
  let magnitude := exponent + (Text.ofNat digits).length
  if digits = 0 ∨ magnitude < -330 then some (zero negative)
  else if 310 < magnitude then none
  else if 0 ≤ exponent then ofRatio? negative (digits * Nat.pow 10 exponent.toNat) 1
  else ofRatio? negative digits (Nat.pow 10 (-exponent).toNat)

/-- The rounded product. -/
def mul? (x y : Binary64) : Option Binary64 :=
  ofRatio? (x.negative != y.negative) (x.units * y.units) (Nat.pow 2 2148)

/-- The rounded quotient; the divisor is not zero. -/
def div? (x y : Binary64) : Option Binary64 :=
  ofRatio? (x.negative != y.negative) x.units y.units

/-- The number with the other sign. -/
def neg (x : Binary64) : Binary64 :=
  { x with negative := !x.negative }

/-- The whole part, towards zero. -/
def truncate (x : Binary64) : Int :=
  let whole : Int := (x.units / Nat.pow 2 1074 : Nat)
  if x.negative then -whole else whole

/-- The exact value rounded to a number of decimal places, half to even, with all places written. The sign of
a negative number is kept even where every digit is zero. -/
def fixed (places : Nat) (x : Binary64) : Text :=
  let scaled := roundToEven (x.units * Nat.pow 10 places) (Nat.pow 2 1074)
  let digits := Text.ofNat scaled
  let padded := List.replicate (places + 1 - digits.length) '0' ++ digits
  let whole := padded.take (padded.length - places)
  (if x.negative then ['-'] else []) ++ whole ++ '.' :: padded.drop (padded.length - places)

end Binary64
end MapEmbed
