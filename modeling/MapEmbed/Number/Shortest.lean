import MapEmbed.Number.Binary64

/-!
# The fewest digits that read back

Every number of the format is the rounding of a whole interval of reals; its ends belong to it if and only if
the number's last bit is zero. The shortest decimal is the one with the fewest digits in that interval, and of
those with equally few the one nearest to the number. On each decimal grid only the two neighbours of the number
need to be tried: if any point of the grid lies in the interval, so does one of them.
-/

namespace MapEmbed

/-- Which way a number goes that lies exactly between two equally short decimals. -/
inductive Tie where
  | up
  | toEven
  deriving DecidableEq, Repr

/-- The decimal `digits · 10^exponent`. -/
structure Decimal where
  digits : Nat
  exponent : Int
  deriving DecidableEq, Repr

namespace Decimal

/-- Moves trailing zeros of the digits into the exponent, at most as many as `limit`. -/
def normalize (limit : Nat) (d : Decimal) : Decimal :=
  match limit with
  | 0 => d
  | limit + 1 => if d.digits % 10 = 0 then normalize limit ⟨d.digits / 10, d.exponent + 1⟩ else d

end Decimal

namespace Binary64

/-- The reals that round to a magnitude, and the magnitude itself, in quarters of a unit. -/
structure Neighbourhood where
  low : Nat
  centre : Nat
  high : Nat
  /-- Whether the two ends round to the magnitude. -/
  closed : Bool
  deriving Repr

/-- Half the spacing on each side; below a power of two the spacing is half as wide. -/
def neighbourhood (units : Nat) : Neighbourhood :=
  let step := Nat.pow 2 (spacing units)
  let significand := units / step
  let below := if significand = Nat.pow 2 52 ∧ 1 < step then step else 2 * step
  ⟨4 * units - below, 4 * units, 4 * units + 2 * step, significand % 2 = 0⟩

/-- Whether `numerator / denominator` quarters of a unit round to the magnitude. -/
def Neighbourhood.includes (n : Neighbourhood) (numerator denominator : Nat) : Bool :=
  if n.closed then
    decide (n.low * denominator ≤ numerator) && decide (numerator ≤ n.high * denominator)
  else
    decide (n.low * denominator < numerator) && decide (numerator < n.high * denominator)

/-- Tries the grid of multiples of `gridNumerator / gridDenominator` quarters of a unit: the multiplier of the
nearer neighbour that reads back, if one does. -/
def onGrid? (tie : Tie) (n : Neighbourhood) (gridNumerator gridDenominator : Nat) : Option Nat :=
  let scaled := n.centre * gridDenominator
  let floor := scaled / gridNumerator
  let ceiling := floor + 1
  let reads (k : Nat) : Bool := n.includes (k * gridNumerator) gridDenominator
  match reads floor, reads ceiling with
  | false, false => none
  | true, false => some floor
  | false, true => some ceiling
  | true, true =>
    let below := scaled - floor * gridNumerator
    let above := ceiling * gridNumerator - scaled
    if below < above then some floor
    else if above < below then some ceiling
    else match tie with
      | .up => some ceiling
      | .toEven => some (if floor % 2 = 0 then floor else ceiling)

/-- Whether ten to a power is at most the magnitude. -/
def reachesPower (units : Nat) (power : Int) : Bool :=
  decide (Nat.pow 10 power.toNat * Nat.pow 2 1074 ≤ units * Nat.pow 10 (-power).toNat)

/-- The exponent of the leading decimal digit of a positive magnitude. The logarithm to base two fixes it up to
one on either side. -/
def leadingExponent (units : Nat) : Int :=
  let estimate := (((Nat.log2 units : Int) - 1074) * 30103).fdiv 100000
  if reachesPower units (estimate + 1) then estimate + 1
  else if reachesPower units estimate then estimate
  else estimate - 1

/-- Tries grids of `size` digits, then of more, at most `limit` of them. Seventeen digits always read back. -/
def findShortest (tie : Tie) (units : Nat) (n : Neighbourhood) (leading : Int) : Nat → Nat → Decimal
  | 0, _ => ⟨units, 0⟩
  | limit + 1, size =>
    let exponent := leading + 1 - size
    match onGrid? tie n (4 * Nat.pow 2 1074 * Nat.pow 10 exponent.toNat) (Nat.pow 10 (-exponent).toNat) with
    | some digits => ⟨digits, exponent⟩
    | none => findShortest tie units n leading limit (size + 1)

/-- The shortest decimal that reads back as the magnitude, without trailing zeros. -/
def shortest (tie : Tie) (x : Binary64) : Decimal :=
  if x.units = 0 then
    ⟨0, 0⟩
  else
    (findShortest tie x.units (neighbourhood x.units) (leadingExponent x.units) 17 1).normalize 17

end Binary64
end MapEmbed
