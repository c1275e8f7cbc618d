import MapEmbed.Number.Binary64

/-!
# Whole numbers of the format

A number of the format has 53 significant bits, so every natural number of at most 53 bits is one: it is read from its
digits without rounding, and its whole part is the number again.
-/

namespace MapEmbed

/-- A quotient without a remainder is not rounded. -/
theorem roundToEven_of_dvd {numerator denominator : Nat} (positive : 0 < denominator)
    (divides : denominator ∣ numerator) : roundToEven numerator denominator = numerator / denominator := by
  have exact_ : numerator % denominator = 0 := Nat.mod_eq_zero_of_dvd divides
  simp [roundToEven, exact_, positive]

namespace Binary64

/-- The whole part of zero is zero. -/
theorem truncate_zero (negative : Bool) : (zero negative).truncate = 0 := by
  simp only [truncate, zero, Nat.zero_div]
  cases negative <;> rfl

/-- A number of at most 53 bits keeps its unit when it is shifted: the spacing there is not wider. -/
theorem spacing_shifted {n : Nat} (small : n < Nat.pow 2 53) (shift : Nat) : spacing (n * Nat.pow 2 shift) ≤ shift := by
  by_cases zero : n * Nat.pow 2 shift = 0
  · rw [spacing, zero]
    exact Nat.zero_le shift
  · have wide : n * Nat.pow 2 shift < Nat.pow 2 (53 + shift) := by
      have step : Nat.pow 2 (53 + shift) = Nat.pow 2 53 * Nat.pow 2 shift := Nat.pow_add 2 53 shift
      rw [step]
      exact Nat.mul_lt_mul_of_pos_right small (Nat.pow_pos (by decide))
    have bits : (n * Nat.pow 2 shift).log2 < 53 + shift := (Nat.log2_lt zero).mpr wide
    unfold spacing
    omega

/-- The spacing divides a number of at most 53 bits that is shifted. -/
theorem spacing_dvd_shifted {n : Nat} (small : n < Nat.pow 2 53) (shift : Nat) :
    Nat.pow 2 (spacing (n * Nat.pow 2 shift)) ∣ n * Nat.pow 2 shift :=
  Nat.dvd_trans (Nat.pow_dvd_pow 2 (spacing_shifted small shift)) (Nat.dvd_mul_left _ n)

/-- A number of at most 53 bits that is shifted is one of the format, unless it is shifted too far. -/
theorem representable_shifted {n : Nat} (small : n < Nat.pow 2 53) (shift : Nat) (near : shift ≤ 2045) :
    Representable (n * Nat.pow 2 shift) := by
  refine ⟨Nat.mod_eq_zero_of_dvd (spacing_dvd_shifted small shift), ?_⟩
  rw [greatest]
  -- the greatest exponent is left open, or its power would be computed
  generalize 2045 = last at near ⊢
  exact Nat.mul_le_mul (Nat.le_sub_one_of_lt small) (Nat.pow_le_pow_right (by decide) near)

/-- A number of at most 53 bits that is shifted, as a number of the format. -/
def shifted (n : Nat) (small : n < Nat.pow 2 53) (shift : Nat) (near : shift ≤ 2045) : Binary64 :=
  ⟨false, n * Nat.pow 2 shift, representable_shifted small shift near⟩

/-- A natural number of at most 53 bits, as a number of the format. -/
def whole (n : Nat) (small : n < Nat.pow 2 53) : Binary64 :=
  shifted n small 1074 (by decide)

/-- Its whole part is the natural number. -/
theorem truncate_whole {n : Nat} (small : n < Nat.pow 2 53) : (whole n small).truncate = n := by
  -- the exponent of the unit is left open, or its power would be computed
  have truncated {shift : Nat} (near : shift ≤ 2045) (unit : 1074 = shift) :
      (shifted n small shift near).truncate = n := by
    have positive : 0 < Nat.pow 2 shift := Nat.pow_pos (by decide)
    rw [truncate, unit, shifted, Nat.mul_div_cancel n positive]
    rfl
  exact truncated (by decide) rfl

/-- A natural number of at most 53 bits is not rounded. -/
theorem roundRatio_whole {n : Nat} (small : n < Nat.pow 2 53) : roundRatio n 1 = (whole n small).units := by
  dsimp only [roundRatio, whole, shifted]
  generalize 1074 = bits
  have divides := spacing_dvd_shifted small bits
  have positive : 0 < Nat.pow 2 (spacing (n * Nat.pow 2 bits)) := Nat.pow_pos (by decide)
  rw [Nat.div_one, Nat.one_mul, roundToEven_of_dvd positive divides, Nat.div_mul_cancel divides]

/-- It is the quotient of itself and one. -/
theorem ofRatio?_whole {n : Nat} (small : n < Nat.pow 2 53) : ofRatio? false n 1 = some (whole n small) := by
  have finite : Representable (roundRatio n 1) := roundRatio_whole small ▸ (whole n small).representable
  rw [ofRatio?, dif_pos finite, Option.some.injEq]
  simp only [roundRatio_whole small]
  rfl

/-- A natural number of at most 53 bits is read from its digits. -/
theorem ofDecimal?_whole {n : Nat} (small : n < Nat.pow 2 53) : ofDecimal? false n 0 = some (whole n small) := by
  by_cases zero_ : n = 0
  · subst zero_
    rw [ofDecimal?, if_pos (Or.inl rfl)]
    simp only [zero, whole, shifted, Nat.zero_mul]
  · have few : (Text.ofNat n).length ≤ 16 :=
      (Nat.length_toDigits_le_iff (by decide) (by decide)).mpr (Nat.lt_trans small (by decide))
    have reachable : ¬(n = 0 ∨ (0 : Int) + (Text.ofNat n).length < -330) := by omega
    have bounded : ¬310 < (0 : Int) + (Text.ofNat n).length := by omega
    have unscaled : n * Nat.pow 10 (0 : Int).toNat = n := Nat.mul_one n
    rw [ofDecimal?, if_neg reachable, if_neg bounded, if_pos (Int.le_refl 0), unscaled, ofRatio?_whole small]

end Binary64
end MapEmbed
