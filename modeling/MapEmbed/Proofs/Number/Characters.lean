import MapEmbed.Number.Layout

/-!
# The characters of numbers

Every layout of a number is made of few characters: digits, signs, a point and the letter of an exponent. None of
them is reserved anywhere a number is written to.
-/

namespace MapEmbed

/-- May stand in a number in print. -/
def isNumberChar (c : Char) : Bool :=
  Unicode.isAsciiDigit c || c == '-' || c == '+' || c == '.' || c == 'e'

/-- The characters of numbers are no control characters. -/
theorem toNat_of_isNumberChar {c : Char} (inside : isNumberChar c = true) : 0x20 ≤ c.toNat := by
  simp only [isNumberChar, Bool.or_eq_true, beq_iff_eq] at inside
  rcases inside with (((digit | rfl) | rfl) | rfl) | rfl
  · simp only [Unicode.isAsciiDigit, Bool.and_eq_true, decide_eq_true_eq] at digit
    exact Nat.le_trans (by decide) (digit.1 : '0'.toNat ≤ c.toNat)
  · decide
  · decide
  · decide
  · decide

namespace Text

/-- A number in print determines the number. -/
theorem ofNat_inj {first second : Nat} (same : Text.ofNat first = Text.ofNat second) : first = second := by
  have values := congrArg (Nat.ofDigitChars 10 · 0) same
  simpa only [Text.ofNat, Nat.ofDigitChars_ten_toDigits] using values

/-- A number in print is made of seven-bit digits. -/
theorem isAsciiDigit_of_mem_ofNat {n : Nat} {c : Char} (member : c ∈ Text.ofNat n) :
    Unicode.isAsciiDigit c = true := by
  have digit := Nat.isDigit_of_mem_toDigits (by decide) (by decide) member
  simp only [Char.isDigit, Bool.and_eq_true, decide_eq_true_eq] at digit
  simp only [Unicode.isAsciiDigit, Bool.and_eq_true, decide_eq_true_eq]
  exact digit

/-- The digits of a number are characters of numbers. -/
theorem isNumberChar_of_mem_ofNat {n : Nat} {c : Char} (member : c ∈ Text.ofNat n) : isNumberChar c = true := by
  simp [isNumberChar, isAsciiDigit_of_mem_ofNat member]

/-- So are those of an integer, and its sign. -/
theorem isNumberChar_of_mem_ofInt {value : Int} {c : Char} (member : c ∈ Text.ofInt value) :
    isNumberChar c = true := by
  cases value with
  | ofNat n => exact isNumberChar_of_mem_ofNat member
  | negSucc n =>
    rcases List.mem_cons.mp member with rfl | digit
    · decide
    · exact isNumberChar_of_mem_ofNat digit

end Text

/-- The places of a fixed number of them are made of characters of numbers. -/
theorem Binary64.isNumberChar_of_mem_fixed {places : Nat} {x : Binary64} {c : Char} (member : c ∈ x.fixed places) :
    isNumberChar c = true := by
  have padded {count number : Nat} {d : Char} (inside : d ∈ List.replicate count '0' ++ Text.ofNat number) :
      isNumberChar d = true := by
    rcases List.mem_append.mp inside with zero | digit
    · rw [(List.mem_replicate.mp zero).2]
      decide
    · exact Text.isNumberChar_of_mem_ofNat digit
  simp only [Binary64.fixed, List.mem_append, List.mem_cons] at member
  rcases member with (sign | whole) | point | fraction
  · split at sign
    · rw [List.mem_singleton.mp sign]
      decide
    · simp at sign
  · exact padded (List.mem_of_mem_take whole)
  · rw [point]
    decide
  · exact padded (List.mem_of_mem_drop fraction)

namespace NumberLayout

/-- Without an exponent a number has digits and a point. -/
theorem isNumberChar_of_mem_positionalText {keepsPoint : Bool} {digits : Text} {point : Int}
    (all : ∀ c ∈ digits, isNumberChar c = true) {c : Char} (member : c ∈ positionalText keepsPoint digits point) :
    isNumberChar c = true := by
  have zero {count : Nat} {d : Char} (inside : d ∈ List.replicate count '0') : isNumberChar d = true := by
    rw [(List.mem_replicate.mp inside).2]
    decide
  have front {d : Char} (inside : d ∈ digits.take point.toNat ++ List.replicate (point.toNat - digits.length) '0') :
      isNumberChar d = true := by
    rcases List.mem_append.mp inside with taken | padding
    · exact all d (List.mem_of_mem_take taken)
    · exact zero padding
  unfold positionalText at member
  split at member
  · simp only [List.cons_append, List.nil_append, List.mem_cons, List.mem_append] at member
    rcases member with rfl | rfl | padding | digit
    · decide
    · decide
    · exact zero padding
    · exact all c digit
  · split at member
    · split at member
      · rcases List.mem_append.mp member with whole | pointZero
        · exact front whole
        · simp only [List.mem_cons, List.not_mem_nil, or_false] at pointZero
          rcases pointZero with rfl | rfl <;> decide
      · exact front member
    · rcases List.mem_append.mp member with whole | fraction
      · exact front whole
      · rcases List.mem_cons.mp fraction with rfl | digit
        · decide
        · exact all c (List.mem_of_mem_drop digit)

/-- With an exponent it has the letter and the sign of the exponent too. -/
theorem isNumberChar_of_mem_exponentText {digits : Text} {leading : Int}
    (all : ∀ c ∈ digits, isNumberChar c = true) {c : Char} (member : c ∈ exponentText digits leading) :
    isNumberChar c = true := by
  simp only [exponentText, List.mem_append, List.mem_cons] at member
  rcases member with (mantissa | rfl | sign) | exponent
  · split at mantissa
    · simp only [List.mem_cons] at mantissa
      rcases mantissa with rfl | rfl | rfl | later
      · exact all c (by simp)
      · decide
      · exact all c (by simp)
      · exact all c (by simp [later])
    · exact all c mantissa
  · decide
  · split at sign
    · simp at sign
    · rw [List.mem_singleton.mp sign]
      decide
  · exact Text.isNumberChar_of_mem_ofInt exponent

/-- Every layout is made of characters of numbers. -/
theorem isNumberChar_of_mem_render {layout : NumberLayout} {x : Binary64} {c : Char}
    (member : c ∈ layout.render x) : isNumberChar c = true := by
  have digits : ∀ d ∈ Text.ofNat (x.shortest layout.tie).digits, isNumberChar d = true :=
    fun d inside => Text.isNumberChar_of_mem_ofNat inside
  have chosen {condition : Prop} [Decidable condition] {yes no : Text}
      (inside : c ∈ if condition then yes else no) : c ∈ yes ∨ c ∈ no := by
    split at inside
    · exact Or.inl inside
    · exact Or.inr inside
  rcases List.mem_append.mp member with sign | rest
  · split at sign
    · rw [List.mem_singleton.mp sign]
      decide
    · simp at sign
  · rcases chosen rest with positional | exponent
    · exact isNumberChar_of_mem_positionalText digits positional
    · exact isNumberChar_of_mem_exponentText digits exponent

end NumberLayout
end MapEmbed
