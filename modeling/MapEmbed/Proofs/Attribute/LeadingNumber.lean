import MapEmbed.Attribute.Coercion
import MapEmbed.Proofs.Attribute.Reading
import MapEmbed.Proofs.Number.Whole

/-!
# Numbers and what follows them

A value is the number that its text starts with, so what follows a numeral makes no difference as long as it does not go
on with the numeral. Digits of all scripts go on with it: they make one literal, but only the seven-bit ones can be read,
and a literal with another digit counts as zero. That is the one thing that may stand behind a numeral and change it.
-/

namespace MapEmbed

/-- The seven-bit digits are digits. -/
theorem Unicode.isDigit_of_isAsciiDigit {c : Char} (digit : Unicode.isAsciiDigit c = true) :
    Unicode.isDigit c = true := by
  have small : c.toNat < 128 := by
    simp only [Unicode.isAsciiDigit, Bool.and_eq_true, decide_eq_true_eq] at digit
    have high : c.toNat ≤ '9'.toNat := digit.2
    exact Nat.lt_of_le_of_lt high (by decide)
  rw [Unicode.isDigit, if_pos small, digit]

namespace Coercion

/-- A number in decimal places behind blanks: a sign, seven-bit digits, and a point with more of them. -/
structure Numeral where
  /-- What stands before the number. -/
  blanks : Text
  /-- The sign, if one is written. -/
  sign : Text
  /-- The digits before the point. -/
  whole : Text
  /-- The digits behind the point, if there is one. -/
  fraction : Option Text
  /-- Only blanks stand before it. -/
  blank : ∀ c ∈ blanks, Unicode.isBlank c = true
  /-- There are two signs. -/
  signed : sign = [] ∨ sign = ['+'] ∨ sign = ['-']
  /-- All digits are seven-bit ones. -/
  digits : ∀ c ∈ whole ++ fraction.getD [], Unicode.isAsciiDigit c = true
  /-- There is a digit. -/
  some_ : whole ++ fraction.getD [] ≠ []

/-- Goes on with a numeral in print: a digit, a point, or the mark of an exponent. -/
def continuesNumeral (c : Char) : Bool :=
  Unicode.isAsciiDigit c || c == '.' || c == 'e' || c == 'E'

/-- A digit that no number is read from. -/
def isForeignDigit (c : Char) : Bool :=
  Unicode.isDigit c && !Unicode.isAsciiDigit c

/-- What is taken before the point are all digits there, and what is taken behind it are all digits there. -/
theorem parts_of_takeMantissa? {text whole fraction left : Text}
    (taken : takeMantissa? text = some (whole, fraction, left)) :
    whole = text.takeWhile Unicode.isDigit ∧
      ∀ rest, text.dropWhile Unicode.isDigit = '.' :: rest → fraction = rest.takeWhile Unicode.isDigit := by
  simp only [takeMantissa?] at taken
  split at taken
  · rename_i behind found
    split at taken
    · simp at taken
    · simp only [Option.some.injEq, Prod.mk.injEq] at taken
      refine ⟨taken.1.symm, ?_⟩
      intro rest same
      rw [found] at same
      rw [← (List.cons.inj same).2, taken.2.1]
  · rename_i pointless
    split at taken
    · simp at taken
    · simp only [Option.some.injEq, Prod.mk.injEq] at taken
      exact ⟨taken.1.symm, fun rest same => absurd same (pointless rest)⟩

namespace Numeral

variable (d : Numeral)

/-- The digits with their point. -/
def mantissa : Text :=
  d.whole ++ (d.fraction.map ('.' :: ·)).getD []

/-- The numeral as it is written. -/
def toText : Text :=
  d.blanks ++ (d.sign ++ d.mantissa)

/-- What is read of it. -/
def literal : Literal :=
  ⟨d.sign == ['-'], d.whole, d.fraction.getD [], false, []⟩

variable {rest : Text}

/-- The digits before the point are digits. -/
theorem isDigit_whole : ∀ c ∈ d.whole, Unicode.isDigit c = true :=
  fun c member => Unicode.isDigit_of_isAsciiDigit (d.digits c (List.mem_append_left _ member))

/-- So are those behind it. -/
theorem isDigit_fraction {fraction : Text} (written : d.fraction = some fraction) :
    ∀ c ∈ fraction, Unicode.isDigit c = true := by
  intro c member
  apply Unicode.isDigit_of_isAsciiDigit
  exact d.digits c (List.mem_append_right _ (by simp [written, member]))

/-- It starts with a digit or the point. -/
theorem exists_mantissa : ∃ c others, d.mantissa = c :: others ∧ (Unicode.isAsciiDigit c = true ∨ c = '.') := by
  unfold mantissa
  cases whole : d.whole with
  | cons c others => exact ⟨c, _, rfl, Or.inl (d.digits c (by simp [whole]))⟩
  | nil =>
    cases fraction : d.fraction with
    | some digits => exact ⟨'.', digits, by simp, Or.inr rfl⟩
    | none => exact absurd (by simp [whole, fraction]) d.some_

/-- Blanks and sign are read, and what follows is left. -/
theorem takeSign_toText (rest : Text) : takeSign ((d.toText ++ rest).dropWhile Unicode.isBlank) =
    (d.sign == ['-'], d.mantissa ++ rest) := by
  obtain ⟨c, others, split, first⟩ := d.exists_mantissa
  have visible : Unicode.isBlank c = false ∧ c ≠ '-' ∧ c ≠ '+' := by
    rcases first with digit | rfl
    · refine ⟨AttributeToken.isBlank_of_isKeyChar (Unicode.digit_isKeyChar digit).1, ?_, ?_⟩ <;>
        rintro rfl <;> exact absurd digit (by decide)
    · decide
  have behind : d.toText ++ rest = d.blanks ++ (d.sign ++ c :: (others ++ rest)) := by simp [toText, split]
  rw [behind, List.dropWhile_append_of_pos d.blank, split]
  rcases d.signed with none_ | plus | minus
  · rw [none_, List.nil_append, List.dropWhile_cons_of_neg (by simp [visible.1])]
    unfold takeSign
    split <;> simp_all
  · rw [plus]
    rfl
  · rw [minus]
    rfl

/-- What is read of a numeral with a rest is what is read of its digits with the rest. -/
theorem leadingLiteral?_toText (rest : Text) : leadingLiteral? (d.toText ++ rest) =
    (takeMantissa? (d.mantissa ++ rest)).map fun (whole, fraction, left) =>
      ⟨d.sign == ['-'], whole, fraction, (takeExponent left).1, (takeExponent left).2⟩ := by
  rw [leadingLiteral?, d.takeSign_toText]

/-- The digits are read up to a rest that does not go on with them. -/
theorem takeMantissa?_mantissa (ends : ∀ c ∈ rest.head?, Unicode.isDigit c = false ∧ c ≠ '.') :
    takeMantissa? (d.mantissa ++ rest) = some (d.whole, d.fraction.getD [], rest) := by
  have stop {digits : Text} (all : ∀ c ∈ digits, Unicode.isDigit c = true) :
      (digits ++ rest).takeWhile Unicode.isDigit = digits ∧ (digits ++ rest).dropWhile Unicode.isDigit = rest := by
    rw [List.takeWhile_append_of_pos all, List.dropWhile_append_of_pos all]
    cases rest with
    | nil => simp
    | cons c others => simp [(ends c rfl).1]
  have some_ := d.some_
  cases written : d.fraction with
  | none =>
    have text : d.mantissa ++ rest = d.whole ++ rest := by simp [mantissa, written]
    have whole : d.whole ≠ [] := by simpa [written] using some_
    rw [text, takeMantissa?, (stop d.isDigit_whole).1, (stop d.isDigit_whole).2]
    cases rest with
    | nil => simp [whole]
    | cons c others =>
      have point : c ≠ '.' := (ends c rfl).2
      simp [whole, point]
  | some fraction =>
    have text : d.mantissa ++ rest = d.whole ++ '.' :: (fraction ++ rest) := by simp [mantissa, written]
    have point : ¬Unicode.isDigit '.' = true := by decide
    obtain ⟨taken, left⟩ := stop (d.isDigit_fraction written)
    rw [written] at some_
    rw [text, takeMantissa?, List.takeWhile_append_of_pos d.isDigit_whole, List.dropWhile_append_of_pos d.isDigit_whole,
      List.takeWhile_cons_of_neg point, List.dropWhile_cons_of_neg point]
    simp only [taken, left, List.append_nil]
    rw [if_neg]
    · rfl
    · simpa using some_

/-- A digit behind a numeral is read as one of its digits. -/
theorem mem_of_takeMantissa? {c : Char} (digit : Unicode.isDigit c = true) {whole fraction left : Text}
    (taken : takeMantissa? (d.mantissa ++ c :: rest) = some (whole, fraction, left)) : c ∈ whole ++ fraction := by
  obtain ⟨front, behind⟩ := parts_of_takeMantissa? taken
  cases written : d.fraction with
  | none =>
    have text : d.mantissa ++ c :: rest = d.whole ++ c :: rest := by simp [mantissa, written]
    rw [text, List.takeWhile_append_of_pos d.isDigit_whole, List.takeWhile_cons_of_pos digit] at front
    simp [front]
  | some digits =>
    have text : d.mantissa ++ c :: rest = d.whole ++ '.' :: (digits ++ c :: rest) := by simp [mantissa, written]
    have point : ¬Unicode.isDigit '.' = true := by decide
    have fractional : fraction = (digits ++ c :: rest).takeWhile Unicode.isDigit := by
      apply behind
      rw [text, List.dropWhile_append_of_pos d.isDigit_whole, List.dropWhile_cons_of_neg point]
    rw [List.takeWhile_append_of_pos (d.isDigit_fraction written), List.takeWhile_cons_of_pos digit] at fractional
    simp [fractional]

/-- A numeral is read as its digits, whatever follows that does not go on with it. -/
theorem leadingLiteral?_append (ends : ∀ c ∈ rest.head?, continuesNumeral c = false ∧ Unicode.isDigit c = false) :
    leadingLiteral? (d.toText ++ rest) = some d.literal := by
  have stop : ∀ c ∈ rest.head?, Unicode.isDigit c = false ∧ c ≠ '.' := by
    intro c first
    obtain ⟨goes, digit⟩ := ends c first
    refine ⟨digit, ?_⟩
    rintro rfl
    exact absurd goes (by decide)
  have none_ : takeExponent rest = (false, []) := by
    cases rest with
    | nil => rfl
    | cons c others =>
      have goes := (ends c rfl).1
      simp only [continuesNumeral, Bool.or_eq_false_iff, beq_eq_false_iff_ne] at goes
      rw [takeExponent, if_neg (by simp [goes.1.2, goes.2])]
  rw [d.leadingLiteral?_toText, d.takeMantissa?_mantissa stop, Option.map_some]
  simp only [none_]
  rfl

/-- A literal with a digit that is no seven-bit one has no value. -/
theorem number_foreign {c : Char} (foreign : isForeignDigit c = true) (rest : Text) :
    number (d.toText ++ c :: rest) = Binary64.zero false := by
  simp only [isForeignDigit, Bool.and_eq_true, Bool.not_eq_true'] at foreign
  rw [number, d.leadingLiteral?_toText]
  cases taken : takeMantissa? (d.mantissa ++ c :: rest) with
  | none => rfl
  | some parts =>
    obtain ⟨whole, fraction, left⟩ := parts
    have inside := d.mem_of_takeMantissa? foreign.1 taken
    have unreadable : ¬(whole ++ fraction ++ (takeExponent left).2).all Unicode.isAsciiDigit = true := by
      intro all
      have digit := List.all_eq_true.mp all c (List.mem_append_left _ inside)
      rw [foreign.2] at digit
      exact Bool.false_ne_true digit
    simp only [Option.map_some, Option.bind_some, Literal.value?]
    rw [if_neg unreadable]
    rfl

/-- The number nearest to a numeral, or zero if that is beyond the greatest one. -/
def value : Binary64 :=
  (Binary64.ofDecimal? (d.sign == ['-']) (Text.digitsValue 0 (d.whole ++ d.fraction.getD []))
    (-(d.fraction.getD []).length)).getD (Binary64.zero false)

/-- What is read of a numeral has that value. -/
theorem value?_literal : (d.literal.value?).getD (Binary64.zero false) = d.value := by
  have read : (d.literal.whole ++ d.literal.fraction ++ d.literal.exponent).all Unicode.isAsciiDigit = true := by
    rw [literal, List.append_nil]
    exact List.all_eq_true.mpr d.digits
  have unraised : (if d.literal.exponentNegative then -((Text.digitsValue 0 d.literal.exponent : Nat) : Int)
      else (Text.digitsValue 0 d.literal.exponent : Nat)) - (d.literal.fraction.length : Int) =
        -(d.fraction.getD []).length := by
    have nothing : Text.digitsValue 0 d.literal.exponent = 0 := rfl
    have positive : ¬d.literal.exponentNegative = true := Bool.false_ne_true
    have places : d.literal.fraction = d.fraction.getD [] := rfl
    rw [if_neg positive, nothing, places]
    omega
  simp only [Literal.value?, if_pos read, unraised]
  rfl

/-- A numeral has its value, whatever follows that does not go on with it. -/
theorem number_append (ends : ∀ c ∈ rest.head?, continuesNumeral c = false ∧ Unicode.isDigit c = false) :
    number (d.toText ++ rest) = d.value := by
  rw [number, d.leadingLiteral?_append ends, Option.bind_some, d.value?_literal]

/-- A numeral alone has its value. -/
theorem number_toText : number d.toText = d.value := by
  have alone : number (d.toText ++ []) = d.value := d.number_append (by simp)
  rwa [List.append_nil] at alone

end Numeral

/-! ### Whole numbers in print -/

/-- The value of digits is that of the decimal notation. -/
theorem digitsValue_eq (digits : Text) (front : Nat) :
    Text.digitsValue front digits = Nat.ofDigitChars 10 digits front := by
  induction digits generalizing front with
  | nil => rfl
  | cons c rest inductionHypothesis =>
    rw [Nat.ofDigitChars_cons, Nat.mul_comm 10 front]
    exact inductionHypothesis _

/-- A natural number in print is a numeral. -/
def Numeral.ofNat (n : Nat) : Numeral where
  blanks := []
  sign := []
  whole := Text.ofNat n
  fraction := none
  blank := by simp
  signed := Or.inl rfl
  digits := by
    intro c member
    exact Text.isAsciiDigit_of_mem_ofNat (by simpa using member)
  some_ := by
    rw [Option.getD_none, List.append_nil]
    exact Nat.toDigits_ne_nil

/-- It is written as the number is. -/
theorem Numeral.toText_ofNat (n : Nat) : (Numeral.ofNat n).toText = Text.ofNat n :=
  List.append_nil (Text.ofNat n)

/-- A natural number of at most 53 bits is read from its print. -/
theorem number_ofNat {n : Nat} (small : n < Nat.pow 2 53) : number (Text.ofNat n) = Binary64.whole n small := by
  have digits : Text.digitsValue 0 (Text.ofNat n ++ []) = n := by
    rw [List.append_nil, digitsValue_eq]
    exact Nat.ofDigitChars_ten_toDigits
  have read : (Numeral.ofNat n).value = ((Binary64.ofDecimal? false (Text.digitsValue 0 (Text.ofNat n ++ [])) 0).getD
      (Binary64.zero false)) := rfl
  rw [← Numeral.toText_ofNat, Numeral.number_toText, read, digits, Binary64.ofDecimal?_whole small, Option.getD_some]

/-- An integer of 64 bits is its own nearest one. -/
theorem saturate_eq_self {n : Int} (low : -Int.pow 2 63 ≤ n) (high : n < Int.pow 2 63) : saturate n = n := by
  have most : n ≤ Int.pow 2 63 - 1 := Int.le_sub_one_of_lt high
  rw [saturate, Int.min_eq_left most, Int.max_eq_right low]

/-- Every whole part is an integer of 64 bits. -/
theorem integer_bounds (text : Text) : -Int.pow 2 63 ≤ integer text ∧ integer text < Int.pow 2 63 := by
  have power : Int.pow 2 63 = 9223372036854775808 := by decide
  unfold integer saturate
  omega

/-- Its whole part is the number. -/
theorem integer_ofNat {n : Nat} (small : n < Nat.pow 2 53) : integer (Text.ofNat n) = n := by
  have word : Nat.pow 2 53 = 9007199254740992 ∧ Int.pow 2 63 = 9223372036854775808 := by decide
  rw [integer, number_ofNat small, Binary64.truncate_whole]
  apply saturate_eq_self <;> omega

/-! ### What follows a number -/

/-- A text that starts with a numeral has the number and the whole part of the numeral, whatever follows, unless it is a
digit of another script: such a digit makes the text count as zero. -/
theorem number_append_iff (d : Numeral) {rest : Text} (ends : ∀ c ∈ rest.head?, continuesNumeral c = false) :
    number d.toText = d.value ∧
      (number (d.toText ++ rest) = number d.toText ∧ integer (d.toText ++ rest) = integer d.toText ↔
        (∀ c ∈ rest.head?, isForeignDigit c = false) ∨ d.value = Binary64.zero false) ∧
      ((∃ c ∈ rest.head?, isForeignDigit c = true) →
        number (d.toText ++ rest) = Binary64.zero false ∧ integer (d.toText ++ rest) = 0) := by
  have same (plain : ∀ c ∈ rest.head?, isForeignDigit c = false) : number (d.toText ++ rest) = d.value := by
    apply d.number_append
    intro c first
    have goes := ends c first
    have own := plain c first
    simp only [continuesNumeral, Bool.or_eq_false_iff] at goes
    simp only [isForeignDigit, goes.1.1.1, Bool.not_false, Bool.and_true] at own
    exact ⟨ends c first, own⟩
  have none_ (foreign : ∃ c ∈ rest.head?, isForeignDigit c = true) :
      number (d.toText ++ rest) = Binary64.zero false := by
    obtain ⟨c, first, other⟩ := foreign
    obtain ⟨others, rfl⟩ := List.head?_eq_some_iff.mp first
    exact d.number_foreign other others
  refine ⟨d.number_toText, ⟨?_, ?_⟩, ?_⟩
  · rintro ⟨numbers, -⟩
    by_cases foreign : ∃ c ∈ rest.head?, isForeignDigit c = true
    · right
      rw [← d.number_toText, ← numbers, none_ foreign]
    · left
      intro c first
      exact Bool.eq_false_iff.mpr fun other => foreign ⟨c, first, other⟩
  · intro either
    have numbers : number (d.toText ++ rest) = number d.toText := by
      rw [d.number_toText]
      by_cases foreign : ∃ c ∈ rest.head?, isForeignDigit c = true
      · obtain ⟨c, first, other⟩ := foreign
        rcases either with plain | zero
        · exact absurd other (Bool.eq_false_iff.mp (plain c first))
        · rw [none_ ⟨c, first, other⟩, zero]
      · exact same fun c first => Bool.eq_false_iff.mpr fun other => foreign ⟨c, first, other⟩
    exact ⟨numbers, by rw [integer, numbers, integer]⟩
  · intro foreign
    have zero := none_ foreign
    exact ⟨zero, by rw [integer, zero, Binary64.truncate_zero]; decide⟩

/-- A length below zero, in front of its unit. -/
def shortLength : Numeral where
  blanks := [' ']
  sign := ['-']
  whole := "13".toList
  fraction := some "5".toList
  blank := List.all_eq_true.mp (by decide)
  signed := Or.inr (Or.inr rfl)
  digits := List.all_eq_true.mp (by decide)
  some_ := by decide

/-- A unit behind a number makes no difference. -/
theorem number_append_unit : (∀ c ∈ ['p', 'x'].head?, continuesNumeral c = false) ∧
    number (shortLength.toText ++ ['p', 'x']) = number shortLength.toText ∧
    integer (shortLength.toText ++ ['p', 'x']) = integer shortLength.toText := by
  have ends : ∀ c ∈ ['p', 'x'].head?, continuesNumeral c = false := by
    rintro c ⟨⟩
    decide
  have plain : ∀ c ∈ ['p', 'x'].head?, isForeignDigit c = false := by
    rintro c ⟨⟩
    decide
  exact ⟨ends, (number_append_iff shortLength ends).2.1.mpr (Or.inl plain)⟩

/-- A digit of another script behind a number makes the text count as zero. -/
theorem number_append_foreign : ∃ (d : Numeral) (rest : Text), (∀ c ∈ rest.head?, continuesNumeral c = false) ∧
    number (d.toText ++ rest) ≠ number d.toText ∧ integer (d.toText ++ rest) ≠ integer d.toText := by
  have foreign : isForeignDigit (Char.ofNat 0x663) = true := by decide
  have nothing : integer ((Numeral.ofNat 15).toText ++ [Char.ofNat 0x663]) = 0 := by
    rw [integer, Numeral.number_foreign _ foreign, Binary64.truncate_zero]
    decide
  have fifteen : integer (Numeral.ofNat 15).toText = 15 := by
    rw [Numeral.toText_ofNat]
    exact integer_ofNat (by decide)
  have apart : integer ((Numeral.ofNat 15).toText ++ [Char.ofNat 0x663]) ≠ integer (Numeral.ofNat 15).toText := by
    rw [nothing, fifteen]
    decide
  refine ⟨Numeral.ofNat 15, [Char.ofNat 0x663], ?_, ?_, apart⟩
  · rintro c ⟨⟩
    decide
  · intro same
    exact apart (by rw [integer, same, integer])

end Coercion
end MapEmbed
