import MapEmbed.Number.Binary64
import MapEmbed.Unicode.Letter

/-!
# Reading attribute values

Authors write numbers and switches as they like, so every text has a value. A number is what the text starts
with, units and other remains ignored; a text that starts with no number counts as zero. A switch is on for four
words and off for all others.
-/

namespace MapEmbed.Coercion

/-- A decimal literal, cut into its parts. Digits may be of any script. -/
structure Literal where
  negative : Bool
  whole : Text
  fraction : Text
  exponentNegative : Bool
  exponent : Text
  deriving DecidableEq, Repr

/-- Takes a sign off the front of a text: whether it is a minus, and the rest. -/
def takeSign : Text → Bool × Text
  | '-' :: rest => (true, rest)
  | '+' :: rest => (false, rest)
  | text => (false, text)

/-- Takes the digits before and after the point: at least one digit must stand on either side. -/
def takeMantissa? (text : Text) : Option (Text × Text × Text) :=
  let whole := text.takeWhile Unicode.isDigit
  match text.dropWhile Unicode.isDigit with
  | '.' :: rest =>
    let fraction := rest.takeWhile Unicode.isDigit
    if whole.isEmpty && fraction.isEmpty then none
    else some (whole, fraction, rest.dropWhile Unicode.isDigit)
  | rest => if whole.isEmpty then none else some (whole, [], rest)

/-- Takes an exponent; without a digit after its mark there is none. -/
def takeExponent : Text → Bool × Text
  | [] => (false, [])
  | mark :: rest =>
    if mark = 'e' ∨ mark = 'E' then
      let (negative, digits) := takeSign rest
      (negative, digits.takeWhile Unicode.isDigit)
    else
      (false, [])

/-- The literal that a text starts with, after blanks. -/
def leadingLiteral? (text : Text) : Option Literal :=
  let (negative, unsigned) := takeSign (text.dropWhile Unicode.isBlank)
  (takeMantissa? unsigned).map fun (whole, fraction, rest) =>
    let (exponentNegative, exponent) := takeExponent rest
    ⟨negative, whole, fraction, exponentNegative, exponent⟩

/-- The number nearest to a literal. A digit outside the seven-bit ones makes it unreadable, and a literal may
be beyond the greatest number. -/
def Literal.value? (l : Literal) : Option Binary64 :=
  if (l.whole ++ l.fraction ++ l.exponent).all Unicode.isAsciiDigit then
    let raised : Int := Text.digitsValue 0 l.exponent
    let exponent := (if l.exponentNegative then -raised else raised) - l.fraction.length
    Binary64.ofDecimal? l.negative (Text.digitsValue 0 (l.whole ++ l.fraction)) exponent
  else
    none

/-- The number that a text starts with, or zero. -/
def number (text : Text) : Binary64 :=
  ((leadingLiteral? text).bind Literal.value?).getD (Binary64.zero false)

/-- The nearest integer of 64 bits. -/
def saturate (n : Int) : Int :=
  max (-Int.pow 2 63) (min n (Int.pow 2 63 - 1))

/-- The whole part of the number that a text starts with, within 64 bits. -/
def integer (text : Text) : Int :=
  saturate (number text).truncate

/-- The words that switch something on. -/
def onWords : List Text :=
  ["1".toList, "true".toList, "on".toList, "yes".toList]

/-- Whether a text, without blanks around it and in any seven-bit case, is one of the words for on. -/
def truth (text : Text) : Bool :=
  onWords.contains (text.trim.map Unicode.asciiLower)

end MapEmbed.Coercion
