import MapEmbed.Unicode.Alphabetic
import MapEmbed.Unicode.Mark
import MapEmbed.Unicode.Numeral
import MapEmbed.Unicode.Separator

/-!
# Character classes

The classes by which shortcodes, attributes and numbers are read. Each is a union of Unicode properties; the
seven-bit characters are decided without a table, which the small lemmas below make available to proofs.
-/

namespace MapEmbed.Unicode

/-- Separates words: the property `White_Space`. -/
def isBlank (c : Char) : Bool :=
  whiteSpace.includes c.toNat

/-- One of the ten seven-bit digits. -/
def isAsciiDigit (c : Char) : Bool :=
  decide ('0' ≤ c) && decide (c ≤ '9')

/-- A seven-bit letter of either case. -/
def isAsciiLetter (c : Char) : Bool :=
  (decide ('a' ≤ c) && decide (c ≤ 'z')) || (decide ('A' ≤ c) && decide (c ≤ 'Z'))

/-- A seven-bit letter or digit. -/
def isAsciiAlphanumeric (c : Char) : Bool :=
  isAsciiLetter c || isAsciiDigit c

/-- A decimal digit of any script. -/
def isDigit (c : Char) : Bool :=
  if c.toNat < 128 then isAsciiDigit c else decimalDigit.includes c.toNat

/-- A letter or a numeral of any script: `Alphabetic`, `Nd` and `No` (`Nl` is alphabetic). -/
def isAlphanumeric (c : Char) : Bool :=
  if c.toNat < 128 then
    isAsciiAlphanumeric c
  else
    alphabetic.includes c.toNat || decimalDigit.includes c.toNat || otherNumber.includes c.toNat

/-- May stand in a word: `Alphabetic`, marks, `Nd`, connector punctuation and the joiners. -/
def isWordChar (c : Char) : Bool :=
  if c.toNat < 128 then
    isAsciiAlphanumeric c || c == '_'
  else
    alphabetic.includes c.toNat || mark.includes c.toNat || decimalDigit.includes c.toNat ||
      connectorPunctuation.includes c.toNat || joinControl.includes c.toNat

/-- A control character: the seven-bit ones, delete, and the eight-bit ones. -/
def isControl (c : Char) : Bool :=
  decide (c.toNat < 0x20) || (decide (0x7F ≤ c.toNat) && decide (c.toNat ≤ 0x9F))

end MapEmbed.Unicode
