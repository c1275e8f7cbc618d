import MapEmbed.Text.Digits

/-!
# Decoding character references

A reference is an ampersand and then a number after `#`, or a known name. A number needs no semicolon, and of the
names only the oldest need none. The longest name that fits is taken; in an attribute a name without semicolon is
left alone where a letter, a digit or an equals sign follows. Which names are known is a table that the reader is
given.
-/

namespace MapEmbed.Html

/-- Names, with their semicolon where it is required, and what they stand for. -/
abbrev ReferenceTable := List (Text × Text)

/-- The names that are used here. -/
def namedReferences : ReferenceTable :=
  [("amp", [0x26]), ("lt", [0x3C]), ("gt", [0x3E]), ("quot", [0x22]), ("nbsp", [0xA0]), ("copy", [0xA9]),
    ("not", [0xAC]), ("eacute", [0xE9]), ("auml", [0xE4]), ("ouml", [0xF6]), ("uuml", [0xFC]),
    ("szlig", [0xDF]), ("AMP", [0x26]), ("LT", [0x3C]), ("GT", [0x3E]),
    ("amp;", [0x26]), ("lt;", [0x3C]), ("gt;", [0x3E]), ("quot;", [0x22]), ("nbsp;", [0xA0]), ("copy;", [0xA9]),
    ("not;", [0xAC]), ("eacute;", [0xE9]), ("auml;", [0xE4]), ("ouml;", [0xF6]), ("uuml;", [0xFC]),
    ("szlig;", [0xDF]), ("AMP;", [0x26]), ("LT;", [0x3C]), ("GT;", [0x3E]),
    ("apos;", [0x27]), ("euro;", [0x20AC]), ("hellip;", [0x2026]), ("mdash;", [0x2014]),
    ("ThickSpace;", [0x205F, 0x200A])].map fun (name, points) => (name.toList, points.map Char.ofNat)

/-- The code points that old pages mean by the numbers 128 to 159. -/
def c1Replacements : List (Nat × Nat) :=
  [(0x80, 0x20AC), (0x82, 0x201A), (0x83, 0x0192), (0x84, 0x201E), (0x85, 0x2026), (0x86, 0x2020),
    (0x87, 0x2021), (0x88, 0x02C6), (0x89, 0x2030), (0x8A, 0x0160), (0x8B, 0x2039), (0x8C, 0x0152),
    (0x8E, 0x017D), (0x91, 0x2018), (0x92, 0x2019), (0x93, 0x201C), (0x94, 0x201D), (0x95, 0x2022),
    (0x96, 0x2013), (0x97, 0x2014), (0x98, 0x02DC), (0x99, 0x2122), (0x9A, 0x0161), (0x9B, 0x203A),
    (0x9C, 0x0153), (0x9E, 0x017E), (0x9F, 0x0178)]

/-- The character that stands for what cannot be decoded. -/
def replacementChar : Char := Char.ofNat 0xFFFD

/-- The character of a number: zero, surrogates and numbers that are too great have none. -/
def charOfNumber (number : Nat) : Char :=
  if number = 0 ∨ 0x10FFFF < number ∨ (0xD800 ≤ number ∧ number < 0xE000) then replacementChar
  else Char.ofNat ((c1Replacements.lookup number).getD number)

/-- A digit of a decimal or a hexadecimal number. -/
def isReferenceDigit (hexadecimal : Bool) (c : Char) : Bool :=
  if hexadecimal then Text.isHexDigit c else Unicode.isAsciiDigit c

/-- The digits of a numeric reference with its base and what follows them, from the text after the ampersand. -/
def numericParts? : Text → Option (Bool × Text × Text)
  | '#' :: 'x' :: rest => some (parts true rest)
  | '#' :: 'X' :: rest => some (parts true rest)
  | '#' :: rest => some (parts false rest)
  | _ => none
where
  /-- Cuts after the digits. -/
  parts (hexadecimal : Bool) (rest : Text) : Bool × Text × Text :=
    (hexadecimal, rest.takeWhile (isReferenceDigit hexadecimal), rest.dropWhile (isReferenceDigit hexadecimal))

/-- Whether the text collected after an ampersand goes on with a character. -/
def continuesReference (names : ReferenceTable) (seen : Text) (c : Char) : Bool :=
  match numericParts? seen with
  | some (hexadecimal, digits, after) =>
    after.isEmpty &&
      (isReferenceDigit hexadecimal c || (c == ';' && !digits.isEmpty) ||
        (seen.length == 1 && (c == 'x' || c == 'X')))
  | none => (seen.isEmpty && c == '#') || names.any fun (name, _) => (seen ++ [c]).isPrefixOf name

/-- The longest known name that starts a text. -/
def longestName? (names : ReferenceTable) (seen : Text) : Option (Text × Text) :=
  names.foldl (fun best entry =>
    if entry.1.isPrefixOf seen && (best.map fun b => b.1.length).getD 0 < entry.1.length then some entry
    else best) none

/-- A decoded reference. -/
structure Decoded where
  /-- The characters that take the place of the ampersand and what was collected after it. -/
  chars : Text
  /-- Whether a numeric reference lacks its semicolon, which is a fault of the markup. -/
  unterminated : Bool
  deriving DecidableEq, Repr

/-- Decodes what was collected after an ampersand, `next` being the character that ended it. -/
def decodeReference (names : ReferenceTable) (inAttribute : Bool) (seen : Text) (next : Option Char) : Decoded :=
  match numericParts? seen with
  | some (hexadecimal, digits, after) =>
    if digits.isEmpty then ⟨'&' :: seen, false⟩
    else ⟨[charOfNumber (Text.valueInBase (if hexadecimal then 16 else 10) digits)], after.isEmpty⟩
  | none =>
    match longestName? names seen with
    | none => ⟨'&' :: seen, false⟩
    | some (name, chars) =>
      let left := seen.drop name.length
      let follower := left.head?.or next
      let kept := inAttribute && name.getLast? != some ';' &&
        (follower.map fun c => c == '=' || Unicode.isAsciiAlphanumeric c).getD false
      if kept then ⟨'&' :: seen, false⟩ else ⟨chars ++ left, false⟩

end MapEmbed.Html
