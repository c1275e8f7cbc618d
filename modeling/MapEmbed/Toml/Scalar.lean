import MapEmbed.Toml.Basic
import MapEmbed.Text.Digits
import MapEmbed.Number.Binary64

/-!
# Single values of a settings text

Readers for strings in their four forms, numbers and dates. Each takes what it reads off the front of a text and
returns the rest.
-/

namespace MapEmbed.Toml

/-- A blank within a line. -/
def isLineBlank (c : Char) : Bool :=
  c == ' ' || c == '\t'

/-- The text without the blanks in front. -/
def skipLineBlanks (text : Text) : Text :=
  text.dropWhile isLineBlank

/-- May stand in a string or a comment: a tab, or no control character. -/
def isPlainChar (c : Char) : Bool :=
  c == '\t' || (decide (0x20 ≤ c.toNat) && c.toNat != 0x7F)

/-- Takes a line end. -/
def takeLineEnd? : Text → Option Text
  | '\n' :: rest => some rest
  | '\r' :: '\n' :: rest => some rest
  | _ => none

/-- The text after a line end, or the text itself. -/
def dropLineEnd (text : Text) : Text :=
  (takeLineEnd? text).getD text

/-! ### Strings -/

/-- The character of a number, unless it is none. -/
def scalar? (number : Nat) : Option Char :=
  if number < 0xD800 ∨ (0xE000 ≤ number ∧ number < 0x110000) then some (Char.ofNat number) else none

/-- The character that the given number of hexadecimal digits in front of a text denote. -/
def hexEscape? (count : Nat) (text : Text) : Option Char :=
  let digits := text.take count
  if digits.length = count ∧ digits.all Text.isHexDigit = true then scalar? (Text.valueInBase 16 digits) else none

/-- The character that the text after a backslash denotes, and how many characters that takes. -/
def escape? : Text → Option (Char × Nat)
  | [] => none
  | c :: rest =>
    if c = 'b' then some ('\x08', 1)
    else if c = 't' then some ('\t', 1)
    else if c = 'n' then some ('\n', 1)
    else if c = 'f' then some ('\x0c', 1)
    else if c = 'r' then some ('\r', 1)
    else if c = '"' ∨ c = '\\' then some (c, 1)
    else if c = 'u' then (hexEscape? 4 rest).map fun found => (found, 5)
    else if c = 'U' then (hexEscape? 8 rest).map fun found => (found, 9)
    else none

/-- Takes the rest of a string in double quotes, after passing over some characters of an escape. -/
def takeBasic? : Nat → Text → Option (Text × Text)
  | _, [] => none
  | passed + 1, _ :: rest => takeBasic? passed rest
  | 0, c :: rest =>
    if c = '"' then some ([], rest)
    else if c = '\\' then
      match escape? rest with
      | none => none
      | some (found, count) => (takeBasic? count rest).map fun (text, after) => (found :: text, after)
    else if isPlainChar c then (takeBasic? 0 rest).map fun (text, after) => (c :: text, after)
    else none

/-- Takes the rest of a string in single quotes, which has no escapes. -/
def takeLiteral? : Text → Option (Text × Text)
  | [] => none
  | c :: rest =>
    if c = '\x27' then some ([], rest)
    else if isPlainChar c then (takeLiteral? rest).map fun (text, after) => (c :: text, after)
    else none

/-- The end of a string in three quotes: up to two further quotes belong to the string. -/
def endsMulti? (quote : Char) (text : Text) : Option (Text × Text) :=
  let run := (text.takeWhile (· == quote)).length
  if run < 3 then none
  else
    let kept := min (run - 3) 2
    some (List.replicate kept quote, text.drop (kept + 3))

/-- Whether a line ends after blanks. -/
def endsLine (text : Text) : Bool :=
  (takeLineEnd? (skipLineBlanks text)).isSome

/-- Takes the rest of a string in three double quotes, after passing over some characters of an escape. A backslash
at the end of a line passes over all blanks and line ends that follow. -/
def takeMultiBasic? : Nat → Bool → Text → Option (Text × Text)
  | _, _, [] => none
  | passed + 1, skipping, _ :: rest => takeMultiBasic? passed skipping rest
  | 0, skipping, c :: rest =>
    if skipping && (isLineBlank c || c == '\n' || (c == '\r' && rest.head? == some '\n')) then
      takeMultiBasic? 0 true rest
    else
      match endsMulti? '"' (c :: rest) with
      | some found => some found
      | none =>
        if c = '\\' then
          if endsLine rest then takeMultiBasic? 0 true rest
          else
            match escape? rest with
            | none => none
            | some (found, count) =>
              (takeMultiBasic? count false rest).map fun (text, after) => (found :: text, after)
        else if c = '\n' ∨ isPlainChar c = true then
          (takeMultiBasic? 0 false rest).map fun (text, after) => (c :: text, after)
        else if c = '\r' ∧ rest.head? = some '\n' then takeMultiBasic? 0 false rest
        else none

/-- Takes the rest of a string in three single quotes. -/
def takeMultiLiteral? : Text → Option (Text × Text)
  | [] => none
  | c :: rest =>
    match endsMulti? '\x27' (c :: rest) with
    | some found => some found
    | none =>
      if c = '\n' ∨ isPlainChar c = true then
        (takeMultiLiteral? rest).map fun (text, after) => (c :: text, after)
      else if c = '\r' ∧ rest.head? = some '\n' then takeMultiLiteral? rest
      else none

/-- Takes a string in any of its forms. -/
def takeString? : Text → Option (Text × Text)
  | '"' :: '"' :: '"' :: rest => takeMultiBasic? 0 false (dropLineEnd rest)
  | '"' :: rest => takeBasic? 0 rest
  | '\x27' :: '\x27' :: '\x27' :: rest => takeMultiLiteral? (dropLineEnd rest)
  | '\x27' :: rest => takeLiteral? rest
  | _ => none

/-! ### Numbers -/

/-- Takes the digits that follow a digit; single low lines may stand between digits. -/
def takeMoreDigits (isDigit : Char → Bool) : Text → Text × Text
  | [] => ([], [])
  | '_' :: c :: rest =>
    if isDigit c then
      let (digits, after) := takeMoreDigits isDigit rest
      (c :: digits, after)
    else ([], '_' :: c :: rest)
  | c :: rest =>
    if isDigit c then
      let (digits, after) := takeMoreDigits isDigit rest
      (c :: digits, after)
    else ([], c :: rest)

/-- Takes a run of digits, of which there must be at least one. -/
def takeDigitRun? (isDigit : Char → Bool) : Text → Option (Text × Text)
  | [] => none
  | c :: rest =>
    if isDigit c then
      let (digits, after) := takeMoreDigits isDigit rest
      some (c :: digits, after)
    else none

/-- The integers of 64 bits. -/
def inRange (n : Int) : Bool :=
  decide (-Int.pow 2 63 ≤ n) && decide (n < Int.pow 2 63)

/-- Takes a number in another base, after its mark. -/
def takeBased? (base : Nat) (isDigit : Char → Bool) (text : Text) : Option (Value × Text) :=
  (takeDigitRun? isDigit text).bind fun (digits, after) =>
    let magnitude := Text.valueInBase base digits
    if inRange magnitude then some (.integer magnitude, after) else none

/-- Takes a sign: whether it is a minus, and the rest. -/
def takeSign : Text → Bool × Text
  | '-' :: rest => (true, rest)
  | '+' :: rest => (false, rest)
  | text => (false, text)

/-- Takes the exponent of a number; without one there is nothing. -/
def takeExponent? : Text → Option ((Bool × Text) × Text)
  | [] => none
  | mark :: rest =>
    if mark = 'e' ∨ mark = 'E' then
      let (negative, unsigned) := takeSign rest
      (takeDigitRun? Unicode.isAsciiDigit unsigned).map fun (digits, after) => ((negative, digits), after)
    else none

/-- Takes the fraction of a number; without one there is nothing. -/
def takeFraction? : Text → Option (Text × Text)
  | '.' :: rest => takeDigitRun? Unicode.isAsciiDigit rest
  | _ => none

/-- Whether a positive number is too great for the binary format. -/
def isTooGreat (negative : Bool) (digits : Text) (exponent : Int) : Bool :=
  !negative && (Binary64.ofDecimal? false (Text.digitsValue 0 digits) exponent).isNone

/-- The value of a number with its whole part, its fraction and its exponent. -/
def numberValue? (negative : Bool) (whole : Text) (fraction : Option Text) (exponent : Option (Bool × Text)) :
    Option Value :=
  match fraction, exponent with
  | none, none =>
    let magnitude : Int := Text.digitsValue 0 whole
    let value := if negative then -magnitude else magnitude
    if inRange value then some (.integer value) else none
  | _, _ =>
    let places := fraction.getD []
    let raised : Int :=
      match exponent with
      | none => 0
      | some (true, digits) => -Text.digitsValue 0 digits
      | some (false, digits) => Text.digitsValue 0 digits
    if isTooGreat negative (whole ++ places) (raised - places.length) then none
    else some (.float (whole ++ '.' :: places))

/-- Takes a decimal number. A leading zero stands alone. -/
def takeDecimal? (text : Text) : Option (Value × Text) :=
  let (negative, unsigned) := takeSign text
  (takeDigitRun? Unicode.isAsciiDigit unsigned).bind fun (whole, afterWhole) =>
    if whole.head? = some '0' ∧ 1 < whole.length then none
    else
      match takeFraction? afterWhole with
      | some (fraction, afterFraction) =>
        match takeExponent? afterFraction with
        | some (exponent, after) =>
          (numberValue? negative whole (some fraction) (some exponent)).map fun value => (value, after)
        | none => (numberValue? negative whole (some fraction) none).map fun value => (value, afterFraction)
      | none =>
        match takeExponent? afterWhole with
        | some (exponent, after) =>
          (numberValue? negative whole none (some exponent)).map fun value => (value, after)
        | none => (numberValue? negative whole none none).map fun value => (value, afterWhole)

/-- Takes one of the two words for numbers that are none. -/
def takeSpecial? (text : Text) : Option (Value × Text) :=
  let (_, unsigned) := takeSign text
  let word := unsigned.take 3
  if word = "inf".toList ∨ word = "nan".toList then some (.float word, unsigned.drop 3) else none

/-- Takes a number in any base. -/
def takeNumber? : Text → Option (Value × Text)
  | '0' :: 'x' :: rest => takeBased? 16 Text.isHexDigit rest
  | '0' :: 'o' :: rest => takeBased? 8 (fun c => decide ('0' ≤ c) && decide (c ≤ '7')) rest
  | '0' :: 'b' :: rest => takeBased? 2 (fun c => c == '0' || c == '1') rest
  | text => takeSpecial? text <|> takeDecimal? text

/-! ### Dates -/

/-- Takes exactly so many digits: the number, and the rest. -/
def takeExactly? (count : Nat) (text : Text) : Option (Nat × Text) :=
  let digits := text.take count
  if digits.length = count ∧ digits.all Unicode.isAsciiDigit = true then
    some (Text.digitsValue 0 digits, text.drop count)
  else none

/-- Takes one given character. -/
def takeChar? (wanted : Char) : Text → Option Text
  | [] => none
  | c :: rest => if c = wanted then some rest else none

/-- The number of days of a month. -/
def daysIn (year month : Nat) : Nat :=
  if month = 2 then
    if year % 4 = 0 ∧ (year % 100 ≠ 0 ∨ year % 400 = 0) then 29 else 28
  else if month = 4 ∨ month = 6 ∨ month = 9 ∨ month = 11 then 30
  else 31

/-- Takes a day. -/
def takeDay? (text : Text) : Option Text := do
  let (year, afterYear) ← takeExactly? 4 text
  let (month, afterMonth) ← takeExactly? 2 (← takeChar? '-' afterYear)
  let (day, after) ← takeExactly? 2 (← takeChar? '-' afterMonth)
  if 1 ≤ month ∧ month ≤ 12 ∧ 1 ≤ day ∧ day ≤ daysIn year month then some after else none

/-- Passes over the parts of a second. -/
def skipSecondParts (text : Text) : Text :=
  match text with
  | '.' :: c :: rest =>
    if Unicode.isAsciiDigit c then rest.dropWhile Unicode.isAsciiDigit else text
  | _ => text

/-- Takes a time of day. The sixty-first second is a leap second. -/
def takeTime? (text : Text) : Option Text := do
  let (hour, afterHour) ← takeExactly? 2 text
  let (minute, afterMinute) ← takeExactly? 2 (← takeChar? ':' afterHour)
  let (second, after) ← takeExactly? 2 (← takeChar? ':' afterMinute)
  if hour ≤ 23 ∧ minute ≤ 59 ∧ second ≤ 60 then some (skipSecondParts after) else none

/-- Passes over the distance from universal time, if one is given. -/
def skipOffset (text : Text) : Text :=
  match text with
  | [] => []
  | c :: rest =>
    if c = 'Z' ∨ c = 'z' then rest
    else if c = '+' ∨ c = '-' then
      let offset? : Option Text := do
        let (hour, afterHour) ← takeExactly? 2 rest
        let (minute, after) ← takeExactly? 2 (← takeChar? ':' afterHour)
        if hour ≤ 23 ∧ minute ≤ 59 then some after else none
      offset?.getD text
    else text

/-- Takes a date, a time, or both. -/
def takeDate? (text : Text) : Option (Value × Text) :=
  match takeDay? text with
  | none => (takeTime? text).map fun after => (.date, after)
  | some afterDay =>
    match afterDay with
    | [] => some (.date, [])
    | c :: rest =>
      if c = 'T' ∨ c = 't' ∨ c = ' ' then
        match takeTime? rest with
        | some afterTime => some (.date, skipOffset afterTime)
        | none => some (.date, afterDay)
      else some (.date, afterDay)

end MapEmbed.Toml
