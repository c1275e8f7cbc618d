import MapEmbed.Json.Written
import MapEmbed.Text.Digits

/-!
# Reading data texts

A data text is one value with blanks around it. The readers take a value off the front of a text and return the
rest; the nesting is bounded by the length of the text, since every array and every item takes a character.
-/

namespace MapEmbed.Json

/-- The four blanks of the format. -/
def isJsonBlank (c : Char) : Bool :=
  c == ' ' || c == '\n' || c == '\t' || c == '\r'

/-- The text without the blanks in front. -/
def skipBlanks (text : Text) : Text :=
  text.dropWhile isJsonBlank

/-- The character that a backslash and a letter stand for. -/
def shortEscape? (c : Char) : Option Char :=
  if c = '"' ∨ c = '\\' ∨ c = '/' then some c
  else if c = 'b' then some '\x08'
  else if c = 'f' then some '\x0c'
  else if c = 'n' then some '\n'
  else if c = 'r' then some '\r'
  else if c = 't' then some '\t'
  else none

/-- Takes the rest of a string whose opening quote is taken. Control characters must be escaped. -/
def takeString? : Text → Option (List StringPart × Text)
  | [] => none
  | '\\' :: 'u' :: a :: b :: c :: d :: rest =>
    if [a, b, c, d].all Text.isHexDigit then
      (takeString? rest).map fun (parts, after) => (.unit (Text.valueInBase 16 [a, b, c, d]) :: parts, after)
    else
      none
  | '\\' :: letter :: rest =>
    match shortEscape? letter with
    | some c => (takeString? rest).map fun (parts, after) => (.char c :: parts, after)
    | none => none
  | c :: rest =>
    if c = '"' then some ([], rest)
    else if c = '\\' ∨ c.toNat < 0x20 then none
    else (takeString? rest).map fun (parts, after) => (.char c :: parts, after)

/-- Takes a run of digits, of which there must be at least one. -/
def takeDigits? (text : Text) : Option (Text × Text) :=
  let digits := text.takeWhile Unicode.isAsciiDigit
  if digits.isEmpty then none else some (digits, text.dropWhile Unicode.isAsciiDigit)

/-- Takes the fraction of a number: a point demands digits. -/
def takeFraction? : Text → Option (Option Text × Text)
  | '.' :: rest => (takeDigits? rest).map fun (digits, after) => (some digits, after)
  | text => some (none, text)

/-- Takes the exponent of a number: its mark demands digits. -/
def takeNumberExponent? : Text → Option (Option (Bool × Text) × Text)
  | [] => some (none, [])
  | mark :: rest =>
    if mark = 'e' ∨ mark = 'E' then
      let (negative, digits) :=
        match rest with
        | '-' :: digits => (true, digits)
        | '+' :: digits => (false, digits)
        | digits => (false, digits)
      (takeDigits? digits).map fun (digits, after) => (some (negative, digits), after)
    else
      some (none, mark :: rest)

/-- Takes a number. A leading zero stands alone. -/
def takeNumber? (text : Text) : Option (NumberText × Text) :=
  let (negative, unsigned) :=
    match text with
    | '-' :: rest => (true, rest)
    | rest => (false, rest)
  (takeDigits? unsigned).bind fun (whole, afterWhole) =>
    if whole.head? = some '0' ∧ 1 < whole.length then
      none
    else
      (takeFraction? afterWhole).bind fun (fraction, afterFraction) =>
        (takeNumberExponent? afterFraction).map fun (exponent, after) =>
          (⟨negative, whole, fraction, exponent⟩, after)

/-- Takes a word. -/
def takeWord? (word : String) (value : Written) (text : Text) : Option (Written × Text) :=
  if word.toList.isPrefixOf text then some (value, text.drop word.length) else none

mutual

/-- Takes a value; `fuel` bounds the number of nested steps. -/
def takeValue? : Nat → Text → Option (Written × Text)
  | 0, _ => none
  | fuel + 1, text =>
    match skipBlanks text with
    | [] => none
    | c :: rest =>
      if c = '"' then (takeString? rest).map fun (parts, after) => (.string parts, after)
      else if c = '[' then
        match skipBlanks rest with
        | ']' :: after => some (.array [], after)
        | items => (takeItems? fuel items).map fun (items, after) => (.array items, after)
      else if c = '\x7b' then
        match skipBlanks rest with
        | '\x7d' :: after => some (.object [], after)
        | fields => (takeFields? fuel fields).map fun (fields, after) => (.object fields, after)
      else if c = 'n' then takeWord? "null" .null (c :: rest)
      else if c = 't' then takeWord? "true" (.bool true) (c :: rest)
      else if c = 'f' then takeWord? "false" (.bool false) (c :: rest)
      else (takeNumber? (c :: rest)).map fun (written, after) => (.number written, after)

/-- Takes the items of an array that is not empty, and its closing bracket. -/
def takeItems? : Nat → Text → Option (List Written × Text)
  | 0, _ => none
  | fuel + 1, text =>
    match takeValue? fuel text with
    | none => none
    | some (item, afterItem) =>
      match skipBlanks afterItem with
      | ',' :: rest => (takeItems? fuel rest).map fun (items, after) => (item :: items, after)
      | ']' :: after => some ([item], after)
      | _ => none

/-- Takes the fields of an object that is not empty, and its closing brace. -/
def takeFields? : Nat → Text → Option (List (List StringPart × Written) × Text)
  | 0, _ => none
  | fuel + 1, text =>
    match skipBlanks text with
    | '"' :: quotedName =>
      match takeString? quotedName with
      | none => none
      | some (name, afterName) =>
        match skipBlanks afterName with
        | ':' :: rest =>
          match takeValue? fuel rest with
          | none => none
          | some (field, afterField) =>
            match skipBlanks afterField with
            | ',' :: more => (takeFields? fuel more).map fun (fields, after) => ((name, field) :: fields, after)
            | '\x7d' :: after => some ([(name, field)], after)
            | _ => none
        | _ => none
    | _ => none

end

/-- Reads a whole data text. -/
def Written.ofText? (text : Text) : Option Written :=
  match takeValue? (2 * text.length + 2) text with
  | some (value, rest) => if (skipBlanks rest).isEmpty then some value else none
  | none => none

/-- How deep arrays and objects may nest in a text whose value is asked for. -/
def greatestDepth : Nat := 127

/-- The value of a data text. -/
def parse? (text : Text) : Option Json :=
  (Written.ofText? text).bind (Written.value? greatestDepth)

end MapEmbed.Json
