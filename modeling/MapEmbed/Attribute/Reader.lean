import MapEmbed.Attribute.Basic
import MapEmbed.Unicode.Letter

/-!
# Reading attribute text

Attribute text is a sequence of lexemes between blanks. At each character that is not blank one lexeme starts:
a key with a quoted or bare value, a quoted value, or else everything up to the next blank. A quote that closes
must be followed by a blank or the end. A lexeme of the last kind that holds a quote is malformed: its quote
dangles.
-/

namespace MapEmbed

/-- One lexeme of attribute text. -/
inductive AttributeToken where
  | named (key value : Text)
  | positional (value : Text)
  | malformed (written : Text)
  deriving DecidableEq, Repr

/-- Why attribute text is refused. -/
inductive AttributeError where
  /-- A token has a quote that dangles; the first such token is named. -/
  | danglingQuote (token : Text)
  /-- There is no token at all. -/
  | noAttributes (text : Text)
  deriving DecidableEq, Repr

/-- The wording of an error. -/
def AttributeError.message : AttributeError → Text
  | .danglingQuote token => "dangling quote in `".toList ++ token ++ "`".toList
  | .noAttributes text => "no attributes in `".toList ++ text.trim ++ "`".toList

namespace AttributeToken

/-- May stand in a key. -/
def isKeyChar (c : Char) : Bool :=
  Unicode.isWordChar c || c == '-'

/-- One of the two characters that quote a value. -/
def isQuote (c : Char) : Bool :=
  c == '"' || c == '\x27'

/-- May stand in a value that is not quoted. -/
def isBareChar (c : Char) : Bool :=
  !Unicode.isBlank c && !isQuote c

/-- A lexeme ends at the end of the text or before a blank. -/
def endsLexeme : Text → Bool
  | [] => true
  | c :: _ => Unicode.isBlank c

/-- Takes a value in the given quotes off the front of a text. -/
def takeQuoted? (quote : Char) : Text → Option (Text × Text)
  | [] => none
  | c :: rest =>
    if c = quote then
      match rest.dropWhile (· != quote) with
      | [] => none
      | _ :: after => if endsLexeme after then some (rest.takeWhile (· != quote), after) else none
    else
      none

/-- Takes a value that is not quoted off the front of a text. -/
def takeBare? (text : Text) : Option (Text × Text) :=
  let value := text.takeWhile isBareChar
  let after := text.dropWhile isBareChar
  if value.isEmpty || !endsLexeme after then none else some (value, after)

/-- Takes the value of a key, in any of the three styles. -/
def takeValue? (text : Text) : Option (Text × Text) :=
  takeQuoted? '"' text <|> takeQuoted? '\x27' text <|> takeBare? text

/-- Takes a key with its value; blanks may stand around the equals sign. -/
def takeNamed? (text : Text) : Option (AttributeToken × Text) :=
  let key := text.takeWhile isKeyChar
  match (text.dropWhile isKeyChar).dropWhile Unicode.isBlank with
  | '=' :: rest =>
    if key.isEmpty then
      none
    else
      (takeValue? (rest.dropWhile Unicode.isBlank)).map fun (value, after) => (.named key value, after)
  | _ => none

/-- Takes a quoted value without a key. -/
def takePositional? (text : Text) : Option (AttributeToken × Text) :=
  (takeQuoted? '"' text <|> takeQuoted? '\x27' text).map fun (value, after) => (.positional value, after)

/-- Takes everything up to the next blank: a value, unless a quote is in it. -/
def takeWord (text : Text) : AttributeToken × Text :=
  let written := text.takeWhile fun c => !Unicode.isBlank c
  let after := text.dropWhile fun c => !Unicode.isBlank c
  (if written.any isQuote then .malformed written else .positional written, after)

/-- Takes the lexeme that starts a text; the text starts with a character that is not blank. -/
def take (text : Text) : AttributeToken × Text :=
  (takeNamed? text <|> takePositional? text).getD (takeWord text)

/-- The tokens of a text after passing over the given number of characters, which belong to a lexeme already
taken. -/
def scan : Nat → Text → List AttributeToken
  | _, [] => []
  | passed + 1, _ :: rest => scan passed rest
  | 0, c :: rest =>
    if Unicode.isBlank c then
      scan 0 rest
    else
      let (token, after) := take (c :: rest)
      token :: scan (rest.length - after.length) rest

/-- The invisible characters that editors leave behind count as spaces: the no-break space and the zero-width
space. -/
def normalize (text : Text) : Text :=
  text.map fun c => if c.toNat = 0xA0 ∨ c.toNat = 0x200B then ' ' else c

/-- The tokens of attribute text. -/
def ofText (text : Text) : List AttributeToken :=
  scan 0 (normalize text)

/-- The source of a malformed token. -/
def malformed? : AttributeToken → Option Text
  | .malformed written => some written
  | _ => none

end AttributeToken

namespace Attributes

/-- Adds tokens to attributes when `count` values without key came before. Keys are lowered; malformed tokens
are passed over. -/
def addTokens (attributes : Attributes) (count : Nat) : List AttributeToken → Attributes
  | [] => attributes
  | .named key value :: rest => addTokens (attributes.insert (Unicode.lower key) value) count rest
  | .positional value :: rest => addTokens (attributes.insert (Text.ofNat count) value) (count + 1) rest
  | .malformed _ :: rest => addTokens attributes count rest

/-- The attributes that tokens denote. -/
def ofTokens (tokens : List AttributeToken) : Attributes :=
  addTokens OrderedMap.empty 0 tokens

/-- Reads attribute text and passes over what is malformed. -/
def parseLenient (text : Text) : Attributes :=
  ofTokens (AttributeToken.ofText text)

/-- Reads attribute text, which must have an attribute and no malformed token. -/
def parse (text : Text) : Except AttributeError Attributes :=
  let tokens := AttributeToken.ofText text
  match tokens.findSome? AttributeToken.malformed? with
  | some token => .error (.danglingQuote token)
  | none =>
    let attributes := ofTokens tokens
    if attributes.isEmpty then .error (.noAttributes text) else .ok attributes

end Attributes
end MapEmbed
