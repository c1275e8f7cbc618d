import MapEmbed.Text.Digits

/-!
# Escaping with character references

Two ways to write a text into markup. `escape` is for values that authors may already have written with
references: it leaves every complete reference as it is, so that a second pass changes nothing. `encode` is for
decoded text, in which an ampersand is always an ampersand.
-/

namespace MapEmbed.Text

/-- The five characters that markup reserves, each with the reference that stands for it. -/
def reserved? (c : Char) : Option Text :=
  if c = '&' then some "&amp;".toList
  else if c = '<' then some "&lt;".toList
  else if c = '>' then some "&gt;".toList
  else if c = '"' then some "&quot;".toList
  else if c = '\x27' then some "&#039;".toList
  else none

/-- Whether a text is a non-empty run of the given characters, a semicolon, and then anything. -/
def runThenSemicolon (member : Char → Bool) : Text → Bool
  | [] => false
  | c :: rest => member c && (rest.dropWhile member).head? == some ';'

/-- Whether the text after an ampersand completes a character reference: a name (a letter, then letters and
digits), decimal digits after `#`, or hexadecimal digits after `#x`, each closed by a semicolon. -/
def completesReference : Text → Bool
  | '#' :: 'x' :: rest => runThenSemicolon isHexDigit rest
  | '#' :: 'X' :: rest => runThenSemicolon isHexDigit rest
  | '#' :: rest => runThenSemicolon Unicode.isAsciiDigit rest
  | c :: rest => Unicode.isAsciiLetter c && (rest.dropWhile Unicode.isAsciiAlphanumeric).head? == some ';'
  | [] => false

/-- Writes a reference for each reserved character, but keeps an ampersand that starts a complete reference. -/
def escape : Text → Text
  | [] => []
  | c :: rest =>
    if c = '&' ∧ completesReference rest = true then
      c :: escape rest
    else
      (reserved? c).getD [c] ++ escape rest

/-- Writes a reference for each reserved character, every ampersand included. -/
def encode : Text → Text
  | [] => []
  | c :: rest => (reserved? c).getD [c] ++ encode rest

@[simp] theorem encode_append (front back : Text) : encode (front ++ back) = encode front ++ encode back := by
  induction front with
  | nil => rfl
  | cons c rest ih => simp [encode, ih]

end MapEmbed.Text
