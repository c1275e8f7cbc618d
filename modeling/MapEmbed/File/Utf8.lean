import MapEmbed.Text.Basic

/-!
# Texts as bytes

Files hold bytes; documents are texts in UTF-8. The decoder keeps what a character still lacks between two bytes:
how many bytes, the value so far, and the range of the next byte, which excludes overlong forms, surrogates and
values that are too great. A byte that does not fit ends the character as a fault and is looked at afresh.
-/

namespace MapEmbed.Utf8

/-- A character of which some bytes are still to come. -/
structure Pending where
  /-- How many bytes are to come; at least one. -/
  missing : Nat
  value : Nat
  least : Nat
  most : Nat
  deriving DecidableEq, Repr

/-- Reads a byte at the start of a character: the characters it completes, and what is pending after it. A fault
is a character that is missing. -/
def start (byte : Nat) : List (Option Char) × Option Pending :=
  if byte < 0x80 then ([some (Char.ofNat byte)], none)
  else if byte < 0xC2 then ([none], none)
  else if byte < 0xE0 then ([], some ⟨1, byte - 0xC0, 0x80, 0xBF⟩)
  else if byte = 0xE0 then ([], some ⟨2, 0, 0xA0, 0xBF⟩)
  else if byte = 0xED then ([], some ⟨2, 0xD, 0x80, 0x9F⟩)
  else if byte < 0xF0 then ([], some ⟨2, byte - 0xE0, 0x80, 0xBF⟩)
  else if byte = 0xF0 then ([], some ⟨3, 0, 0x90, 0xBF⟩)
  else if byte < 0xF4 then ([], some ⟨3, byte - 0xF0, 0x80, 0xBF⟩)
  else if byte = 0xF4 then ([], some ⟨3, 4, 0x80, 0x8F⟩)
  else ([none], none)

/-- Reads a byte after an unfinished character or at the start of one. -/
def step (state : Option Pending) (byte : Nat) : List (Option Char) × Option Pending :=
  match state with
  | none => start byte
  | some p =>
    if p.least ≤ byte ∧ byte ≤ p.most then
      let value := p.value * 64 + (byte - 0x80)
      if p.missing ≤ 1 then ([some (Char.ofNat value)], none)
      else ([], some ⟨p.missing - 1, value, 0x80, 0xBF⟩)
    else
      let (found, next) := start byte
      (none :: found, next)

/-- The characters of bytes, each fault as a missing one. An unfinished character at the end is a fault. -/
def scan : Option Pending → List UInt8 → List (Option Char)
  | none, [] => []
  | some _, [] => [none]
  | state, byte :: rest =>
    let (found, next) := step state byte.toNat
    found ++ scan next rest

/-- The text that bytes encode, if they encode one. -/
def decode? (bytes : List UInt8) : Option Text :=
  (scan none bytes).mapM id

/-- The text that bytes encode, with a substitute for each fault. -/
def decodeWith (substitute : Char) (bytes : List UInt8) : Text :=
  (scan none bytes).map fun found => found.getD substitute

/-- The bytes of a text. -/
def encode (text : Text) : List UInt8 :=
  text.flatMap String.utf8EncodeChar

end MapEmbed.Utf8
