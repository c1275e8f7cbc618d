import MapEmbed.Text.Basic

/-!
# Edits

Replacements of byte ranges of a text. The ranges are ascending, do not overlap and end on character boundaries;
whatever lies outside them is copied.
-/

namespace MapEmbed.Text

/-- A half-open range of bytes in the UTF-8 form of a text. -/
structure Span where
  start : Nat
  stop : Nat
  deriving DecidableEq, Repr

/-- A replacement for one range of a text. -/
structure Edit where
  span : Span
  replacement : Text
  deriving DecidableEq, Repr

/-- Splits a text after the given number of bytes; a character that the cut falls into goes to the front. -/
def splitAtByte : Text → Nat → Text × Text
  | [], _ => ([], [])
  | c :: rest, bytes =>
    if bytes = 0 then
      ([], c :: rest)
    else
      let (front, back) := splitAtByte rest (bytes - c.utf8Size)
      (c :: front, back)

/-- A cut loses nothing. -/
theorem splitAtByte_append (text : Text) (bytes : Nat) :
    (splitAtByte text bytes).1 ++ (splitAtByte text bytes).2 = text := by
  induction text generalizing bytes with
  | nil => rfl
  | cons c rest ih =>
    simp only [splitAtByte]
    split
    · rfl
    · simp [ih]

/-- Applies edits to the text that starts at byte `offset` of the whole. -/
def applyEditsFrom (offset : Nat) (text : Text) : List Edit → Text
  | [] => text
  | edit :: rest =>
    let (kept, after) := splitAtByte text (edit.span.start - offset)
    let (_, remaining) := splitAtByte after (edit.span.stop - edit.span.start)
    kept ++ edit.replacement ++ applyEditsFrom edit.span.stop remaining rest

/-- Applies edits in one pass from left to right. -/
def applyEdits (text : Text) (edits : List Edit) : Text :=
  applyEditsFrom 0 text edits

end MapEmbed.Text
