import MapEmbed.Shortcode.Reader
import MapEmbed.Text.Edit

/-!
# Segmentation of a text

A text is a sequence of gaps and shortcodes: each occurrence with the gap before it, and a tail after the last.
Occurrences are found from left to right and do not overlap; what stands inside one is not looked at again.
Replacing puts other texts in the place of the occurrences and copies the gaps.
-/

namespace MapEmbed.Shortcode

/-- A text cut into gaps and occurrences. -/
structure Segmentation where
  /-- Each occurrence with the gap before it. -/
  pieces : List (Text × Occurrence)
  /-- The gap after the last occurrence. -/
  tail : Text
  deriving DecidableEq, Repr

namespace Segmentation

/-- The cut of a text without shortcodes. -/
def plain (text : Text) : Segmentation := ⟨[], text⟩

/-- Puts a character in front of the first gap. -/
def pushChar (c : Char) : Segmentation → Segmentation
  | ⟨[], tail⟩ => ⟨[], c :: tail⟩
  | ⟨(gap, o) :: rest, tail⟩ => ⟨(c :: gap, o) :: rest, tail⟩

/-- Puts an occurrence in front, with an empty gap before it. -/
def pushOccurrence (o : Occurrence) (s : Segmentation) : Segmentation :=
  ⟨([], o) :: s.pieces, s.tail⟩

/-- Cuts a text, after passing over the given number of characters, which belong to an occurrence already
found. Where no occurrence starts at a bracket, the search goes on at the next character. -/
def scan (mode : CaseMode) (tags : List Text) : Nat → Text → Segmentation
  | _, [] => plain []
  | passed + 1, _ :: rest => scan mode tags passed rest
  | 0, c :: rest =>
    if c = '[' then
      match Occurrence.take? mode tags rest with
      | some (o, after) => (scan mode tags (rest.length - after.length) rest).pushOccurrence o
      | none => (scan mode tags 0 rest).pushChar c
    else
      (scan mode tags 0 rest).pushChar c

/-- The cut of a text at the occurrences of the given tags. -/
def ofText (mode : CaseMode) (tags : List Text) (text : Text) : Segmentation :=
  scan mode tags 0 text

/-- The occurrences from left to right. -/
def occurrences (s : Segmentation) : List Occurrence :=
  s.pieces.map Prod.snd

/-- Replaces each occurrence by a text that may depend on its number, and copies the gaps. -/
def replaceFrom (replacement : Nat → Occurrence → Text) (number : Nat) :
    List (Text × Occurrence) → Text → Text
  | [], tail => tail
  | (gap, o) :: rest, tail =>
    gap ++ (replacement number o ++ replaceFrom replacement (number + 1) rest tail)

/-- Replaces each occurrence, counted from 0, and copies the gaps. -/
def replace (s : Segmentation) (replacement : Nat → Occurrence → Text) : Text :=
  replaceFrom replacement 0 s.pieces s.tail

/-- The text that was cut. -/
def toText (s : Segmentation) : Text :=
  s.replace fun _ o => o.source

/-- A character in front of the cut is one in front of the text. -/
theorem toText_pushChar (c : Char) (s : Segmentation) : (s.pushChar c).toText = c :: s.toText := by
  obtain ⟨pieces, tail⟩ := s
  cases pieces <;> rfl

/-- Replacements that ignore the number do not depend on where the count begins. -/
theorem replaceFrom_number (source : Occurrence → Text) (first second : Nat)
    (pieces : List (Text × Occurrence)) (tail : Text) :
    replaceFrom (fun _ o => source o) first pieces tail = replaceFrom (fun _ o => source o) second pieces tail := by
  induction pieces generalizing first second with
  | nil => rfl
  | cons piece rest ih => simp only [replaceFrom]; rw [ih (first + 1) (second + 1)]

/-- An occurrence in front of the cut is its source in front of the text. -/
theorem toText_pushOccurrence (o : Occurrence) (s : Segmentation) :
    (s.pushOccurrence o).toText = o.source ++ s.toText := by
  simp only [toText, replace, pushOccurrence, replaceFrom, List.nil_append]
  rw [replaceFrom_number Occurrence.source 1 0]

/-- The cut holds all of the text that is not passed over. -/
theorem toText_scan (mode : CaseMode) (tags : List Text) (passed : Nat) (text : Text) :
    (scan mode tags passed text).toText = text.drop passed := by
  fun_induction scan mode tags passed text with
  | case1 => simp [plain, toText, replace, replaceFrom]
  | case2 passed c rest ih => simpa using ih
  | case3 rest o after taken ih =>
    rw [toText_pushOccurrence, ih, Occurrence.drop_source taken]
    exact (Occurrence.source_append taken).symm
  | case4 rest _ ih => simpa [toText_pushChar] using ih
  | case5 c rest _ ih => simpa [toText_pushChar] using ih

/-- Cutting loses nothing. -/
theorem toText_ofText (mode : CaseMode) (tags : List Text) (text : Text) :
    (ofText mode tags text).toText = text := by
  simp [ofText, toText_scan]

/-- Where occurrences start, in bytes, the first gap starting at `offset`. -/
def locateFrom (offset : Nat) : List (Text × Occurrence) → List (Nat × Occurrence)
  | [] => []
  | (gap, o) :: rest =>
    let start := offset + gap.byteSize
    (start, o) :: locateFrom (start + o.source.byteSize) rest

/-- The occurrences, each with the byte at which it starts. -/
def located (s : Segmentation) : List (Nat × Occurrence) :=
  locateFrom 0 s.pieces

end Segmentation

/-- The bytes that an occurrence takes up when it starts at a given byte. -/
def Occurrence.span (o : Occurrence) (start : Nat) : Text.Span :=
  ⟨start, start + o.source.byteSize⟩

/-- The bytes that its opening tag takes up. -/
def Occurrence.openingSpan (o : Occurrence) (start : Nat) : Text.Span :=
  ⟨start, start + o.opening.byteSize⟩

end MapEmbed.Shortcode
