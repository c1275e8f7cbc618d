import MapEmbed.Block.Basic
import MapEmbed.Style.Retired
import MapEmbed.Proofs.Attribute.Reprint

/-!
# Values that were escaped

A value may be read before or after it was escaped. Numbers, switches and words from a list are read alike either
way: no reserved character is part of any of them, and all that escaping changes comes behind the first of these.
-/

namespace MapEmbed

namespace Coercion

/-! ### Numbers -/

/-- Ends every number, and no number starts after it. -/
def endsNumber (c : Char) : Bool :=
  !Unicode.isBlank c && !Unicode.isDigit c && c != '-' && c != '+' && c != '.' && c != 'e' && c != 'E'

/-- Reserved characters end numbers. -/
theorem endsNumber_of_reserved {c : Char} (reserved : (Text.reserved? c).isSome = true) : endsNumber c = true :=
  List.all_eq_true.mp (by decide : ['&', '<', '>', '"', '\x27'].all endsNumber = true) c
    (Text.mem_of_reserved? reserved)

section
variable {c : Char}

/-- The sign is read before the character that ends the number. -/
theorem takeSign_ends (ends : endsNumber c = true) (front rest : Text) :
    takeSign (front ++ c :: rest) = ((takeSign front).1, (takeSign front).2 ++ c :: rest) := by
  simp only [endsNumber, Bool.and_eq_true, bne_iff_ne, ne_eq] at ends
  obtain ⟨⟨⟨⟨⟨-, minus⟩, plus⟩, -⟩, -⟩, -⟩ := ends
  cases front with
  | nil => simp [takeSign, minus, plus]
  | cons d others =>
    unfold takeSign
    split <;> simp_all

/-- So are the digits around the point. -/
theorem takeMantissa?_ends (ends : endsNumber c = true) (front rest : Text) :
    takeMantissa? (front ++ c :: rest) =
      (takeMantissa? front).map fun (whole, fraction, left) => (whole, fraction, left ++ c :: rest) := by
  simp only [endsNumber, Bool.and_eq_true, bne_iff_ne, ne_eq, Bool.not_eq_true'] at ends
  obtain ⟨⟨⟨⟨⟨⟨-, digit⟩, -⟩, -⟩, point⟩, -⟩, -⟩ := ends
  simp only [takeMantissa?, Text.takeWhile_separated digit, Text.dropWhile_separated digit]
  cases front.dropWhile Unicode.isDigit with
  | nil =>
    simp only [List.nil_append, List.cons.injEq, point, false_and, imp_self, implies_true]
    split <;> simp
  | cons d others =>
    by_cases pointed : d = '.'
    · subst pointed
      simp only [List.cons_append, Text.takeWhile_separated digit, Text.dropWhile_separated digit]
      split <;> simp
    · simp only [List.cons_append, List.cons.injEq, pointed, false_and, imp_self, implies_true]
      split <;> simp

/-- So is the exponent. -/
theorem takeExponent_ends (ends : endsNumber c = true) (front rest : Text) :
    takeExponent (front ++ c :: rest) = takeExponent front := by
  have inside := ends
  simp only [endsNumber, Bool.and_eq_true, bne_iff_ne, ne_eq, Bool.not_eq_true'] at inside
  obtain ⟨⟨⟨⟨⟨⟨-, digit⟩, -⟩, -⟩, -⟩, small⟩, capital⟩ := inside
  cases front with
  | nil => simp [takeExponent, small, capital]
  | cons d others =>
    simp only [List.cons_append, takeExponent, takeSign_ends ends, Text.takeWhile_separated digit]

/-- A number is read without what follows the character that ends it. -/
theorem number_ends (ends : endsNumber c = true) (front rest : Text) : number (front ++ c :: rest) = number front := by
  have blank : Unicode.isBlank c = false := by
    simp only [endsNumber, Bool.and_eq_true, Bool.not_eq_true'] at ends
    exact ends.1.1.1.1.1.1
  have literal : leadingLiteral? (front ++ c :: rest) = leadingLiteral? front := by
    simp only [leadingLiteral?, Text.dropWhile_separated blank, takeSign_ends ends, takeMantissa?_ends ends,
      Option.map_map]
    congr 1
    funext parts
    simp only [Function.comp, takeExponent_ends ends]
  rw [number, number, literal]

end

/-- An escaped number is the same number. -/
theorem number_escape (text : Text) : number (Text.escape text) = number text := by
  rcases Text.escape_agrees text with same | ⟨front, c, rest, after, split, written, reserved⟩
  · rw [same]
  · rw [written, number_ends (by decide), split, number_ends (endsNumber_of_reserved reserved)]

/-- An escaped number has the same whole part. -/
theorem integer_escape (text : Text) : integer (Text.escape text) = integer text := by
  rw [integer, number_escape, integer]

/-! ### Switches -/

/-- What is trimmed off a text is blank. -/
theorem isBlank_or_mem_trim {text : Text} {c : Char} (member : c ∈ text) :
    Unicode.isBlank c = true ∨ c ∈ text.trim := by
  have cut {text : Text} (inside : c ∈ text) : Unicode.isBlank c = true ∨ c ∈ text.dropWhile Unicode.isBlank := by
    rw [← @List.takeWhile_append_dropWhile _ Unicode.isBlank text, List.mem_append] at inside
    rcases inside with front | back
    · exact Or.inl (List.all_eq_true.mp List.all_takeWhile c front)
    · exact Or.inr back
  rcases cut member with blank | kept
  · exact Or.inl blank
  · rcases cut (List.mem_reverse.mpr kept) with blank | inside
    · exact Or.inl blank
    · exact Or.inr (List.mem_reverse.mpr inside)

/-- A text that switches something on has no reserved character. -/
theorem reserved?_of_truth {text : Text} (on : truth text = true) {c : Char} (member : c ∈ text) :
    Text.reserved? c = none := by
  cases found : Text.reserved? c with
  | none => rfl
  | some reference =>
    exfalso
    have reserved : (Text.reserved? c).isSome = true := by rw [found]; rfl
    have ends := endsNumber_of_reserved reserved
    simp only [endsNumber, Bool.and_eq_true, Bool.not_eq_true'] at ends
    rcases isBlank_or_mem_trim member with blank | inside
    · simp [ends.1.1.1.1.1.1] at blank
    · have words : ∀ word ∈ onWords, (word.all fun d => (Text.reserved? d).isNone) = true := by decide
      have letters : (['&', '<', '>', '"', '\x27'].all fun d => Unicode.asciiLower d == d) = true := by decide
      have small : Unicode.asciiLower c = c :=
        beq_iff_eq.mp (List.all_eq_true.mp letters c (Text.mem_of_reserved? reserved))
      have listed : text.trim.map Unicode.asciiLower ∈ onWords := List.contains_iff_mem.mp on
      have plain := List.all_eq_true.mp (words _ listed) (Unicode.asciiLower c) (List.mem_map_of_mem inside)
      simp [small, found] at plain

/-- An escaped switch is the same switch. -/
theorem truth_escape (text : Text) : truth (Text.escape text) = truth text := by
  cases on : truth text with
  | true => rw [Text.escape_of_plain fun c member => reserved?_of_truth on member, on]
  | false =>
    apply Bool.eq_false_iff.mpr
    intro escaped
    have absent : '&' ∉ Text.escape text := by
      intro member
      exact absurd (reserved?_of_truth escaped member) (by decide)
    rw [← Text.eq_of_escape_eq absent rfl, on] at escaped
    exact Bool.false_ne_true escaped

end Coercion

/-! ### Words from a list -/

/-- A text is escaped to a word without reserved characters only if it is that word. -/
theorem Text.escape_eq_plain_iff {text word : Text} (plain : (word.all fun c => (Text.reserved? c).isNone) = true) :
    Text.escape text = word ↔ text = word := by
  have none_ : ∀ c ∈ word, Text.reserved? c = none := by
    intro c member
    simpa using List.all_eq_true.mp plain c member
  constructor
  · intro same
    apply Text.eq_of_escape_eq _ same
    intro ampersand
    exact absurd (none_ '&' ampersand) (by decide)
  · rintro rfl
    exact Text.escape_of_plain none_

/-- An escaped source is the same source. -/
theorem MarkerSource.ofText_escape (text : Text) :
    MarkerSource.ofText (Text.escape text) = MarkerSource.ofText text := by
  have address : (MarkerSource.address.name.all fun c => (Text.reserved? c).isNone) = true := by decide
  simp only [MarkerSource.ofText, Text.escape_eq_plain_iff address]

/-- An escaped colour is the same colour. -/
theorem MarkerColor.ofText_escape (text : Text) : MarkerColor.ofText (Text.escape text) = MarkerColor.ofText text := by
  have same : (fun color : MarkerColor => color.name == Text.escape text) = fun color => color.name == text := by
    funext color
    have plain : (color.name.all fun c => (Text.reserved? c).isNone) = true := by
      cases color <;> decide
    rw [Bool.eq_iff_iff, beq_iff_eq, beq_iff_eq, eq_comm, Text.escape_eq_plain_iff plain, eq_comm]
  rw [MarkerColor.ofText, same, MarkerColor.ofText]

/-- An escaped style has the same replacement, if it is retired, and else is itself. -/
theorem currentStyle_escape (style : Text) : currentStyle (Text.escape style) = Text.escape (currentStyle style) := by
  have plain : ∀ pair ∈ retiredStyles, (pair.1.all fun c => (Text.reserved? c).isNone) = true ∧
      Text.escape pair.2 = pair.2 := by decide
  have found : ∀ styles : List (Text × Text), (∀ pair ∈ styles, pair ∈ retiredStyles) →
      styles.lookup (Text.escape style) = styles.lookup style := by
    intro styles
    induction styles with
    | nil => intro _; rfl
    | cons pair rest inductionHypothesis =>
      intro listed
      have here := @Text.escape_eq_plain_iff style _ (plain pair (listed pair (by simp))).1
      have later := inductionHypothesis fun other member => listed other (by simp [member])
      rw [Entries.lookup_cons, Entries.lookup_cons, later]
      simp only [here]
  rw [currentStyle, currentStyle, found retiredStyles fun _ member => member]
  cases known : retiredStyles.lookup style with
  | none => rfl
  | some replacement => exact (plain _ (Entries.mem_of_lookup known)).2.symm

/-! ### Attributes with escaped values -/

/-- Attributes have the values of others escaped, under the keys that are no numbers. -/
def Attributes.EscapedFrom (plain escaped : Attributes) : Prop :=
  ∀ key, isPositionalKey key = false → escaped.get? key = (plain.get? key).map Text.escape

/-- Writing attributes and reading them escapes their values. -/
theorem Attributes.Readable.escapedFrom {attributes : Attributes} (readable : attributes.Readable) :
    attributes.EscapedFrom (Attributes.parseLenient attributes.toText) :=
  fun _ named => Attributes.get?_parseLenient_toText readable named

namespace Attributes.EscapedFrom
variable {plain escaped : Attributes} {key : Text}

/-- Escaped values stay as they are when they are escaped again. -/
theorem again (escapes : plain.EscapedFrom escaped) : escaped.EscapedFrom escaped := by
  intro key named
  rw [escapes key named, Option.map_map]
  congr 1
  funext value
  exact (Text.escape_escape value).symm

/-- A value is read alike if escaping it makes no difference to the reader. -/
theorem map_get? (escapes : plain.EscapedFrom escaped) (named : isPositionalKey key = false) {α : Type}
    {read : Text → α} (same : ∀ value, read (Text.escape value) = read value) :
    (escaped.get? key).map read = (plain.get? key).map read := by
  rw [escapes key named, Option.map_map]
  congr 1
  funext value
  exact same value

/-- So is a value that has a default. -/
theorem map_getD (escapes : plain.EscapedFrom escaped) (named : isPositionalKey key = false) {α : Type}
    {read : Text → α} (same : ∀ value, read (Text.escape value) = read value) (default : α) :
    ((escaped.get? key).map read).getD default = ((plain.get? key).map read).getD default := by
  rw [escapes.map_get? named same]

/-- A value or its default is escaped to the same text. -/
theorem escape_getD (escapes : plain.EscapedFrom escaped) (named : isPositionalKey key = false) (default : Text) :
    Text.escape ((escaped.get? key).getD default) = Text.escape ((plain.get? key).getD default) := by
  rw [escapes key named]
  cases plain.get? key with
  | none => rfl
  | some value => exact Text.escape_escape value

/-- A value that may be missing is found escaped. -/
theorem getD_nil (escapes : plain.EscapedFrom escaped) (named : isPositionalKey key = false) :
    (escaped.get? key).getD [] = Text.escape ((plain.get? key).getD []) := by
  rw [escapes key named]
  cases plain.get? key <;> rfl

/-- A value that is there and not empty stays so when it is escaped. -/
theorem nonEmpty? (escapes : plain.EscapedFrom escaped) (named : isPositionalKey key = false) :
    MapBlock.nonEmpty? escaped key = (MapBlock.nonEmpty? plain key).map Text.escape := by
  unfold MapBlock.nonEmpty?
  rw [escapes key named]
  cases plain.get? key with
  | none => rfl
  | some value =>
    by_cases empty : value = []
    · subst empty
      rfl
    · have written : Text.escape value ≠ [] := fun nothing => empty (Text.escape_eq_nil_iff.mp nothing)
      simp [Option.filter, empty, written]

end Attributes.EscapedFrom
end MapEmbed
