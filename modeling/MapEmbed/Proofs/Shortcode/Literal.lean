import MapEmbed.Proofs.Shortcode.Grammar
import MapEmbed.Proofs.Unicode.SmallForm

/-!
# Tags in double brackets

A tag in double brackets is meant to be shown as it is. It is read as an escaped shortcode only if nothing behind it
closes its tag: the search for a closing tag comes before the look at the second bracket. If a closing tag stands
anywhere behind, all text up to there becomes the content of a shortcode with one extra bracket, and that is not literal.
A tag that closes itself has no content, and in double brackets it is literal whatever follows.
-/

namespace MapEmbed.Shortcode
open Text

/-! ### A shortcode behind plain text -/

namespace Segmentation

/-- In text without opening brackets no occurrence starts. -/
theorem vacant_of_not_mem {mode : CaseMode} {tags : List Text} {front : Text} (plain : '[' ∉ front) (back : Text) :
    Vacant mode tags front back := by
  induction front with
  | nil => trivial
  | cons c rest inductionHypothesis =>
    rw [List.mem_cons, not_or] at plain
    exact ⟨fun bracket => absurd bracket.symm plain.1, inductionHypothesis plain.2⟩

/-- A text that starts with plain text and an occurrence that stands there is cut behind the occurrence, and then as
the rest is cut. -/
theorem ofText_plain_source {mode : CaseMode} {tags : List Text} (named : ∀ tag ∈ tags, IsName tag)
    {front rest : Text} {o : Occurrence} (plain : '[' ∉ front) (stands : o.Stands mode tags rest) :
    ofText mode tags (front ++ (o.source ++ rest)) =
      ⟨(front, o) :: (ofText mode tags rest).pieces, (ofText mode tags rest).tail⟩ :=
  ofText_vacant_source named (vacant_of_not_mem plain _) stands

/-- The first occurrence of such a text starts behind the plain text. -/
theorem head?_located_plain_source {mode : CaseMode} {tags : List Text} (named : ∀ tag ∈ tags, IsName tag)
    {front rest : Text} {o : Occurrence} (plain : '[' ∉ front) (stands : o.Stands mode tags rest) :
    (ofText mode tags (front ++ (o.source ++ rest))).located.head? = some (front.byteSize, o) := by
  rw [ofText_plain_source named plain stands, located, locateFrom]
  simp

/-- Counting from one further is counting the numbers one further. -/
theorem replaceFrom_succ (replacement : Nat → Occurrence → Text) (number : Nat) (pieces : List (Text × Occurrence))
    (tail : Text) : replaceFrom replacement (number + 1) pieces tail =
      replaceFrom (fun number => replacement (number + 1)) number pieces tail := by
  induction pieces generalizing number with
  | nil => rfl
  | cons piece rest inductionHypothesis => rw [replaceFrom, replaceFrom, inductionHypothesis]

/-- Replacing copies the plain text, replaces the occurrence, and goes on in the rest with the next number. -/
theorem replace_plain_source {mode : CaseMode} {tags : List Text} (named : ∀ tag ∈ tags, IsName tag)
    {front rest : Text} {o : Occurrence} (plain : '[' ∉ front) (stands : o.Stands mode tags rest)
    (replacement : Nat → Occurrence → Text) :
    (ofText mode tags (front ++ (o.source ++ rest))).replace replacement =
      front ++ (replacement 0 o ++ (ofText mode tags rest).replace fun number => replacement (number + 1)) := by
  rw [ofText_plain_source named plain stands, replace, replaceFrom, replaceFrom_succ]
  rfl

end Segmentation

/-! ### Double brackets -/

/-- A tag in double brackets, without content. -/
def doubled (tag raw : Text) : Occurrence where
  brackets := ⟨true, true⟩
  tag := tag
  rawAttributes := raw
  body := .unclosed

/-- What is written. -/
theorem source_doubled (tag raw : Text) :
    (doubled tag raw).source = "[[".toList ++ (tag ++ (raw ++ "]]".toList)) := by
  simp [doubled, Occurrence.source, Occurrence.opening, Occurrence.afterOpening, Body.source]

/-- Attribute text as it can stand in double brackets. -/
structure Enclosable (raw : Text) : Prop where
  /-- It is empty or starts with a blank. -/
  blank : ∀ c ∈ raw.head?, Unicode.isBlank c = true
  /-- It does not end the tag. -/
  closed : ']' ∉ raw
  /-- It does not make the tag close itself. -/
  open_ : raw.getLast? ≠ some '/'

/-- The first shortcode of a text with a tag in double brackets behind plain text is escaped, and it is that tag in its
brackets. -/
def ReportsDoubled (mode : CaseMode) (tags : List Text) (front tag raw back : Text) : Prop :=
  ∃ hit, (Segmentation.ofText mode tags (front ++ ((doubled tag raw).source ++ back))).located.head? = some hit ∧
    hit.2.escaped = true ∧ hit.2.span hit.1 = (doubled tag raw).span front.byteSize

section
variable {mode : CaseMode} {tags : List Text} {tag raw back : Text}

/-- A name has ended before text that is empty or starts with a blank. -/
theorem endsName_of_blank (blank : ∀ c ∈ raw.head?, Unicode.isBlank c = true) : endsName raw = true := by
  cases raw with
  | nil => rfl
  | cons c rest =>
    have here : Unicode.isBlank c = true := blank c rfl
    have low : (c == '_') = false := by
      apply beq_eq_false_iff_ne.mpr
      rintro rfl
      exact absurd here (by decide)
    have hyphen : (c == '-') = false := by
      apply beq_eq_false_iff_ne.mpr
      rintro rfl
      exact absurd here (by decide)
    rw [endsName_cons, continuesName, Unicode.isAlphanumeric_of_isBlank here, low, hyphen]
    rfl

/-- The tag in double brackets stands exactly if nothing behind it closes it. -/
theorem stands_doubled_iff (named : IsName tag) (listed : tag ∈ tags) (enclosable : Enclosable raw) :
    (doubled tag raw).Stands mode tags back ↔ ¬HoldsClosing mode tag back := by
  have bracket : takeClosing? mode tag (']' :: back) = none := by simp [takeClosing?]
  have passed : splitAtClosing? mode tag ([']'] ++ back) = none ↔ ¬HoldsClosing mode tag back := by
    rw [List.singleton_append, splitAtClosing?_cons_eq_none, splitAtClosing?_eq_none_iff named]
    exact and_iff_right bracket
  constructor
  · exact fun stands => passed.mp stands.body
  · intro free
    exact ⟨⟨tag, listed, same_self mode tag⟩, endsName_of_blank enclosable.blank, enclosable.closed,
      fun _ => enclosable.open_, passed.mpr free, by simp [doubled]⟩

/-- Where a closing tag stands behind it, an occurrence stands that goes on up to there. -/
theorem exists_stands_of_holdsClosing (named : IsName tag) (listed : tag ∈ tags) (enclosable : Enclosable raw)
    (closing : HoldsClosing mode tag back) :
    ∃ (o : Occurrence) (more rest : Text), back = more ++ rest ∧ more ≠ [] ∧
      o.source = (doubled tag raw).source ++ more ∧ o.Stands mode tags rest := by
  have found : splitAtClosing? mode tag back ≠ none := fun free => (splitAtClosing?_eq_none_iff named).mp free closing
  obtain ⟨⟨content, written, rest⟩, split⟩ := Option.ne_none_iff_exists'.mp found
  obtain ⟨free, same, whole⟩ := (splitAtClosing?_eq_some_iff named).mp split
  have bracketed : splitAtClosing? mode tag (']' :: content) = none :=
    splitAtClosing?_cons_eq_none.mpr ⟨by simp [takeClosing?], free⟩
  have bracket := takeBracket_append ']' rest
  have ended := @head?_takeBracket ']' rest
  generalize takeBracket ']' rest = parts at bracket ended
  obtain ⟨after, left⟩ := parts
  simp only at bracket ended
  subst bracket
  refine ⟨⟨⟨true, after⟩, tag, raw, .enclosing (']' :: content) written⟩,
    content ++ '[' :: '/' :: (written ++ ']' :: (if after then [']'] else [])), left, ?_, by simp, ?_, ?_⟩
  · simp [whole]
  · simp [doubled, Occurrence.source, Occurrence.opening, Occurrence.afterOpening, Body.source]
  · exact ⟨⟨tag, listed, same_self mode tag⟩, endsName_of_blank enclosable.blank, enclosable.closed,
      fun _ => enclosable.open_, ⟨bracketed, same⟩, ended⟩

/-- The tag in double brackets is reported as such exactly if no closing tag of it stands behind it. -/
theorem reportsDoubled_iff (named : ∀ tag ∈ tags, IsName tag) (listed : tag ∈ tags) {front : Text} (plain : '[' ∉ front)
    (enclosable : Enclosable raw) : ReportsDoubled mode tags front tag raw back ↔ ¬HoldsClosing mode tag back := by
  have name := named tag listed
  constructor
  · rintro ⟨hit, first, -, span⟩ closing
    obtain ⟨o, more, rest, rfl, longer, source, stands⟩ := exists_stands_of_holdsClosing name listed enclosable closing
    rw [← List.append_assoc (doubled tag raw).source, ← source, Segmentation.head?_located_plain_source named plain stands,
      Option.some.injEq] at first
    subst first
    have sizes := congrArg Span.stop span
    simp only [Occurrence.span, source, byteSize_append] at sizes
    exact longer (eq_nil_of_byteSize (by omega))
  · intro free
    have stands := (stands_doubled_iff name listed enclosable).mpr free
    exact ⟨_, Segmentation.head?_located_plain_source named plain stands, rfl, rfl⟩

/-- In double brackets a tag that closes itself is literal whatever follows. -/
theorem head?_located_selfClosing (named : ∀ tag ∈ tags, IsName tag) (listed : tag ∈ tags) {front : Text}
    (plain : '[' ∉ front) (blank : ∀ c ∈ raw.head?, Unicode.isBlank c = true) (closed : ']' ∉ raw) :
    (Segmentation.ofText mode tags
        (front ++ ((Occurrence.mk ⟨true, true⟩ tag raw .selfClosing).source ++ back))).located.head? =
      some (front.byteSize, ⟨⟨true, true⟩, tag, raw, .selfClosing⟩) := by
  refine Segmentation.head?_located_plain_source named plain ⟨⟨tag, listed, same_self mode tag⟩, ?_, closed,
    ?_, trivial, by simp⟩
  · exact endsName_of_blank blank
  · exact fun other => absurd rfl other

end

end MapEmbed.Shortcode
