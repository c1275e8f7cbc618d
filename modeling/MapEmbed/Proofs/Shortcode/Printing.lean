import MapEmbed.Proofs.Shortcode.Standing
import MapEmbed.Proofs.Attribute.Reprint
import MapEmbed.Shortcode.Printer

/-!
# Printed shortcodes

A shortcode that is put together from readable attributes and a content is an occurrence, and it stands wherever
its name is looked for and nothing closes in its content. Its opening tag holds no closing tag of any name, however
the values of its attributes look: they hold no closing bracket, and a quote stands after the last of them.
-/

namespace MapEmbed.Shortcode

/-- The occurrence that a printed shortcode is. -/
def printed (name : Text) (attributes : Attributes) (content : Text) (brackets : Brackets) : Occurrence where
  brackets := brackets
  tag := name
  rawAttributes := if attributes.isEmpty then [] else ' ' :: attributes.toText
  body := .enclosing content name

/-- A printed shortcode is the source of its occurrence. -/
theorem source_printed (name : Text) (attributes : Attributes) (content : Text) (brackets : Brackets) :
    (printed name attributes content brackets).source = print name attributes content brackets := by
  unfold Occurrence.source Occurrence.opening Occurrence.afterOpening print Brackets.wrap printed Body.source
  cases attributes.isEmpty <;> cases brackets.before <;> simp

/-- A printed opening tag ends in a closing bracket. -/
theorem opening_printed (name : Text) (attributes : Attributes) (content : Text) (brackets : Brackets) :
    (printed name attributes content brackets).opening =
      ((if brackets.before then ['[', '['] else ['[']) ++ name ++
        (printed name attributes content brackets).rawAttributes) ++ [']'] := by
  unfold Occurrence.opening printed
  cases brackets.before <;> simp

/-- A printed shortcode goes on with its content and its closing tag. -/
theorem source_printed_parts (name : Text) (attributes : Attributes) (content : Text) (brackets : Brackets) :
    (printed name attributes content brackets).source =
      ((printed name attributes content brackets).opening ++ content) ++
        '[' :: '/' :: (name ++ ']' :: (if brackets.after then [']'] else [])) := by
  unfold Occurrence.source Occurrence.afterOpening Body.source printed
  cases brackets.after <;> simp

/-- The last character of attributes in print is a quote. -/
theorem getLast?_toText {attributes : Attributes} (some_ : attributes.isEmpty = false) :
    attributes.toText.getLast? = some '"' := by
  unfold Attributes.toText
  unfold OrderedMap.isEmpty at some_
  generalize attributes.entries = entries at some_
  have last (entry : Text × Text) : (Attributes.entryText entry).getLast? = some '"' := by
    unfold Attributes.entryText
    split
    · rw [List.getLast?_concat]
    · have parts : entry.1 ++ '=' :: ('"' :: Text.escape entry.2 ++ ['"']) =
          (entry.1 ++ '=' :: '"' :: Text.escape entry.2) ++ ['"'] := by simp
      simp only [parts, List.getLast?_concat]
  induction entries with
  | nil => simp at some_
  | cons entry rest inductionHypothesis =>
    cases rest with
    | nil => simpa [List.intercalate] using last entry
    | cons second others =>
      have later := inductionHypothesis rfl
      have parts : List.intercalate [' '] ((entry :: second :: others).map Attributes.entryText) =
          (Attributes.entryText entry ++ [' ']) ++
            List.intercalate [' '] ((second :: others).map Attributes.entryText) := by
        simp [List.intercalate]
      rw [parts, List.getLast?_append, later]
      rfl

/-- What a printed opening tag needs of its name and attributes. -/
structure Printable (name : Text) (attributes : Attributes) : Prop where
  named : IsName name
  readable : attributes.Readable
  closed : ∀ entry ∈ attributes.entries, ']' ∉ entry.2

/-- What is read from text without closing bracket can be printed. -/
theorem printable_parseLenient {name raw : Text} (named : IsName name) (closed : ']' ∉ raw) :
    Printable name (Attributes.parseLenient raw) := by
  refine ⟨named, Attributes.readable_parseLenient raw, ?_⟩
  intro entry member bracket
  rcases (AttributeToken.mem_normalize ((Attributes.mem_parseLenient member).2 _ bracket)).1 with space | inside
  · exact absurd space (by decide)
  · exact closed inside

namespace Printable

variable {name : Text} {attributes : Attributes}

/-- Printed attributes hold no closing bracket. -/
theorem closed_toText (printable : Printable name attributes) : ']' ∉ attributes.toText :=
  Attributes.not_mem_toText printable.readable (by decide) (by decide) (by decide) printable.closed

/-- Printed attribute text holds no closing bracket. -/
theorem closed_rawAttributes (printable : Printable name attributes) (content : Text) (brackets : Brackets) :
    ']' ∉ (printed name attributes content brackets).rawAttributes := by
  unfold printed
  split
  · simp
  · simpa using printable.closed_toText

/-- Printed attribute text is empty or ends in a quote. -/
theorem getLast?_rawAttributes (name : Text) (attributes : Attributes) (content : Text) (brackets : Brackets) :
    (printed name attributes content brackets).rawAttributes = [] ∨
      (printed name attributes content brackets).rawAttributes.getLast? = some '"' := by
  unfold printed
  cases empty : attributes.isEmpty with
  | true => exact Or.inl rfl
  | false =>
    refine Or.inr ?_
    simp [List.getLast?_cons, getLast?_toText empty]

/-- No closing tag stands in a printed opening tag. -/
theorem free_opening (printable : Printable name attributes) (content : Text) (brackets : Brackets) {tag : Text}
    {mode : CaseMode} (named : IsName tag) :
    splitAtClosing? mode tag (printed name attributes content brackets).opening = none := by
  have own : ']' ∉ name := not_mem_name printable.named (by decide)
  have slash : '/' ∉ name := not_mem_name printable.named (by decide)
  have raw := printable.closed_rawAttributes content brackets
  rw [opening_printed]
  rcases getLast?_rawAttributes name attributes content brackets with empty | quote
  · rw [empty, List.append_nil]
    apply splitAtClosing?_of_not_mem (by decide : '/' ∈ ['[', '/', ']'])
    cases brackets.before <;> simp [slash]
  · apply splitAtClosing?_of_last named
    · cases brackets.before <;> simp [own, raw]
    · -- a quote stands before the bracket, and no name ends in one
      intro written same ending
      have ownName := same_name same named
      obtain ⟨start, stop, rfl⟩ := (List.eq_nil_or_concat written).resolve_left ownName.1
      obtain ⟨before, whole⟩ := ending
      have last := congrArg List.getLast? whole
      rw [List.getLast?_append, List.getLast?_append, quote] at last
      have final : stop = '"' := by simpa [List.getLast?_cons] using last
      exact absurd (ownName.2 '"' (by simp [final])) (by decide)

/-- Up to its closing tag, a printed shortcode closes no more than its content does. -/
theorem free_content (printable : Printable name attributes) {content : Text} (brackets : Brackets) {tag : Text}
    {mode : CaseMode} (named : IsName tag) (free : splitAtClosing? mode tag content = none) :
    splitAtClosing? mode tag ((printed name attributes content brackets).opening ++ content) = none := by
  have opening := @free_opening _ _ printable content brackets _ mode named
  rw [opening_printed] at opening ⊢
  have passed := splitAtClosing?_after_bracket named opening content
  rw [List.append_assoc, List.singleton_append, passed, free]
  rfl

/-- A printed shortcode with another name closes no more than its content does. -/
theorem free_source (printable : Printable name attributes) {content : Text} (brackets : Brackets) {tag : Text}
    {mode : CaseMode} (named : IsName tag) (free : splitAtClosing? mode tag content = none)
    (other : mode.same tag name = false) :
    splitAtClosing? mode tag (printed name attributes content brackets).source = none := by
  have extra : splitAtClosing? mode tag (if brackets.after then [']'] else []) = none := by
    cases brackets.after with
    | true => exact splitAtClosing?_of_not_mem (by decide : '/' ∈ ['[', '/', ']']) (by decide)
    | false => rfl
  have closing := splitAtClosing?_other named printable.named other
  have tail := @splitAtClosing?_after_bracket mode tag named ('[' :: '/' :: name) closing
    (if brackets.after then [']'] else [])
  rw [extra] at tail
  rw [source_printed_parts, splitAtClosing?_before_bracket named (printable.free_content brackets named free)]
  simpa using tail

/-- A printed shortcode is read back wherever its name is looked for, if nothing closes in its content. -/
theorem stands (printable : Printable name attributes) {content rest : Text} {brackets : Brackets} {mode : CaseMode}
    {tags : List Text} (listed : ∃ tag ∈ tags, mode.same tag name = true)
    (free : splitAtClosing? mode name content = none)
    (ended : brackets.after = false → rest.head? ≠ some ']') :
    (printed name attributes content brackets).Stands mode tags rest := by
  refine ⟨listed, ?_, printable.closed_rawAttributes content brackets, ?_, ⟨free, ?_⟩, ended⟩
  · unfold printed
    split
    · rfl
    · exact (by decide : (!continuesName ' ') = true)
  · intro _
    rcases getLast?_rawAttributes name attributes content brackets with empty | quote
    · simp [empty]
    · simp [quote]
  · exact same_self mode name

end Printable
end MapEmbed.Shortcode
