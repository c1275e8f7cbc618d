import MapEmbed.Proofs.Shortcode.Cutting
import MapEmbed.Proofs.Shortcode.Printing

/-!
# A shortcode around a text

The plainest way to write a shortcode: a name, a blank and attribute text, a content, and a closing tag of the same
name. A text that starts with it is cut right behind it, and it closes no other tag unless its attribute text ends in
what would be a closing tag.
-/

namespace MapEmbed.Shortcode

/-- A shortcode around a content. -/
def enclosed (name raw content : Text) : Text :=
  '[' :: (name ++ ' ' :: (raw ++ ']' :: (content ++ '[' :: '/' :: (name ++ [']']))))

/-- The occurrence that it is. -/
def enclosing (name raw content : Text) : Occurrence where
  brackets := Brackets.none
  tag := name
  rawAttributes := ' ' :: raw
  body := .enclosing content name

/-- A shortcode around a content is the source of its occurrence. -/
theorem source_enclosing (name raw content : Text) :
    (enclosing name raw content).source = enclosed name raw content := by
  simp [Occurrence.source, Occurrence.opening, Occurrence.afterOpening, Body.source, Brackets.none, enclosing, enclosed]

/-- A printed shortcode with attributes is one around its content. -/
theorem printed_eq_enclosing {name : Text} {attributes : Attributes} (some_ : attributes.isEmpty = false)
    (content : Text) : printed name attributes content Brackets.none = enclosing name attributes.toText content := by
  simp [printed, enclosing, some_]

section
variable {mode : CaseMode} {tags : List Text} {name raw content : Text}

/-- A shortcode around a content stands where its name is looked for. -/
theorem stands_enclosing {rest : Text} (listed : name ∈ tags) (closed : ']' ∉ raw) (open_ : raw.getLast? ≠ some '/')
    (free : splitAtClosing? mode name content = none) (ended : rest.head? ≠ some ']') :
    (enclosing name raw content).Stands mode tags rest where
  listed := ⟨name, listed, same_self mode name⟩
  apart := (by decide : (!continuesName ' ') = true)
  closed := by simpa [enclosing] using closed
  open_ := by
    intro _ slash
    cases last : raw.getLast? with
    | none => simp [enclosing, List.getLast?_cons, last] at slash
    | some c =>
      have final : c = '/' := by simpa [enclosing, List.getLast?_cons, last] using slash
      exact open_ (final ▸ last)
  body := ⟨free, same_self mode name⟩
  ended := fun _ => ended

/-- A text that starts with an occurrence and has no other is cut behind it. -/
theorem ofText_source_append (named : ∀ tag ∈ tags, IsName tag) {o : Occurrence} {tail : Text}
    (stands : o.Stands mode tags tail) (vacant : Vacant mode tags tail []) :
    Segmentation.ofText mode tags (o.source ++ tail) = ⟨[([], o)], tail⟩ :=
  @Segmentation.ofText_textOf mode tags named [([], o)] tail ⟨trivial, stands, vacant⟩

/-- A text that is one occurrence is cut into that alone. -/
theorem ofText_source (named : ∀ tag ∈ tags, IsName tag) {o : Occurrence} (stands : o.Stands mode tags []) :
    Segmentation.ofText mode tags o.source = ⟨[([], o)], []⟩ := by
  have alone := ofText_source_append named stands trivial
  rwa [List.append_nil] at alone

/-- A shortcode around a content closes no other tag, if its content does not and its attribute text does not end in a
closing tag but for the bracket. -/
theorem free_enclosed {tag : Text} (named : IsName tag) (nameNamed : IsName name) (other : mode.same tag name = false)
    (closed : ']' ∉ raw) (apart : ∀ written, mode.same tag written = true → ¬('[' :: '/' :: written <:+ raw))
    (free : splitAtClosing? mode tag content = none) : splitAtClosing? mode tag (enclosed name raw content) = none := by
  have opening : splitAtClosing? mode tag ('[' :: (name ++ ' ' :: raw) ++ [']']) = none := by
    apply splitAtClosing?_of_last named
    · simp [closed, not_mem_name nameNamed (by decide : continuesName ']' = false)]
    · -- a closing tag holds no blank, so it would have to stand behind the one before the attribute text
      intro written same ending
      have ownName := same_name same named
      have blank : ' ' ∉ '[' :: '/' :: written := by
        simp [not_mem_name ownName (by decide : continuesName ' ' = false)]
      have raw_ : ' ' :: raw <:+ '[' :: (name ++ ' ' :: raw) := ⟨'[' :: name, rfl⟩
      rcases List.suffix_or_suffix_of_suffix ending raw_ with inside | outside
      · rcases List.suffix_cons_iff.mp inside with whole | later
        · simp [whole] at blank
        · exact apart written same later
      · exact blank (outside.mem (by simp))
  have closing := splitAtClosing?_other named nameNamed other
  have behind : splitAtClosing? mode tag (content ++ '[' :: '/' :: (name ++ [']'])) = none := by
    rw [splitAtClosing?_before_bracket named free, closing]
    rfl
  have whole := splitAtClosing?_after_bracket named opening (content ++ '[' :: '/' :: (name ++ [']']))
  rw [behind] at whole
  simpa [enclosed] using whole

end
end MapEmbed.Shortcode
