import MapEmbed.Json.Printer
import MapEmbed.Proofs.Html.References
import MapEmbed.Proofs.Number.Characters

/-!
# What a data text holds of its strings

The compact form of a data value shows each of its strings between quotes, with a few characters written otherwise.
None of these starts a character reference or is part of one. So the references in a data text are those in its
strings, and no control character is left in it.
-/

namespace MapEmbed.Json

open Html (ReferenceTable HoldsReference)

mutual

/-- The strings of a data value, the names of its fields included. -/
def strings : Json → List Text
  | .null => []
  | .bool _ => []
  | .integer _ => []
  | .number _ => []
  | .string value => [value]
  | .array items => itemStrings items
  | .object fields => fieldStrings fields

/-- The strings of items in a row. -/
def itemStrings : List Json → List Text
  | [] => []
  | item :: rest => strings item ++ itemStrings rest

/-- The strings of fields in a row. -/
def fieldStrings : List (Text × Json) → List Text
  | [] => []
  | (key, value) :: rest => key :: strings value ++ fieldStrings rest

end

/-- The strings of items are those of each of them. -/
theorem mem_itemStrings {items : List Json} {text : Text} :
    text ∈ itemStrings items ↔ ∃ item ∈ items, text ∈ item.strings := by
  induction items with
  | nil => simp [itemStrings]
  | cons item rest inductionHypothesis => simp [itemStrings, inductionHypothesis]

/-! ### Characters of strings -/

/-- A character stays, or it is written after a backslash, and then it is in no reference. -/
theorem escapedChar_cases (c : Char) :
    (escapedChar c = [c] ∧ 0x20 ≤ c.toNat) ∨
      (Text.isReferenceChar c = false ∧ c ≠ '&' ∧ ∃ others, escapedChar c = '\\' :: others ∧
        ∀ d ∈ others, d ≠ '&' ∧ 0x20 ≤ d.toNat) := by
  by_cases quote : c = '"'
  · subst quote
    exact Or.inr ⟨by decide, by decide, ['"'], by decide, by simp⟩
  · by_cases backslash : c = '\\'
    · subst backslash
      exact Or.inr ⟨by decide, by decide, ['\\'], by decide, by simp⟩
    · by_cases control : c.toNat < 0x20
      · have points : ∀ point, point < 0x20 → Text.isReferenceChar (Char.ofNat point) = false ∧
            Char.ofNat point ≠ '&' ∧ (escapedChar (Char.ofNat point)).head? = some '\\' ∧
            ((escapedChar (Char.ofNat point)).tail.all fun d => d != '&' && decide (0x20 ≤ d.toNat)) = true := by
          decide
        have known := points c.toNat control
        rw [Char.ofNat_toNat] at known
        obtain ⟨outside, other, first, rest⟩ := known
        obtain ⟨others, escaped⟩ := List.head?_eq_some_iff.mp first
        rw [escaped, List.tail_cons] at rest
        refine Or.inr ⟨outside, other, others, escaped, ?_⟩
        intro d member
        simpa using List.all_eq_true.mp rest d member
      · refine Or.inl ⟨?_, by omega⟩
        simp [escapedChar, quote, backslash, control]

variable {names : ReferenceTable}

/-- A complete reference is written in a string as it is, and nothing else is written as one. -/
theorem prefix_escapedChars_iff {word : Text} (all : ∀ c ∈ word, Text.isReferenceChar c = true) (text : Text) :
    word <+: text.flatMap escapedChar ↔ word <+: text := by
  induction word generalizing text with
  | nil => simp
  | cons c word inductionHypothesis =>
    cases text with
    | nil => simp
    | cons d rest =>
      rw [List.flatMap_cons]
      rcases escapedChar_cases d with ⟨kept, -⟩ | ⟨outside, -, others, escaped, -⟩
      · rw [kept, List.singleton_append, List.cons_prefix_cons, List.cons_prefix_cons,
          inductionHypothesis (fun e member => all e (by simp [member])) rest]
      · have here := all c (by simp)
        have apart : c ≠ d := by
          rintro rfl
          simp [here] at outside
        have notBackslash : c ≠ '\\' := by
          rintro rfl
          exact absurd here (by decide)
        rw [escaped, List.cons_append, List.cons_prefix_cons, List.cons_prefix_cons]
        simp [apart, notBackslash]

/-- A string holds the references of its text. -/
theorem holdsReference_quoted_iff (text : Text) : HoldsReference names (quoted text) ↔ HoldsReference names text := by
  have inside : HoldsReference names (text.flatMap escapedChar) ↔ HoldsReference names text := by
    induction text with
    | nil => rfl
    | cons c rest inductionHypothesis =>
      rw [List.flatMap_cons]
      rcases escapedChar_cases c with ⟨kept, -⟩ | ⟨-, other, others, escaped, safe⟩
      · have here : (∃ word, Html.Decodes names word ∧ word <+: rest.flatMap escapedChar) ↔
            ∃ word, Html.Decodes names word ∧ word <+: rest := by
          constructor
          · rintro ⟨word, decodes, starts⟩
            exact ⟨word, decodes, (prefix_escapedChars_iff decodes.1.isReferenceChar rest).mp starts⟩
          · rintro ⟨word, decodes, starts⟩
            exact ⟨word, decodes, (prefix_escapedChars_iff decodes.1.isReferenceChar rest).mpr starts⟩
        rw [kept, List.singleton_append, Html.holdsReference_cons_iff, Html.holdsReference_cons_iff, here,
          inductionHypothesis]
      · have absent : '&' ∉ escapedChar c := by
          rw [escaped, List.mem_cons, not_or]
          exact ⟨by decide, fun member => (safe '&' member).1 rfl⟩
        rw [Html.holdsReference_append_of_not_mem absent, Html.holdsReference_cons_of_ne other, inductionHypothesis]
  rw [quoted, List.cons_append, Html.holdsReference_cons_of_ne (by decide),
    Html.holdsReference_separated (by decide) (by decide), inside]
  simp [Html.not_holdsReference_nil]

/-- A string is written without control characters. -/
theorem printable_quoted {text : Text} {c : Char} (member : c ∈ quoted text) : 0x20 ≤ c.toNat := by
  rw [quoted, List.cons_append, List.mem_cons, List.mem_append, List.mem_singleton] at member
  rcases member with rfl | inside | rfl
  · decide
  · obtain ⟨d, -, written⟩ := List.mem_flatMap.mp inside
    rcases escapedChar_cases d with ⟨kept, printable⟩ | ⟨-, -, others, escaped, safe⟩
    · rw [kept, List.mem_singleton] at written
      exact written ▸ printable
    · rw [escaped, List.mem_cons] at written
      rcases written with rfl | later
      · decide
      · exact (safe c later).2
  · decide

/-! ### Characters of data texts -/

/-- A number or a word of the format holds no reference. -/
theorem not_holdsReference_plain {text : Text} (plain : ∀ c ∈ text, isNumberChar c = true) :
    ¬HoldsReference names text := by
  apply Html.not_holdsReference_of_not_mem
  intro member
  exact absurd (plain '&' member) (by decide)

mutual

/-- A data text holds a reference exactly if one of its strings does. -/
theorem holdsReference_compact_iff : (json : Json) →
    (HoldsReference names json.compact ↔ ∃ text ∈ json.strings, HoldsReference names text)
  | .null => by
    simp only [compact, strings, List.not_mem_nil, false_and, exists_false, iff_false]
    exact Html.not_holdsReference_of_not_mem (by decide)
  | .bool value => by
    simp only [compact, strings, List.not_mem_nil, false_and, exists_false, iff_false]
    cases value with
    | true => exact Html.not_holdsReference_of_not_mem (by decide)
    | false => exact Html.not_holdsReference_of_not_mem (by decide)
  | .integer value => by
    simp only [compact, strings, List.not_mem_nil, false_and, exists_false, iff_false]
    exact not_holdsReference_plain fun c member => Text.isNumberChar_of_mem_ofInt member
  | .number value => by
    simp only [compact, strings, List.not_mem_nil, false_and, exists_false, iff_false]
    exact not_holdsReference_plain fun c member => NumberLayout.isNumberChar_of_mem_render member
  | .string value => by
    simp only [compact, strings, List.mem_singleton, exists_eq_left]
    exact holdsReference_quoted_iff value
  | .array items => by
    rw [compact, strings, List.cons_append, Html.holdsReference_cons_of_ne (by decide),
      Html.holdsReference_separated (by decide) (by decide), holdsReference_compactItems_iff items]
    simp [Html.not_holdsReference_nil]
  | .object fields => by
    rw [compact, strings, List.cons_append, Html.holdsReference_cons_of_ne (by decide),
      Html.holdsReference_separated (by decide) (by decide), holdsReference_compactFields_iff fields]
    simp [Html.not_holdsReference_nil]

/-- Items in a row hold the references of each. -/
theorem holdsReference_compactItems_iff : (items : List Json) →
    (HoldsReference names (compactItems items) ↔ ∃ text ∈ itemStrings items, HoldsReference names text)
  | [] => by simp [compactItems, itemStrings, Html.not_holdsReference_nil]
  | [item] => by simp [compactItems, itemStrings, holdsReference_compact_iff item]
  | item :: next :: rest => by
    rw [compactItems, itemStrings, Html.holdsReference_separated (by decide) (by decide),
      holdsReference_compact_iff item, holdsReference_compactItems_iff (next :: rest)]
    simp only [List.mem_append, or_and_right, exists_or]

/-- Fields in a row hold the references of each name and of each value. -/
theorem holdsReference_compactFields_iff : (fields : List (Text × Json)) →
    (HoldsReference names (compactFields fields) ↔ ∃ text ∈ fieldStrings fields, HoldsReference names text)
  | [] => by simp [compactFields, fieldStrings, Html.not_holdsReference_nil]
  | [(key, value)] => by
    rw [compactFields, fieldStrings, fieldStrings, Html.holdsReference_separated (by decide) (by decide),
      holdsReference_quoted_iff, holdsReference_compact_iff value]
    simp
  | (key, value) :: next :: rest => by
    rw [compactFields, fieldStrings, Html.holdsReference_separated (by decide) (by decide),
      Html.holdsReference_separated (by decide) (by decide), holdsReference_quoted_iff,
      holdsReference_compact_iff value, holdsReference_compactFields_iff (next :: rest)]
    simp only [List.mem_append, List.cons_append, List.mem_cons, or_and_right, exists_or, exists_eq_left, or_assoc]

end

/-- A word of the format has no control characters. -/
theorem printable_word {text : Text} (letters : text.all Unicode.isAsciiLetter = true) : ∀ c ∈ text, 0x20 ≤ c.toNat := by
  intro c member
  have letter := List.all_eq_true.mp letters c member
  simp only [Unicode.isAsciiLetter, Bool.or_eq_true, Bool.and_eq_true, decide_eq_true_eq] at letter
  rcases letter with ⟨low, -⟩ | ⟨low, -⟩
  · exact Nat.le_trans (by decide) (low : 'a'.toNat ≤ c.toNat)
  · exact Nat.le_trans (by decide) (low : 'A'.toNat ≤ c.toNat)

mutual

/-- A data text has no control characters. -/
theorem printable_compact : (json : Json) → ∀ c ∈ json.compact, 0x20 ≤ c.toNat
  | .null => printable_word (by decide)
  | .bool true => printable_word (by decide)
  | .bool false => printable_word (by decide)
  | .integer value => by
    intro c member
    rw [compact] at member
    exact toNat_of_isNumberChar (Text.isNumberChar_of_mem_ofInt member)
  | .number value => by
    intro c member
    rw [compact] at member
    exact toNat_of_isNumberChar (NumberLayout.isNumberChar_of_mem_render member)
  | .string value => by
    intro c member
    rw [compact] at member
    exact printable_quoted member
  | .array items => by
    intro c member
    rw [compact, List.cons_append, List.mem_cons, List.mem_append, List.mem_singleton] at member
    rcases member with rfl | inside | rfl
    · decide
    · exact printable_compactItems items c inside
    · decide
  | .object fields => by
    intro c member
    rw [compact, List.cons_append, List.mem_cons, List.mem_append, List.mem_singleton] at member
    rcases member with rfl | inside | rfl
    · decide
    · exact printable_compactFields fields c inside
    · decide

/-- Nor have items in a row. -/
theorem printable_compactItems : (items : List Json) → ∀ c ∈ compactItems items, 0x20 ≤ c.toNat
  | [] => by simp [compactItems]
  | [item] => printable_compact item
  | item :: next :: rest => by
    intro c member
    rw [compactItems, List.mem_append, List.mem_cons] at member
    rcases member with inside | rfl | later
    · exact printable_compact item c inside
    · decide
    · exact printable_compactItems (next :: rest) c later

/-- Nor have fields in a row. -/
theorem printable_compactFields : (fields : List (Text × Json)) → ∀ c ∈ compactFields fields, 0x20 ≤ c.toNat
  | [] => by simp [compactFields]
  | [(key, value)] => by
    intro c member
    rw [compactFields, List.mem_append, List.mem_cons] at member
    rcases member with inside | rfl | later
    · exact printable_quoted inside
    · decide
    · exact printable_compact value c later
  | (key, value) :: next :: rest => by
    intro c member
    rw [compactFields, List.mem_append, List.mem_append, List.mem_cons, List.mem_cons] at member
    rcases member with (inside | rfl | first) | rfl | later
    · exact printable_quoted inside
    · decide
    · exact printable_compact value c first
    · decide
    · exact printable_compactFields (next :: rest) c later

end
end MapEmbed.Json
