import MapEmbed.Proofs.Json.Strings

/-!
# Strings that are escaped before or after they are written

A string of a data value may be escaped before the data is written, and all of it after. If the string has no double
quote, the first makes no difference: what it writes is a reference that is left alone, and reserved characters
other than the double quote stand in strings as they are.
-/

namespace MapEmbed.Json

/-- Whether two data values have the same escaped text. -/
def SameEscaped (first second : Json) : Prop :=
  Text.escape first.compact = Text.escape second.compact

/-- Fields with the same names whose values have the same escaped texts. -/
inductive SameFields : List (Text × Json) → List (Text × Json) → Prop where
  | nil : SameFields [] []
  | cons {key : Text} {first second : Json} {rest others : List (Text × Json)} (here : SameEscaped first second)
      (later : SameFields rest others) : SameFields ((key, first) :: rest) ((key, second) :: others)

/-- Fields have the same escaped texts as themselves. -/
theorem SameFields.refl : (fields : List (Text × Json)) → SameFields fields fields
  | [] => .nil
  | (_, _) :: rest => .cons rfl (SameFields.refl rest)

/-! ### Strings -/

/-- Writing a string does not change which references are complete. -/
theorem completesReference_escapedChars (text : Text) :
    Text.completesReference (text.flatMap escapedChar) = Text.completesReference text := by
  apply Bool.eq_iff_iff.mpr
  rw [Text.completesReference_iff, Text.completesReference_iff]
  constructor
  · rintro ⟨word, complete, starts⟩
    exact ⟨word, complete, (prefix_escapedChars_iff complete.isReferenceChar text).mp starts⟩
  · rintro ⟨word, complete, starts⟩
    exact ⟨word, complete, (prefix_escapedChars_iff complete.isReferenceChar text).mpr starts⟩

/-- The characters of references stand in strings as they are. -/
theorem flatMap_escapedChar_of_reference {text : Text} (inside : ∀ c ∈ text, Text.isReferenceChar c = true) :
    text.flatMap escapedChar = text := by
  induction text with
  | nil => rfl
  | cons c rest inductionHypothesis =>
    rcases escapedChar_cases c with ⟨kept, -⟩ | ⟨outside, -⟩
    · rw [List.flatMap_cons, kept, inductionHypothesis fun d member => inside d (by simp [member])]
      rfl
    · simp [inside c (by simp)] at outside

/-- What is written for a character that is not reserved is not reserved either. -/
theorem reserved?_of_mem_escapedChar {c d : Char} (plain : Text.reserved? c = none) (member : d ∈ escapedChar c) :
    Text.reserved? d = none := by
  by_cases quote : c = '"'
  · subst quote
    simp [Text.reserved?] at plain
  · by_cases backslash : c = '\\'
    · subst backslash
      have same : d = '\\' := by simpa [escapedChar] using member
      rw [same]
      decide
    · by_cases control : c.toNat < 0x20
      · have points : ∀ point, point < 0x20 →
            ((escapedChar (Char.ofNat point)).all fun e => (Text.reserved? e).isNone) = true := by decide
        have known := points c.toNat control
        rw [Char.ofNat_toNat] at known
        simpa using List.all_eq_true.mp known d member
      · have same : d = c := by simpa [escapedChar, quote, backslash, control] using member
        rw [same, plain]

/-- A string without double quotes may be escaped before it is written. -/
theorem escape_escapedChars {text : Text} (absent : '"' ∉ text) :
    Text.escape ((Text.escape text).flatMap escapedChar) = Text.escape (text.flatMap escapedChar) := by
  induction text using Text.escape_induction with
  | nil => rfl
  | reference word back complete inductionHypothesis =>
    have later := inductionHypothesis (by simp_all)
    have kept := flatMap_escapedChar_of_reference complete.isReferenceChar
    have written (rest : Text) : ('&' :: (word ++ rest)).flatMap escapedChar =
        '&' :: (word ++ rest.flatMap escapedChar) := by
      rw [List.flatMap_cons, List.flatMap_append, kept]
      rfl
    rw [Text.escape_append_reference complete, written, written, Text.escape_append_reference complete,
      Text.escape_append_reference complete, later]
  | reserved c word rest complete reserved open_ inductionHypothesis =>
    rw [List.mem_cons, not_or] at absent
    have later := inductionHypothesis absent.2
    have kept := flatMap_escapedChar_of_reference complete.isReferenceChar
    have alone : escapedChar c = [c] := by
      have five := Text.mem_of_reserved? (by rw [reserved]; rfl : (Text.reserved? c).isSome = true)
      simp only [List.mem_cons, List.not_mem_nil, or_false] at five
      rcases five with rfl | rfl | rfl | rfl | rfl
      · decide
      · decide
      · decide
      · simp at absent
      · decide
    have openThere : c = '&' → Text.completesReference (rest.flatMap escapedChar) = false := by
      intro ampersand
      rw [completesReference_escapedChars, open_ ampersand]
    have written : ('&' :: (word ++ Text.escape rest)).flatMap escapedChar =
        '&' :: (word ++ (Text.escape rest).flatMap escapedChar) := by
      rw [List.flatMap_cons, List.flatMap_append, kept]
      rfl
    rw [Text.escape_reserved reserved open_, List.cons_append, written, Text.escape_append_reference complete, later,
      List.flatMap_cons, alone, List.singleton_append, Text.escape_reserved reserved openThere, List.cons_append]
  | plain c rest plain inductionHypothesis =>
    rw [List.mem_cons, not_or] at absent
    have kept : ∀ d ∈ escapedChar c, Text.reserved? d = none := fun d => reserved?_of_mem_escapedChar plain
    rw [Text.escape_plain plain, List.flatMap_cons, List.flatMap_cons, Text.escape_append_plain kept,
      Text.escape_append_plain kept, inductionHypothesis absent.2]

/-! ### Data values -/

/-- Texts around a character outside references are escaped each on its own. -/
theorem escape_congr {front front' back back' : Text} {c : Char} (outside : Text.isReferenceChar c = false)
    (other : c ≠ '&') (before : Text.escape front = Text.escape front') (after : Text.escape back = Text.escape back') :
    Text.escape (front ++ c :: back) = Text.escape (front' ++ c :: back') := by
  rw [Text.escape_separated outside, Text.escape_separated outside, before, Text.escape_cons other,
    Text.escape_cons other, after]

/-- A string without double quotes may be escaped before the data is written. -/
theorem sameEscaped_string {text : Text} (absent : '"' ∉ text) :
    SameEscaped (.string (Text.escape text)) (.string text) := by
  have opened (inner : Text) : (Json.string inner).compact = [] ++ '"' :: (inner.flatMap escapedChar ++ '"' :: []) := by
    simp [compact, quoted]
  rw [SameEscaped, opened, opened]
  apply escape_congr (by decide) (by decide) rfl
  exact escape_congr (by decide) (by decide) (escape_escapedChars absent) rfl

/-- Items in a row may be replaced each. -/
theorem escape_compactItems {α : Type} {first second : α → Json} {items : List α}
    (same : ∀ item ∈ items, SameEscaped (first item) (second item)) :
    Text.escape (compactItems (items.map first)) = Text.escape (compactItems (items.map second)) := by
  induction items with
  | nil => rfl
  | cons item rest inductionHypothesis =>
    have here := same item (by simp)
    have later := inductionHypothesis fun other member => same other (by simp [member])
    cases rest with
    | nil => exact here
    | cons next others => exact escape_congr (by decide) (by decide) here later

/-- Fields in a row may be replaced each. -/
theorem escape_compactFields {first second : List (Text × Json)} (same : SameFields first second) :
    Text.escape (compactFields first) = Text.escape (compactFields second) := by
  induction same with
  | nil => rfl
  | @cons key value value' rest others here later inductionHypothesis =>
    have field : Text.escape (quoted key ++ ':' :: value.compact) = Text.escape (quoted key ++ ':' :: value'.compact) :=
      escape_congr (by decide) (by decide) rfl here
    cases later with
    | nil => exact field
    | cons _ _ => exact escape_congr (by decide) (by decide) field inductionHypothesis

/-- An array may be replaced item by item. -/
theorem sameEscaped_array {α : Type} {first second : α → Json} {items : List α}
    (same : ∀ item ∈ items, SameEscaped (first item) (second item)) :
    SameEscaped (.array (items.map first)) (.array (items.map second)) := by
  have opened (inner : List Json) : (Json.array inner).compact = [] ++ '[' :: (compactItems inner ++ ']' :: []) := by
    simp [compact]
  rw [SameEscaped, opened, opened]
  apply escape_congr (by decide) (by decide) rfl
  exact escape_congr (by decide) (by decide) (escape_compactItems same) rfl

/-- An object may be replaced field by field. -/
theorem sameEscaped_object {first second : List (Text × Json)} (same : SameFields first second) :
    SameEscaped (.object first) (.object second) := by
  have opened (inner : List (Text × Json)) :
      (Json.object inner).compact = [] ++ '\x7b' :: (compactFields inner ++ '\x7d' :: []) := by
    simp [compact]
  rw [SameEscaped, opened, opened]
  apply escape_congr (by decide) (by decide) rfl
  exact escape_congr (by decide) (by decide) (escape_compactFields same) rfl

end MapEmbed.Json
