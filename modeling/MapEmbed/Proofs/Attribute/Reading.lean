import MapEmbed.Proofs.Attribute.Lexeme
import MapEmbed.Proofs.Lookup
import MapEmbed.Proofs.Number.Characters

/-!
# What attribute text can say

Not every map in insertion order is one that attribute text denotes. Its keys are small words or numbers, and no
value holds an invisible character. Attributes with both properties are `Readable`; they are the ones that can be
written and read again.
-/

namespace MapEmbed

/-- A seven-bit digit may stand in a key and is small. -/
theorem Unicode.digit_isKeyChar {c : Char} (digit : Unicode.isAsciiDigit c = true) :
    AttributeToken.isKeyChar c = true ∧ Unicode.isSmall c := by
  simp only [Unicode.isAsciiDigit, Bool.and_eq_true, decide_eq_true_eq] at digit
  have low : 48 ≤ c.toNat := digit.1
  have high : c.toNat ≤ 57 := digit.2
  have every : ∀ n : Fin 58, 48 ≤ n.val → AttributeToken.isKeyChar (Char.ofNat n.val) = true ∧
      Unicode.lowerChar (Char.ofNat n.val) = [Char.ofNat n.val] ∧ (Char.ofNat n.val).toNat ≠ 0x3A3 := by decide
  have here := every ⟨c.toNat, by omega⟩ low
  rw [Char.ofNat_toNat] at here
  exact here

/-- A number in print is a positional key. -/
theorem isPositionalKey_ofNat (n : Nat) : isPositionalKey (Text.ofNat n) = true := by
  simp only [isPositionalKey, Bool.and_eq_true, Bool.not_eq_true', List.isEmpty_eq_false_iff, List.all_eq_true]
  exact ⟨Nat.toDigits_ne_nil, fun _ member => Text.isAsciiDigit_of_mem_ofNat member⟩

namespace Attributes
open AttributeToken

/-- A key of attributes that can be read: not empty, of key characters, and lowered. -/
def IsKey (key : Text) : Prop :=
  key ≠ [] ∧ (∀ c ∈ key, isKeyChar c = true) ∧ Unicode.lower key = key

instance (key : Text) : Decidable (IsKey key) :=
  decidable_of_iff (key ≠ [] ∧ key.all isKeyChar = true ∧ Unicode.lower key = key)
    (and_congr_right fun _ => and_congr_left fun _ => List.all_eq_true)

/-- Attributes that can be read: no key is strange and no value holds an invisible character. -/
def Readable (attributes : Attributes) : Prop :=
  ∀ entry ∈ attributes.entries, IsKey entry.1 ∧ ∀ c ∈ entry.2, ¬isInvisible c

/-- A number in print can be a key. -/
theorem isKey_ofNat (n : Nat) : IsKey (Text.ofNat n) := by
  refine ⟨Nat.toDigits_ne_nil, ?_, ?_⟩
  · intro c member
    exact (Unicode.digit_isKeyChar (Text.isAsciiDigit_of_mem_ofNat member)).1
  · apply Unicode.lowerFrom_of_isSmall
    intro c member
    exact (Unicode.digit_isKeyChar (Text.isAsciiDigit_of_mem_ofNat member)).2

/-- Lowering keeps a key a key: word characters and hyphens become such. -/
theorem isKey_lower {key : Text} (some_ : key ≠ []) (all : ∀ c ∈ key, isKeyChar c = true) :
    IsKey (Unicode.lower key) := by
  refine ⟨fun empty => some_ (Unicode.lower_eq_nil_iff.mp empty), ?_, Unicode.lower_lower key⟩
  intro small member
  obtain ⟨c, listed, form⟩ := Unicode.exists_of_mem_lowerFrom member
  have source := all c listed
  simp only [isKeyChar, Bool.or_eq_true, beq_iff_eq] at source ⊢
  rcases form with rfl | rfl | form
  · exact Or.inl (by decide)
  · exact Or.inl (by decide)
  · rcases source with word | rfl
    · exact Or.inl (Unicode.isWordChar_of_mem_lowerChar word form)
    · exact Or.inr (List.mem_singleton.mp form)

/-- Adding tokens that a text can give adds keys and values that the text can give. -/
theorem mem_addTokens {text : Text} {tokens : List AttributeToken} {attributes : Attributes} {count : Nat}
    (written : ∀ token ∈ tokens, token.WrittenIn text) {entry : Text × Text}
    (member : entry ∈ (addTokens attributes count tokens).entries) :
    entry ∈ attributes.entries ∨ IsKey entry.1 ∧ ∀ c ∈ entry.2, c ∈ text := by
  induction tokens generalizing attributes count with
  | nil => exact Or.inl member
  | cons token rest inductionHypothesis =>
    have later : ∀ token ∈ rest, token.WrittenIn text := fun other listed => written other (List.mem_cons_of_mem _ listed)
    have first := written token List.mem_cons_self
    cases token with
    | named key value =>
      rcases inductionHypothesis later member with here | found
      · rcases Entries.mem_insert here with rfl | before
        · exact Or.inr ⟨isKey_lower first.1.1 first.1.2, first.2⟩
        · exact Or.inl before
      · exact Or.inr found
    | positional value =>
      rcases inductionHypothesis later member with here | found
      · rcases Entries.mem_insert here with rfl | before
        · exact Or.inr ⟨isKey_ofNat count, first⟩
        · exact Or.inl before
      · exact Or.inr found
    | malformed value => exact inductionHypothesis later member

/-- What is read from a text has keys, and its values hold only characters of the text made visible. -/
theorem mem_parseLenient {text : Text} {entry : Text × Text} (member : entry ∈ (parseLenient text).entries) :
    IsKey entry.1 ∧ ∀ c ∈ entry.2, c ∈ normalize text := by
  rcases mem_addTokens (fun _ listed => writtenIn_ofText listed) member with nothing | found
  · simp at nothing
  · exact found

/-- What is read can be read. -/
theorem readable_parseLenient (text : Text) : (parseLenient text).Readable := by
  intro entry member
  obtain ⟨key, values⟩ := mem_parseLenient member
  exact ⟨key, fun c inside => (mem_normalize (values c inside)).2⟩

/-- A strict reading is a lenient one that found something. -/
theorem parse_eq_ok_iff {text : Text} {attributes : Attributes} :
    parse text = .ok attributes ↔
      (∀ token ∈ ofText text, token.malformed? = none) ∧ parseLenient text = attributes ∧ attributes.entries ≠ [] := by
  unfold parse parseLenient
  simp only
  constructor
  · intro read
    split at read
    · simp at read
    · rename_i wellFormed
      split at read
      · simp at read
      · rename_i some_
        simp only [Except.ok.injEq] at read
        subst read
        exact ⟨List.findSome?_eq_none_iff.mp wellFormed, rfl, by simpa [OrderedMap.isEmpty] using some_⟩
  · rintro ⟨wellFormed, rfl, some_⟩
    have none_ := List.findSome?_eq_none_iff.mpr wellFormed
    simp only [none_]
    rw [if_neg]
    simpa [OrderedMap.isEmpty] using some_

/-- What is read strictly is not empty. -/
theorem isEmpty_of_parse {text : Text} (read : ∃ attributes, parse text = .ok attributes) :
    (parseLenient text).isEmpty = false := by
  obtain ⟨attributes, same⟩ := read
  obtain ⟨-, rfl, some_⟩ := parse_eq_ok_iff.mp same
  simpa [OrderedMap.isEmpty] using some_

/-- A blank before attribute text does not change its attributes. -/
theorem parseLenient_space (text : Text) : parseLenient (' ' :: text) = parseLenient text := by
  rw [parseLenient, ofText_space, parseLenient]

/-- Nor does it change whether the text can be read strictly. -/
theorem parse_space (text : Text) {attributes : Attributes} :
    parse (' ' :: text) = .ok attributes ↔ parse text = .ok attributes := by
  rw [parse_eq_ok_iff, parse_eq_ok_iff, ofText_space, parseLenient_space]

end Attributes
end MapEmbed
