import MapEmbed.Text.Reference

/-!
# What escaping changes

Escaping writes references in the place of reserved characters and leaves all else, complete references included.
Whether an ampersand starts a complete reference is decided by the characters right after it that can stand in
references: so a text is escaped in pieces, and two texts that a character outside references separates are escaped
each on its own.
-/

namespace MapEmbed.Text

/-- May stand in a character reference after its ampersand. -/
def isReferenceChar (c : Char) : Bool :=
  Unicode.isAsciiAlphanumeric c || c == '#' || c == ';'

/-- What follows the ampersand of a complete reference: a number after `#`, a hexadecimal number after `#x`, or a
name, each closed by a semicolon. -/
inductive ReferenceWord : Text → Prop where
  | decimal {digits : Text} (some_ : digits ≠ []) (all : ∀ c ∈ digits, Unicode.isAsciiDigit c = true) :
      ReferenceWord ('#' :: (digits ++ [';']))
  | hexadecimal {mark : Char} {digits : Text} (marked : mark = 'x' ∨ mark = 'X') (some_ : digits ≠ [])
      (all : ∀ c ∈ digits, isHexDigit c = true) : ReferenceWord ('#' :: mark :: (digits ++ [';']))
  | name {first : Char} {others : Text} (letter : Unicode.isAsciiLetter first = true)
      (all : ∀ c ∈ others, Unicode.isAsciiAlphanumeric c = true) : ReferenceWord (first :: (others ++ [';']))

/-! ### Characters of references -/

/-- A hexadecimal digit is a letter or a digit. -/
theorem isAsciiAlphanumeric_of_isHexDigit {c : Char} (digit : isHexDigit c = true) :
    Unicode.isAsciiAlphanumeric c = true := by
  simp only [isHexDigit, Unicode.isAsciiDigit, Unicode.isAsciiAlphanumeric, Unicode.isAsciiLetter, Bool.or_eq_true,
    Bool.and_eq_true, decide_eq_true_eq] at digit ⊢
  rcases digit with (digit | ⟨low, high⟩) | ⟨low, high⟩
  · exact Or.inr digit
  · exact Or.inl (Or.inl ⟨low, Nat.le_trans high (by decide : 'f'.toNat ≤ 'z'.toNat)⟩)
  · exact Or.inl (Or.inr ⟨low, Nat.le_trans high (by decide : 'F'.toNat ≤ 'Z'.toNat)⟩)

/-- A letter or a digit may stand in a reference. -/
theorem isReferenceChar_of_alphanumeric {c : Char} (all : Unicode.isAsciiAlphanumeric c = true) :
    isReferenceChar c = true := by
  simp [isReferenceChar, all]

/-- A reserved character may not. -/
theorem reserved?_of_isReferenceChar {c : Char} (inside : isReferenceChar c = true) : reserved? c = none := by
  have other {d : Char} (outside : isReferenceChar d = false) : c ≠ d := by
    rintro rfl
    simp [outside] at inside
  unfold reserved?
  rw [if_neg (other (by decide)), if_neg (other (by decide)), if_neg (other (by decide)),
    if_neg (other (by decide)), if_neg (other (by decide))]

/-- The five characters that are reserved. -/
theorem mem_of_reserved? {c : Char} (reserved : (reserved? c).isSome = true) :
    c ∈ ['&', '<', '>', '"', '\x27'] := by
  unfold reserved? at reserved
  simp only [List.mem_cons, List.not_mem_nil, or_false]
  by_cases ampersand : c = '&'
  · exact Or.inl ampersand
  · by_cases less : c = '<'
    · exact Or.inr (Or.inl less)
    · by_cases greater : c = '>'
      · exact Or.inr (Or.inr (Or.inl greater))
      · by_cases quote : c = '"'
        · exact Or.inr (Or.inr (Or.inr (Or.inl quote)))
        · by_cases apostrophe : c = '\x27'
          · exact Or.inr (Or.inr (Or.inr (Or.inr apostrophe)))
          · simp [ampersand, less, greater, quote, apostrophe] at reserved

/-- The characters of a complete reference may stand in references. -/
theorem ReferenceWord.isReferenceChar {word : Text} (complete : ReferenceWord word) :
    ∀ c ∈ word, Text.isReferenceChar c = true := by
  cases complete with
  | decimal some_ all =>
    intro c member
    simp only [List.mem_cons, List.mem_append, List.not_mem_nil, or_false] at member
    rcases member with rfl | digit | rfl
    · decide
    · exact isReferenceChar_of_alphanumeric (by simp [Unicode.isAsciiAlphanumeric, all c digit])
    · decide
  | @hexadecimal mark digits marked some_ all =>
    intro c member
    simp only [List.mem_cons, List.mem_append, List.not_mem_nil, or_false] at member
    rcases member with rfl | rfl | digit | rfl
    · decide
    · rcases marked with rfl | rfl <;> decide
    · exact isReferenceChar_of_alphanumeric (isAsciiAlphanumeric_of_isHexDigit (all c digit))
    · decide
  | name letter all =>
    intro c member
    simp only [List.mem_cons, List.mem_append, List.not_mem_nil, or_false] at member
    rcases member with rfl | other | rfl
    · exact isReferenceChar_of_alphanumeric (by simp [Unicode.isAsciiAlphanumeric, letter])
    · exact isReferenceChar_of_alphanumeric (all c other)
    · decide

/-! ### Complete references -/

/-- A run of the given characters up to a semicolon. -/
theorem dropWhile_head?_eq_semicolon_iff {member : Char → Bool} (stops : member ';' = false) {text : Text} :
    (text.dropWhile member).head? = some ';' ↔
      ∃ run, (∀ c ∈ run, member c = true) ∧ run ++ [';'] <+: text := by
  constructor
  · intro closed
    refine ⟨text.takeWhile member, fun c inside => by simpa using List.all_eq_true.mp List.all_takeWhile c inside, ?_⟩
    cases rest : text.dropWhile member with
    | nil => simp [rest] at closed
    | cons c after =>
      simp only [rest, List.head?_cons, Option.some.injEq] at closed
      subst closed
      refine ⟨after, ?_⟩
      rw [List.append_assoc, List.singleton_append, ← rest, List.takeWhile_append_dropWhile]
  · rintro ⟨run, all, after, rfl⟩
    rw [List.append_assoc, List.dropWhile_append_of_pos all]
    simp [stops]

/-- A non-empty run up to a semicolon. -/
theorem runThenSemicolon_iff {member : Char → Bool} (stops : member ';' = false) {text : Text} :
    runThenSemicolon member text = true ↔
      ∃ run, run ≠ [] ∧ (∀ c ∈ run, member c = true) ∧ run ++ [';'] <+: text := by
  cases text with
  | nil => simp [runThenSemicolon]
  | cons c rest =>
    simp only [runThenSemicolon, Bool.and_eq_true, beq_iff_eq]
    rw [dropWhile_head?_eq_semicolon_iff stops]
    constructor
    · rintro ⟨first, run, all, after, split⟩
      exact ⟨c :: run, by simp, by simpa [first] using all, after, by simp [← split]⟩
    · rintro ⟨run, some_, all, after, split⟩
      cases run with
      | nil => exact absurd rfl some_
      | cons d others =>
        simp only [List.cons_append, List.cons.injEq] at split
        obtain ⟨rfl, split⟩ := split
        exact ⟨all d (by simp), others, fun e inside => all e (by simp [inside]), after, split⟩

/-- A text completes a reference exactly when the word of one stands in front of it. -/
theorem completesReference_iff {text : Text} :
    completesReference text = true ↔ ∃ word, ReferenceWord word ∧ word <+: text := by
  constructor
  · intro completes
    unfold completesReference at completes
    split at completes
    · obtain ⟨run, some_, all, front⟩ := (runThenSemicolon_iff (by decide)).mp completes
      exact ⟨_, .hexadecimal (Or.inl rfl) some_ all, by simpa using front⟩
    · obtain ⟨run, some_, all, front⟩ := (runThenSemicolon_iff (by decide)).mp completes
      exact ⟨_, .hexadecimal (Or.inr rfl) some_ all, by simpa using front⟩
    · obtain ⟨run, some_, all, front⟩ := (runThenSemicolon_iff (by decide)).mp completes
      exact ⟨_, .decimal some_ all, by simpa using front⟩
    · rename_i c rest _ _ _
      simp only [Bool.and_eq_true, beq_iff_eq] at completes
      obtain ⟨run, all, front⟩ := (dropWhile_head?_eq_semicolon_iff (by decide)).mp completes.2
      exact ⟨_, .name completes.1 all, by simpa using front⟩
    · simp at completes
  · rintro ⟨word, complete, rest, rfl⟩
    cases complete with
    | @decimal digits some_ all =>
      obtain ⟨d, others, rfl⟩ := List.exists_cons_of_ne_nil some_
      have digit : Unicode.isAsciiDigit d = true := all d (by simp)
      have small : d ≠ 'x' := by
        rintro rfl
        exact absurd digit (by decide)
      have capital : d ≠ 'X' := by
        rintro rfl
        exact absurd digit (by decide)
      have run := (@runThenSemicolon_iff Unicode.isAsciiDigit (by decide) _).mpr
        ⟨d :: others, some_, all, rest, rfl⟩
      simpa [completesReference, small, capital] using run
    | @hexadecimal mark digits marked some_ all =>
      have run := (@runThenSemicolon_iff isHexDigit (by decide) _).mpr ⟨digits, some_, all, rest, rfl⟩
      rcases marked with rfl | rfl <;> simpa [completesReference] using run
    | @name first others letter all =>
      have closed := (@dropWhile_head?_eq_semicolon_iff Unicode.isAsciiAlphanumeric (by decide) _).mpr
        ⟨others, all, rest, rfl⟩
      have notHash : first ≠ '#' := by
        rintro rfl
        exact absurd letter (by decide)
      simpa [completesReference, notHash, letter] using closed

/-- Whether a reference is complete is decided by the characters that can stand in references. -/
theorem completesReference_takeWhile (text : Text) :
    completesReference (text.takeWhile isReferenceChar) = completesReference text := by
  apply Bool.eq_iff_iff.mpr
  rw [completesReference_iff, completesReference_iff]
  constructor
  · rintro ⟨word, complete, front⟩
    exact ⟨word, complete, front.trans (List.takeWhile_prefix _)⟩
  · rintro ⟨word, complete, rest, rfl⟩
    rw [List.takeWhile_append_of_pos complete.isReferenceChar]
    exact ⟨word, complete, List.prefix_append _ _⟩

/-- Texts that go on with the same characters of references complete the same references. -/
theorem completesReference_congr {first second : Text}
    (same : first.takeWhile isReferenceChar = second.takeWhile isReferenceChar) :
    completesReference first = completesReference second := by
  rw [← completesReference_takeWhile first, same, completesReference_takeWhile]

/-- A run of characters ends before a character that is none of them, whatever follows it. -/
theorem takeWhile_separated {member : Char → Bool} {c : Char} (outside : member c = false) (front back : Text) :
    (front ++ c :: back).takeWhile member = front.takeWhile member := by
  induction front with
  | nil => simp [outside]
  | cons d rest ih =>
    simp only [List.cons_append, List.takeWhile_cons, ih]

/-- The characters of a text are none that does not stand in it. -/
theorem bne_of_not_mem {c : Char} {text : Text} (absent : c ∉ text) : ∀ d ∈ text, (d != c) = true := by
  intro d member
  apply bne_iff_ne.mpr
  rintro rfl
  exact absent member

/-- A text runs to the first character that does not stand in it. -/
theorem takeWhile_ne_append {c : Char} {front : Text} (absent : c ∉ front) (back : Text) :
    (front ++ c :: back).takeWhile (· != c) = front := by
  rw [List.takeWhile_append_of_pos (bne_of_not_mem absent), List.takeWhile_cons_of_neg (by simp), List.append_nil]

/-- What is left after such a run goes on with that character. -/
theorem dropWhile_separated {member : Char → Bool} {c : Char} (outside : member c = false) (front back : Text) :
    (front ++ c :: back).dropWhile member = front.dropWhile member ++ c :: back := by
  induction front with
  | nil => simp [outside]
  | cons d rest ih =>
    simp only [List.cons_append, List.dropWhile_cons, ih]
    split <;> rfl

/-! ### Escaping -/

/-- What is written for a reserved character is a complete reference. -/
theorem exists_of_reserved? {c : Char} {reference : Text} (reserved : reserved? c = some reference) :
    ∃ word, ReferenceWord word ∧ reference = '&' :: word := by
  have ampersand : ReferenceWord "amp;".toList := @ReferenceWord.name 'a' ['m', 'p'] (by decide)
    (List.all_eq_true.mp (by decide))
  have less : ReferenceWord "lt;".toList := @ReferenceWord.name 'l' ['t'] (by decide)
    (List.all_eq_true.mp (by decide))
  have greater : ReferenceWord "gt;".toList := @ReferenceWord.name 'g' ['t'] (by decide)
    (List.all_eq_true.mp (by decide))
  have quote : ReferenceWord "quot;".toList := @ReferenceWord.name 'q' ['u', 'o', 't'] (by decide)
    (List.all_eq_true.mp (by decide))
  have apostrophe : ReferenceWord "#039;".toList := @ReferenceWord.decimal ['0', '3', '9'] (by decide)
    (List.all_eq_true.mp (by decide))
  unfold reserved? at reserved
  split at reserved
  · exact ⟨_, ampersand, (Option.some.inj reserved).symm⟩
  · split at reserved
    · exact ⟨_, less, (Option.some.inj reserved).symm⟩
    · split at reserved
      · exact ⟨_, greater, (Option.some.inj reserved).symm⟩
      · split at reserved
        · exact ⟨_, quote, (Option.some.inj reserved).symm⟩
        · split at reserved
          · exact ⟨_, apostrophe, (Option.some.inj reserved).symm⟩
          · simp at reserved

/-- An ampersand of a complete reference is kept. -/
theorem escape_reference {rest : Text} (completes : completesReference rest = true) :
    escape ('&' :: rest) = '&' :: escape rest := by
  simp [escape, completes]

/-- Every other ampersand gets a reference. -/
theorem escape_ampersand {rest : Text} (open_ : completesReference rest = false) :
    escape ('&' :: rest) = "&amp;".toList ++ escape rest := by
  simp [escape, open_, reserved?]

/-- A character other than the ampersand is escaped alone. -/
theorem escape_cons {c : Char} (other : c ≠ '&') (rest : Text) :
    escape (c :: rest) = (reserved? c).getD [c] ++ escape rest := by
  simp [escape, other]

/-- A character that is not reserved is kept. -/
theorem escape_plain {c : Char} (plain : reserved? c = none) (rest : Text) : escape (c :: rest) = c :: escape rest := by
  have other : c ≠ '&' := by
    rintro rfl
    simp [reserved?] at plain
  rw [escape_cons other, plain]
  rfl

/-- A text without reserved characters is kept in front of any other. -/
theorem escape_append_plain {front : Text} (plain : ∀ c ∈ front, reserved? c = none) (back : Text) :
    escape (front ++ back) = front ++ escape back := by
  induction front with
  | nil => rfl
  | cons c rest ih =>
    rw [List.cons_append, escape_plain (plain c (by simp)), ih fun d member => plain d (by simp [member]),
      List.cons_append]

/-- A text without reserved characters is kept. -/
theorem escape_of_plain {text : Text} (plain : ∀ c ∈ text, reserved? c = none) : escape text = text := by
  simpa [escape] using escape_append_plain plain []

/-- A complete reference is kept in front of any text. -/
theorem escape_append_reference {word : Text} (complete : ReferenceWord word) (back : Text) :
    escape ('&' :: (word ++ back)) = '&' :: (word ++ escape back) := by
  have completes : completesReference (word ++ back) = true :=
    completesReference_iff.mpr ⟨word, complete, List.prefix_append _ _⟩
  rw [escape_reference completes, escape_append_plain]
  intro c member
  exact reserved?_of_isReferenceChar (complete.isReferenceChar c member)

/-- A reserved character that starts no complete reference gets one. -/
theorem escape_reserved {c : Char} {reference rest : Text} (reserved : reserved? c = some reference)
    (open_ : c = '&' → completesReference rest = false) : escape (c :: rest) = reference ++ escape rest := by
  have written : ¬(c = '&' ∧ completesReference rest = true) := by
    rintro ⟨ampersand, completes⟩
    simp [open_ ampersand] at completes
  simp [escape, written, reserved]

/-- Induction over a text in the pieces in which it is escaped: a complete reference, a reserved character that
starts none, or any other character, and then the rest. -/
@[elab_as_elim]
theorem escape_induction {motive : Text → Prop} (nil : motive [])
    (reference : ∀ word back, ReferenceWord word → motive back → motive ('&' :: (word ++ back)))
    (reserved : ∀ c word rest, ReferenceWord word → reserved? c = some ('&' :: word) →
      (c = '&' → completesReference rest = false) → motive rest → motive (c :: rest))
    (plain : ∀ c rest, reserved? c = none → motive rest → motive (c :: rest)) (text : Text) : motive text := by
  induction size : text.length using Nat.strongRecOn generalizing text with
  | ind n inductionHypothesis =>
    cases text with
    | nil => exact nil
    | cons c rest =>
      have later : motive rest := inductionHypothesis rest.length (by simp [← size]) rest rfl
      by_cases kept : c = '&' ∧ completesReference rest = true
      · obtain ⟨rfl, completes⟩ := kept
        obtain ⟨word, complete, back, rfl⟩ := completesReference_iff.mp completes
        have shorter : back.length < n := by
          simp only [List.length_cons, List.length_append] at size
          omega
        exact reference word back complete (inductionHypothesis back.length shorter back rfl)
      · cases found : reserved? c with
        | none => exact plain c rest found later
        | some reference =>
          obtain ⟨word, complete, rfl⟩ := exists_of_reserved? found
          apply reserved c word rest complete found _ later
          intro ampersand
          simpa [ampersand] using kept

/-- A text and its escaped form are the same, or they are up to a reserved character, for which an ampersand is
written. -/
theorem escape_agrees (text : Text) : Text.escape text = text ∨ ∃ front c rest after,
    text = front ++ c :: rest ∧ Text.escape text = front ++ '&' :: after ∧ (reserved? c).isSome = true := by
  induction text using escape_induction with
  | nil => exact Or.inl rfl
  | reference word back complete inductionHypothesis =>
    exact Or.inr ⟨[], '&', word ++ back, word ++ Text.escape back, rfl, escape_append_reference complete back, rfl⟩
  | reserved c word rest complete reserved open_ inductionHypothesis =>
    refine Or.inr ⟨[], c, rest, word ++ Text.escape rest, rfl, ?_, by simp [reserved]⟩
    rw [escape_reserved reserved open_]
    rfl
  | plain c rest plain inductionHypothesis =>
    rw [escape_plain plain]
    rcases inductionHypothesis with same | ⟨front, d, later, after, split, written, reserved⟩
    · exact Or.inl (by rw [same])
    · exact Or.inr ⟨c :: front, d, later, after, by rw [split]; rfl, by rw [written]; rfl, reserved⟩

/-- Texts between which a character outside references stands are escaped each on its own. -/
theorem escape_separated {c : Char} (outside : isReferenceChar c = false) (front back : Text) :
    escape (front ++ c :: back) = escape front ++ escape (c :: back) := by
  induction front with
  | nil => rfl
  | cons d rest ih =>
    have same : completesReference (rest ++ c :: back) = completesReference rest :=
      completesReference_congr (takeWhile_separated outside rest back)
    by_cases ampersand : d = '&'
    · subst ampersand
      cases completes : completesReference rest with
      | true =>
        rw [List.cons_append, escape_reference (same.trans completes), escape_reference completes, ih, List.cons_append]
      | false =>
        rw [List.cons_append, escape_ampersand (same.trans completes), escape_ampersand completes, ih,
          List.append_assoc]
    · rw [List.cons_append, escape_cons ampersand, escape_cons ampersand, ih, List.append_assoc]

/-- Nothing is escaped to nothing but the empty text. -/
theorem escape_eq_nil_iff {text : Text} : escape text = [] ↔ text = [] := by
  cases text with
  | nil => simp [escape]
  | cons c rest =>
    have written : escape (c :: rest) ≠ [] := by
      by_cases kept : c = '&' ∧ completesReference rest = true
      · simp [escape, kept]
      · cases reserved : reserved? c with
        | none => simp [escape, kept, reserved]
        | some reference =>
          obtain ⟨word, -, rfl⟩ := exists_of_reserved? reserved
          simp [escape, kept, reserved]
    simp [written]

/-- Besides ampersands an escaped text holds characters of the text that are not reserved, and characters of
references. -/
theorem mem_escape {text : Text} {c : Char} (member : c ∈ escape text) :
    c = '&' ∨ reserved? c = none ∧ (c ∈ text ∨ isReferenceChar c = true) := by
  induction text with
  | nil => simp [escape] at member
  | cons d rest ih =>
    have later (inside : c ∈ escape rest) :
        c = '&' ∨ reserved? c = none ∧ (c ∈ d :: rest ∨ isReferenceChar c = true) := by
      rcases ih inside with ampersand | ⟨plain, here | reference⟩
      · exact Or.inl ampersand
      · exact Or.inr ⟨plain, Or.inl (by simp [here])⟩
      · exact Or.inr ⟨plain, Or.inr reference⟩
    by_cases kept : d = '&' ∧ completesReference rest = true
    · simp only [escape, kept, and_self, if_true, List.mem_cons] at member
      rcases member with rfl | inside
      · exact Or.inl rfl
      · exact later inside
    · simp only [escape, kept, if_false, List.mem_append] at member
      rcases member with here | inside
      · cases reserved : reserved? d with
        | none =>
          simp only [reserved, Option.getD_none, List.mem_singleton] at here
          exact Or.inr ⟨here ▸ reserved, Or.inl (by simp [here])⟩
        | some reference =>
          obtain ⟨word, complete, rfl⟩ := exists_of_reserved? reserved
          simp only [reserved, Option.getD_some, List.mem_cons] at here
          rcases here with rfl | inside
          · exact Or.inl rfl
          · have reference := complete.isReferenceChar c inside
            exact Or.inr ⟨reserved?_of_isReferenceChar reference, Or.inr reference⟩
      · exact later inside

/-- Of the reserved characters an encoded text has ampersands only. -/
theorem reserved?_of_mem_encode {text : Text} {c : Char} (member : c ∈ encode text) :
    c = '&' ∨ reserved? c = none := by
  induction text with
  | nil => simp [encode] at member
  | cons d rest ih =>
    rw [encode, List.mem_append] at member
    rcases member with here | later
    · cases reserved : reserved? d with
      | none =>
        rw [reserved, Option.getD_none, List.mem_singleton] at here
        exact Or.inr (here ▸ reserved)
      | some reference =>
        obtain ⟨word, complete, rfl⟩ := exists_of_reserved? reserved
        rw [reserved, Option.getD_some, List.mem_cons] at here
        rcases here with ampersand | inside
        · exact Or.inl ampersand
        · exact Or.inr (reserved?_of_isReferenceChar (complete.isReferenceChar c inside))
    · exact ih later

/-- An escaped text holds no double quote. -/
theorem quote_not_mem_escape (text : Text) : '"' ∉ escape text := by
  intro member
  rcases mem_escape member with ampersand | ⟨plain, -⟩
  · exact absurd ampersand (by decide)
  · exact absurd plain (by decide)

/-- A text that is escaped to one without ampersands was that text. -/
theorem eq_of_escape_eq {text plain : Text} (none_ : '&' ∉ plain) (same : escape text = plain) : text = plain := by
  subst same
  have kept : ∀ c ∈ text, reserved? c = none := by
    induction text with
    | nil => simp
    | cons d rest ih =>
      by_cases ampersand : d = '&'
      · subst ampersand
        exfalso
        cases completes : completesReference rest with
        | true => simp [escape_reference completes] at none_
        | false => simp [escape_ampersand completes] at none_
      · rw [escape_cons ampersand] at none_
        cases reserved : reserved? d with
        | some reference =>
          obtain ⟨word, -, rfl⟩ := exists_of_reserved? reserved
          simp [reserved] at none_
        | none =>
          intro c member
          rcases List.mem_cons.mp member with rfl | later
          · exact reserved
          · exact ih (fun inside => none_ (by simp [inside])) c later
  exact (escape_of_plain kept).symm

end MapEmbed.Text
