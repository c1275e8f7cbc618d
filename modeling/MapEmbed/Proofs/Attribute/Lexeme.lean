import MapEmbed.Attribute.Reader
import MapEmbed.Proofs.Unicode.SmallForm

/-!
# Lexemes of attribute text

What one step of the lexer takes: a front of the text that is not empty, and a token whose key and value were
written in that front. The scan goes on after it, so every token of a text is made of characters of the text, and
its key of characters that may stand in one.
-/

namespace MapEmbed.AttributeToken

/-- A token that a text can give: keys are not empty and of key characters, values are written in the text. -/
def WrittenIn (text : Text) : AttributeToken → Prop
  | .named key value => (key ≠ [] ∧ ∀ c ∈ key, isKeyChar c = true) ∧ ∀ c ∈ value, c ∈ text
  | .positional value => ∀ c ∈ value, c ∈ text
  | .malformed written => ∀ c ∈ written, c ∈ text

/-- A token that is written in a text is written in every text with the same characters and more. -/
theorem WrittenIn.mono {token : AttributeToken} {small large : Text} (written : token.WrittenIn small)
    (more : ∀ c ∈ small, c ∈ large) : token.WrittenIn large := by
  cases token with
  | named key value => exact ⟨written.1, fun c member => more c (written.2 c member)⟩
  | positional value => exact fun c member => more c (written c member)
  | malformed value => exact fun c member => more c (written c member)

/-- Blanks stand in no key. -/
theorem isBlank_of_isKeyChar {c : Char} (key : isKeyChar c = true) : Unicode.isBlank c = false := by
  apply Bool.eq_false_iff.mpr
  intro blank
  have word := Unicode.isWordChar_of_isBlank blank
  simp only [isKeyChar, word, Bool.false_or, beq_iff_eq] at key
  subst key
  exact absurd blank (by decide)

/-- Nor do they stand in a bare value. -/
theorem isBlank_of_isBareChar {c : Char} (bare : isBareChar c = true) : Unicode.isBlank c = false := by
  simp only [isBareChar, Bool.and_eq_true, Bool.not_eq_true'] at bare
  exact bare.1

/-- A value in quotes runs to the next quote of the kind, and a lexeme ends behind that. -/
theorem takeQuoted?_eq_some_iff {quote : Char} {text value after : Text} :
    takeQuoted? quote text = some (value, after) ↔
      text = quote :: (value ++ quote :: after) ∧ quote ∉ value ∧ endsLexeme after = true := by
  constructor
  · intro taken
    cases text with
    | nil => simp [takeQuoted?] at taken
    | cons c rest =>
      simp only [takeQuoted?] at taken
      split at taken
      · rename_i opened
        split at taken
        · simp at taken
        · rename_i closing left closed
          simp only [Option.ite_none_right_eq_some, Option.some.injEq, Prod.mk.injEq] at taken
          obtain ⟨ends, rfl, rfl⟩ := taken
          have whole := List.takeWhile_append_dropWhile (p := (· != quote)) (l := rest)
          have stop := List.head?_dropWhile_not (· != quote) rest
          rw [closed] at whole stop
          simp only [List.head?_cons, bne_eq_false_iff_eq] at stop
          refine ⟨?_, ?_, ends⟩
          · rw [stop] at whole
            rw [opened, whole]
          · intro member
            have other := List.all_eq_true.mp List.all_takeWhile quote member
            simp at other
      · simp at taken
  · rintro ⟨rfl, free, ends⟩
    have inside : ∀ c ∈ value, (c != quote) = true := by
      intro c member
      simp only [bne_iff_ne]
      rintro rfl
      exact free member
    simp [takeQuoted?, List.takeWhile_append_of_pos inside, List.dropWhile_append_of_pos inside, ends]

/-- A bare value is not empty and holds neither blank nor quote. -/
theorem takeBare?_some {text value after : Text} (taken : takeBare? text = some (value, after)) :
    text = value ++ after ∧ value ≠ [] ∧ endsLexeme after = true := by
  simp only [takeBare?, Option.ite_none_left_eq_some, Option.some.injEq, Prod.mk.injEq, Bool.or_eq_true,
    not_or, List.isEmpty_iff, Bool.not_eq_true', Bool.not_eq_false] at taken
  obtain ⟨⟨some_, ends⟩, rfl, rfl⟩ := taken
  exact ⟨(List.takeWhile_append_dropWhile).symm, some_, ends⟩

/-- A value is written in what is taken for it, and a lexeme ends behind it. -/
theorem takeValue?_some {text value after : Text} (taken : takeValue? text = some (value, after)) :
    (∃ front, text = front ++ after ∧ ∀ c ∈ value, c ∈ front) ∧ endsLexeme after = true := by
  simp only [takeValue?, Option.orElse_eq_orElse, Option.orElse_eq_or, Option.or_eq_some_iff] at taken
  rcases taken with quoted | ⟨-, apostrophes | ⟨-, bare⟩⟩
  · obtain ⟨rfl, -, ends⟩ := takeQuoted?_eq_some_iff.mp quoted
    exact ⟨⟨'"' :: (value ++ ['"']), by simp, fun c member => by simp [member]⟩, ends⟩
  · obtain ⟨rfl, -, ends⟩ := takeQuoted?_eq_some_iff.mp apostrophes
    exact ⟨⟨'\x27' :: (value ++ ['\x27']), by simp, fun c member => by simp [member]⟩, ends⟩
  · obtain ⟨rfl, -, ends⟩ := takeBare?_some bare
    exact ⟨⟨value, rfl, fun _ member => member⟩, ends⟩

/-- A key with its value: what is taken is not empty. -/
theorem takeNamed?_some {text after : Text} {token : AttributeToken} (taken : takeNamed? text = some (token, after)) :
    (∃ front, front ≠ [] ∧ text = front ++ after ∧ token.WrittenIn front) ∧ endsLexeme after = true := by
  simp only [takeNamed?] at taken
  split at taken
  · rename_i rest equals
    simp only [Option.ite_none_left_eq_some] at taken
    obtain ⟨some_, taken⟩ := taken
    obtain ⟨⟨value, left⟩, valued, same⟩ := Option.map_eq_some_iff.mp taken
    simp only [Prod.mk.injEq] at same
    obtain ⟨rfl, rfl⟩ := same
    obtain ⟨⟨written, split, inside⟩, ends⟩ := takeValue?_some valued
    have keyed : text.takeWhile isKeyChar ++ text.dropWhile isKeyChar = text := List.takeWhile_append_dropWhile
    have spaced := List.takeWhile_append_dropWhile (p := Unicode.isBlank) (l := text.dropWhile isKeyChar)
    have padded := List.takeWhile_append_dropWhile (p := Unicode.isBlank) (l := rest)
    rw [equals, ← padded, split] at spaced
    rw [← spaced] at keyed
    refine ⟨⟨text.takeWhile isKeyChar ++ ((text.dropWhile isKeyChar).takeWhile Unicode.isBlank ++
      '=' :: (rest.takeWhile Unicode.isBlank ++ written)), by simp, by simpa using keyed.symm, ?_⟩, ends⟩
    refine ⟨⟨by simpa using some_, ?_⟩, ?_⟩
    · intro c member
      exact List.all_eq_true.mp List.all_takeWhile c member
    · intro c member
      simp [inside c member]
  · simp at taken

/-- A quoted value without a key. -/
theorem takePositional?_some {text after : Text} {token : AttributeToken}
    (taken : takePositional? text = some (token, after)) :
    (∃ front, front ≠ [] ∧ text = front ++ after ∧ token.WrittenIn front) ∧ endsLexeme after = true := by
  obtain ⟨⟨value, left⟩, quoted, same⟩ := Option.map_eq_some_iff.mp taken
  simp only [Prod.mk.injEq] at same
  obtain ⟨rfl, rfl⟩ := same
  simp only [Option.orElse_eq_orElse, Option.orElse_eq_or, Option.or_eq_some_iff] at quoted
  rcases quoted with quoted | ⟨-, apostrophes⟩
  · obtain ⟨rfl, -, ends⟩ := takeQuoted?_eq_some_iff.mp quoted
    exact ⟨⟨'"' :: (value ++ ['"']), by simp, by simp, fun c member => by simp [member]⟩, ends⟩
  · obtain ⟨rfl, -, ends⟩ := takeQuoted?_eq_some_iff.mp apostrophes
    exact ⟨⟨'\x27' :: (value ++ ['\x27']), by simp, by simp, fun c member => by simp [member]⟩, ends⟩

/-- A word runs to the next blank or to the end. -/
theorem takeWord_eq {c : Char} (rest : Text) (start : Unicode.isBlank c = false) :
    (∃ front, front ≠ [] ∧ c :: rest = front ++ (takeWord (c :: rest)).2 ∧
        (takeWord (c :: rest)).1.WrittenIn front) ∧
      endsLexeme (takeWord (c :: rest)).2 = true := by
  refine ⟨⟨(c :: rest).takeWhile fun d => !Unicode.isBlank d, by simp [start],
    List.takeWhile_append_dropWhile.symm, ?_⟩, ?_⟩
  · simp only [takeWord]
    split
    · exact fun _ member => member
    · exact fun _ member => member
  · simp only [takeWord]
    have stop := List.head?_dropWhile_not (fun d => !Unicode.isBlank d) (c :: rest)
    cases left : (c :: rest).dropWhile fun d => !Unicode.isBlank d with
    | nil => rfl
    | cons d others =>
      rw [left] at stop
      simpa [endsLexeme] using stop

/-- A lexeme is a front of the text that is not empty, and ends before a blank or where the text ends. -/
theorem take_eq {c : Char} (rest : Text) (start : Unicode.isBlank c = false) :
    (∃ front, front ≠ [] ∧ c :: rest = front ++ (take (c :: rest)).2 ∧ (take (c :: rest)).1.WrittenIn front) ∧
      endsLexeme (take (c :: rest)).2 = true := by
  simp only [take, Option.orElse_eq_orElse, Option.orElse_eq_or]
  cases named : takeNamed? (c :: rest) with
  | some found => exact takeNamed?_some named
  | none =>
    cases positional : takePositional? (c :: rest) with
    | some found => exact takePositional?_some positional
    | none => exact takeWord_eq rest start

/-! ### The scan -/

/-- A scan that has nothing to pass over looks at the next character. -/
theorem scan_cons (c : Char) (rest : Text) :
    scan 0 (c :: rest) =
      if Unicode.isBlank c then scan 0 rest
      else (take (c :: rest)).1 :: scan (rest.length - (take (c :: rest)).2.length) rest :=
  rfl

/-- Passing over characters is scanning what is left. -/
theorem scan_drop (passed : Nat) (text : Text) : scan passed text = scan 0 (text.drop passed) := by
  induction passed generalizing text with
  | zero => rfl
  | succ passed inductionHypothesis =>
    cases text with
    | nil => rfl
    | cons c rest => exact inductionHypothesis rest

/-- The scan passes over blanks. -/
theorem scan_blank {c : Char} (blank : Unicode.isBlank c = true) (rest : Text) : scan 0 (c :: rest) = scan 0 rest := by
  rw [scan_cons, if_pos blank]

/-- Where a lexeme starts, its token is put out, and the scan goes on after it. -/
theorem scan_take {c : Char} (rest : Text) (start : Unicode.isBlank c = false) :
    scan 0 (c :: rest) = (take (c :: rest)).1 :: scan 0 (take (c :: rest)).2 := by
  obtain ⟨⟨front, some_, whole, -⟩, -⟩ := take_eq rest start
  rw [scan_cons, if_neg (by simp [start])]
  generalize take (c :: rest) = taken at whole
  obtain ⟨token, after⟩ := taken
  obtain ⟨d, others, rfl⟩ := List.exists_cons_of_ne_nil some_
  simp only [List.cons_append, List.cons.injEq] at whole
  have left : (others ++ after).drop others.length = after := List.drop_left
  simp [whole.2, scan_drop others.length, left]

/-- Every token of a text is written in it. -/
theorem writtenIn_scan {text : Text} {token : AttributeToken} (member : token ∈ scan 0 text) :
    token.WrittenIn text := by
  induction length : text.length using Nat.strongRecOn generalizing text with
  | _ n inductionHypothesis =>
    cases text with
    | nil => exact absurd member List.not_mem_nil
    | cons c rest =>
      simp only [List.length_cons] at length
      cases blank : Unicode.isBlank c with
      | true =>
        rw [scan_blank blank] at member
        exact (inductionHypothesis rest.length (by omega) member rfl).mono fun d inside => List.mem_cons_of_mem c inside
      | false =>
        rw [scan_take rest blank, List.mem_cons] at member
        obtain ⟨⟨front, some_, whole, written⟩, -⟩ := take_eq rest blank
        rcases member with rfl | later
        · exact written.mono fun d inside => whole ▸ List.mem_append_left _ inside
        · have shorter : (take (c :: rest)).2.length < n := by
            have sizes := congrArg List.length whole
            have positive := List.length_pos_iff.mpr some_
            simp only [List.length_cons, List.length_append] at sizes
            omega
          exact (inductionHypothesis _ shorter later rfl).mono fun d inside => whole ▸ List.mem_append_right _ inside

/-! ### Invisible characters -/

/-- The characters that count as spaces in attribute text. -/
def isInvisible (c : Char) : Prop :=
  c.toNat = 0xA0 ∨ c.toNat = 0x200B

/-- There are two of them. -/
theorem eq_of_isInvisible {c : Char} (invisible : isInvisible c) : c = Char.ofNat 0xA0 ∨ c = Char.ofNat 0x200B := by
  rcases invisible with code | code
  · exact Or.inl (by rw [← code, Char.ofNat_toNat])
  · exact Or.inr (by rw [← code, Char.ofNat_toNat])

set_option maxRecDepth 2000 in
/-- Neither stands in a key. -/
theorem visible_of_isKeyChar {c : Char} (key : isKeyChar c = true) : ¬isInvisible c := by
  intro invisible
  rcases eq_of_isInvisible invisible with rfl | rfl
  · exact absurd key (by decide)
  · exact absurd key (by decide)

/-- A text without such characters is kept. -/
theorem normalize_eq_self {text : Text} (visible : ∀ c ∈ text, ¬isInvisible c) : normalize text = text := by
  unfold normalize
  rw [List.map_congr_left (g := id) ?_, List.map_id]
  intro c member
  exact if_neg (visible c member)

/-- A character of a normalized text is a space or one of the text, and never invisible. -/
theorem mem_normalize {text : Text} {c : Char} (member : c ∈ normalize text) : (c = ' ' ∨ c ∈ text) ∧ ¬isInvisible c := by
  obtain ⟨source, listed, rfl⟩ := List.mem_map.mp member
  split
  · exact ⟨Or.inl rfl, by unfold isInvisible; decide⟩
  · rename_i visible
    exact ⟨Or.inr listed, visible⟩

/-- A blank before attribute text does not change its tokens. -/
theorem ofText_space (text : Text) : ofText (' ' :: text) = ofText text :=
  @scan_blank ' ' (by decide) (normalize text)

/-- Every token of attribute text is written in the text without its invisible characters. -/
theorem writtenIn_ofText {text : Text} {token : AttributeToken} (member : token ∈ ofText text) :
    token.WrittenIn (normalize text) :=
  writtenIn_scan member

end MapEmbed.AttributeToken
