import MapEmbed.Proofs.Attribute.Lexeme
import MapEmbed.Proofs.Text.Escaping

/-!
# Attribute texts with a blank between them

A blank ends a lexeme as the end of a text does, so two texts with a blank between them have the tokens of both. There
are two exceptions, in which the first text is not finished: a quote that is not closed, and a key with an equals sign
but no value. Either is completed by what follows, the second only by a value.
-/

namespace MapEmbed.AttributeToken

/-- Tokens of which none is malformed. -/
def Intact (tokens : List AttributeToken) : Prop :=
  ∀ token ∈ tokens, token.malformed? = none

/-- What follows one of them is intact too. -/
theorem Intact.tail {token : AttributeToken} {rest : List AttributeToken} (intact : Intact (token :: rest)) :
    Intact rest :=
  fun other member => intact other (List.mem_cons_of_mem _ member)

/-- Tokens of a text that is finished: none is malformed, and the last is no word that ends in an equals sign. -/
def Finished (tokens : List AttributeToken) : Prop :=
  (∀ token ∈ tokens, token.malformed? = none) ∧
    ∀ value, tokens.getLast? = some (.positional value) → value.getLast? ≠ some '='

/-- What follows a token of a finished text is finished. -/
theorem Finished.tail {token : AttributeToken} {rest : List AttributeToken} (finished : Finished (token :: rest)) :
    Finished rest := by
  refine ⟨Intact.tail finished.1, ?_⟩
  intro value last
  apply finished.2 value
  rw [List.getLast?_cons, last]
  rfl

/-- There are two quotes. -/
theorem eq_of_isQuote {c : Char} (quote : isQuote c = true) : c = '"' ∨ c = '\x27' := by
  simpa [isQuote] using quote

/-- Neither is a blank. -/
theorem isBlank_of_isQuote {c : Char} (quote : isQuote c = true) : Unicode.isBlank c = false := by
  rcases eq_of_isQuote quote with rfl | rfl <;> decide

/-- Quotes stand in no key. -/
theorem isQuote_of_isKeyChar {c : Char} (key : isKeyChar c = true) : isQuote c = false := by
  apply Bool.eq_false_iff.mpr
  intro quote
  rcases eq_of_isQuote quote with rfl | rfl
  · exact absurd key (by decide)
  · exact absurd key (by decide)

/-- Nor do they stand in a bare value. -/
theorem not_isBareChar_of_isQuote {c : Char} (quote : isQuote c = true) : ¬isBareChar c = true := by
  simp [isBareChar, quote]

/-- What stands in a key may stand in a bare value. -/
theorem isBareChar_of_isKeyChar {c : Char} (key : isKeyChar c = true) : isBareChar c = true := by
  simp [isBareChar, isBlank_of_isKeyChar key, isQuote_of_isKeyChar key]

/-- A text that starts with a quote that is not closed. -/
def OpenQuote (text : Text) : Prop :=
  ∃ quote rest, isQuote quote = true ∧ text = quote :: rest ∧ quote ∉ rest

/-- A quote that is not open is closed. -/
theorem closes_of_not_openQuote {quote c : Char} {rest : Text} (closed : ¬OpenQuote (c :: rest))
    (is_ : isQuote quote = true) (opened : c = quote) : quote ∈ rest := by
  apply Classical.byContradiction
  intro free
  exact closed ⟨quote, rest, is_, by rw [opened], free⟩

/-! ### Lexemes that are complete -/

section
variable {text value after back : Text}

/-- A lexeme ends before a blank if it ends where the text does. -/
theorem endsLexeme_append (text back : Text) : endsLexeme (text ++ ' ' :: back) = endsLexeme text := by
  cases text <;> rfl

/-- A value in quotes is taken from a longer text too. -/
theorem takeQuoted?_append {quote : Char} (taken : takeQuoted? quote text = some (value, after)) (back : Text) :
    takeQuoted? quote (text ++ ' ' :: back) = some (value, after ++ ' ' :: back) := by
  obtain ⟨rfl, free, ends⟩ := takeQuoted?_eq_some_iff.mp taken
  apply takeQuoted?_eq_some_iff.mpr
  exact ⟨by simp, free, by rw [endsLexeme_append, ends]⟩

/-- Where another character stands, no quote is taken. -/
theorem takeQuoted?_of_ne {quote c : Char} (other : c ≠ quote) (rest : Text) :
    takeQuoted? quote (c :: rest) = none := by
  simp [takeQuoted?, other]

/-- A quote that closes, but before a character that goes on, is not taken from a longer text either. -/
theorem takeQuoted?_append_none {quote c : Char} {rest : Text} (missed : takeQuoted? quote (c :: rest) = none)
    (closes : c = quote → quote ∈ rest) (back : Text) : takeQuoted? quote (c :: rest ++ ' ' :: back) = none := by
  by_cases opened : c = quote
  · subst opened
    cases taken : takeQuoted? c (c :: rest ++ ' ' :: back) with
    | none => rfl
    | some found =>
      exfalso
      obtain ⟨value, after⟩ := found
      obtain ⟨whole, free, ends⟩ := takeQuoted?_eq_some_iff.mp taken
      simp only [List.cons_append, List.cons.injEq, true_and] at whole
      rcases List.append_eq_append_iff.mp whole with ⟨beyond, longer, -⟩ | ⟨left, split, later⟩
      · exact free (longer ▸ List.mem_append_left _ (closes rfl))
      · cases left with
        | nil =>
          rw [List.append_nil] at split
          exact free (split ▸ closes rfl)
        | cons d others =>
          simp only [List.cons_append, List.cons.injEq] at later
          obtain ⟨rfl, rfl⟩ := later
          rw [endsLexeme_append] at ends
          have short := takeQuoted?_eq_some_iff.mpr ⟨congrArg (c :: ·) split, free, ends⟩
          simp [missed] at short
  · exact takeQuoted?_of_ne opened _

/-- A bare value is the same in a longer text. -/
theorem takeBare?_append (text back : Text) :
    takeBare? (text ++ ' ' :: back) = (takeBare? text).map fun (value, after) => (value, after ++ ' ' :: back) := by
  have outside : isBareChar ' ' = false := by decide
  simp only [takeBare?, Text.takeWhile_separated outside, Text.dropWhile_separated outside, endsLexeme_append]
  split <;> rfl

/-- A word is the same in a longer text. -/
theorem takeWord_append (text back : Text) :
    takeWord (text ++ ' ' :: back) = ((takeWord text).1, (takeWord text).2 ++ ' ' :: back) := by
  have outside : (!Unicode.isBlank ' ') = false := by decide
  simp only [takeWord, @Text.takeWhile_separated (fun c => !Unicode.isBlank c) ' ' outside,
    @Text.dropWhile_separated (fun c => !Unicode.isBlank c) ' ' outside]

/-- A value is taken from a longer text too. -/
theorem takeValue?_append (taken : takeValue? text = some (value, after)) (back : Text) :
    takeValue? (text ++ ' ' :: back) = some (value, after ++ ' ' :: back) := by
  simp only [takeValue?, Option.orElse_eq_orElse, Option.orElse_eq_or, Option.or_eq_some_iff] at taken ⊢
  rcases taken with quoted | ⟨-, apostrophes | ⟨-, bare⟩⟩
  · exact Or.inl (takeQuoted?_append quoted back)
  · refine Or.inr ⟨?_, Or.inl (takeQuoted?_append apostrophes back)⟩
    obtain ⟨rfl, -, -⟩ := takeQuoted?_eq_some_iff.mp apostrophes
    exact takeQuoted?_of_ne (by decide) _
  · have longer := takeBare?_append text back
    rw [bare] at longer
    cases text with
    | nil => simp [takeBare?] at bare
    | cons c rest =>
      have plain : isQuote c = false := by
        cases inside : isBareChar c with
        | true =>
          simp only [isBareChar, Bool.and_eq_true, Bool.not_eq_true'] at inside
          exact inside.2
        | false => simp [takeBare?, inside] at bare
      simp only [isQuote, Bool.or_eq_false_iff, beq_eq_false_iff_ne] at plain
      exact Or.inr ⟨takeQuoted?_of_ne plain.1 _, Or.inr ⟨takeQuoted?_of_ne plain.2 _, longer⟩⟩

/-- Where no value is taken, and no quote stays open, none is taken from a longer text. -/
theorem takeValue?_append_none {c : Char} {rest : Text} (missed : takeValue? (c :: rest) = none)
    (closed : ¬OpenQuote (c :: rest)) (back : Text) : takeValue? (c :: rest ++ ' ' :: back) = none := by
  simp only [takeValue?, Option.orElse_eq_orElse, Option.orElse_eq_or, Option.or_eq_none_iff] at missed ⊢
  obtain ⟨quoted, apostrophes, bare⟩ := missed
  refine ⟨takeQuoted?_append_none quoted (closes_of_not_openQuote closed (by decide)) back,
    takeQuoted?_append_none apostrophes (closes_of_not_openQuote closed (by decide)) back, ?_⟩
  rw [takeBare?_append, bare]
  rfl

/-- A quoted value without a key is taken from a longer text too. -/
theorem takePositional?_append {token : AttributeToken} (taken : takePositional? text = some (token, after))
    (back : Text) : takePositional? (text ++ ' ' :: back) = some (token, after ++ ' ' :: back) := by
  obtain ⟨⟨value, left⟩, quoted, same⟩ := Option.map_eq_some_iff.mp taken
  obtain ⟨rfl, rfl⟩ := Prod.mk.inj same
  apply Option.map_eq_some_iff.mpr
  refine ⟨(value, left ++ ' ' :: back), ?_, rfl⟩
  simp only [Option.orElse_eq_orElse, Option.orElse_eq_or, Option.or_eq_some_iff] at quoted ⊢
  rcases quoted with quotes | ⟨-, apostrophes⟩
  · exact Or.inl (takeQuoted?_append quotes back)
  · refine Or.inr ⟨?_, takeQuoted?_append apostrophes back⟩
    obtain ⟨rfl, -, -⟩ := takeQuoted?_eq_some_iff.mp apostrophes
    exact takeQuoted?_of_ne (by decide) _

/-- Where none is taken, and no quote stays open, none is taken from a longer text. -/
theorem takePositional?_append_none {c : Char} {rest : Text} (missed : takePositional? (c :: rest) = none)
    (closed : ¬OpenQuote (c :: rest)) (back : Text) : takePositional? (c :: rest ++ ' ' :: back) = none := by
  have missed' := Option.map_eq_none_iff.mp missed
  apply Option.map_eq_none_iff.mpr
  simp only [Option.orElse_eq_orElse, Option.orElse_eq_or, Option.or_eq_none_iff] at missed' ⊢
  exact ⟨takeQuoted?_append_none missed'.1 (closes_of_not_openQuote closed (by decide)) back,
    takeQuoted?_append_none missed'.2 (closes_of_not_openQuote closed (by decide)) back⟩

/-- A key with its value is taken from a longer text too. -/
theorem takeNamed?_append {token : AttributeToken} (taken : takeNamed? text = some (token, after)) (back : Text) :
    takeNamed? (text ++ ' ' :: back) = some (token, after ++ ' ' :: back) := by
  have outside : isKeyChar ' ' = false := by decide
  simp only [takeNamed?, Text.takeWhile_separated outside, Text.dropWhile_separated outside] at taken ⊢
  split at taken
  · rename_i rest equals
    have longer : (text.dropWhile isKeyChar ++ ' ' :: back).dropWhile Unicode.isBlank =
        '=' :: (rest ++ ' ' :: back) := by
      rw [List.dropWhile_append, equals]
      rfl
    simp only [longer]
    simp only [Option.ite_none_left_eq_some, Option.map_eq_some_iff] at taken ⊢
    obtain ⟨some_, ⟨value, left⟩, valued, same⟩ := taken
    obtain ⟨rfl, rfl⟩ := Prod.mk.inj same
    refine ⟨some_, (value, left ++ ' ' :: back), ?_, rfl⟩
    have inside : (rest ++ ' ' :: back).dropWhile Unicode.isBlank = rest.dropWhile Unicode.isBlank ++ ' ' :: back := by
      rw [List.dropWhile_append, if_neg]
      intro empty
      rw [List.isEmpty_iff.mp empty] at valued
      simp [takeValue?, takeQuoted?, takeBare?] at valued
    rw [inside]
    exact takeValue?_append valued back
  · simp at taken

/-- Where no key with a value is taken, none is taken from a longer text, unless a key waits for its value and one
follows. -/
theorem takeNamed?_append_none (missed : takeNamed? text = none)
    (complete : ∀ rest, (text.dropWhile isKeyChar).dropWhile Unicode.isBlank = '=' :: rest →
      text.takeWhile isKeyChar ≠ [] →
        (rest.dropWhile Unicode.isBlank = [] → takeValue? (back.dropWhile Unicode.isBlank) = none) ∧
          ¬OpenQuote (rest.dropWhile Unicode.isBlank))
    (starts : (back.dropWhile Unicode.isBlank).head? ≠ some '=') : takeNamed? (text ++ ' ' :: back) = none := by
  have outside : isKeyChar ' ' = false := by decide
  simp only [takeNamed?, Text.takeWhile_separated outside, Text.dropWhile_separated outside] at missed ⊢
  cases behind : (text.dropWhile isKeyChar).dropWhile Unicode.isBlank with
  | nil =>
    have longer : (text.dropWhile isKeyChar ++ ' ' :: back).dropWhile Unicode.isBlank =
        back.dropWhile Unicode.isBlank := by
      rw [List.dropWhile_append, behind]
      rfl
    rw [longer]
    split
    · rename_i rest equals
      simp [equals] at starts
    · rfl
  | cons d rest =>
    have longer : (text.dropWhile isKeyChar ++ ' ' :: back).dropWhile Unicode.isBlank = d :: (rest ++ ' ' :: back) := by
      rw [List.dropWhile_append, behind]
      rfl
    rw [longer]
    rw [behind] at missed
    by_cases equals : d = '='
    · subst equals
      simp only at missed ⊢
      by_cases keyed : text.takeWhile isKeyChar = []
      · simp [keyed]
      · obtain ⟨waits, closed⟩ := complete rest behind keyed
        rw [if_neg (by simpa using keyed), Option.map_eq_none_iff] at missed ⊢
        cases first : rest.dropWhile Unicode.isBlank with
        | nil =>
          have beyond : (rest ++ ' ' :: back).dropWhile Unicode.isBlank = back.dropWhile Unicode.isBlank := by
            rw [List.dropWhile_append, first]
            rfl
          rw [beyond]
          exact waits first
        | cons c others =>
          have inside : (rest ++ ' ' :: back).dropWhile Unicode.isBlank = c :: others ++ ' ' :: back := by
            rw [List.dropWhile_append, first]
            rfl
          rw [first] at missed closed
          rw [inside]
          exact takeValue?_append_none missed closed back
    · split
      · rename_i equal
        simp only [List.cons.injEq] at equal
        exact absurd equal.1 equals
      · rfl

end

/-! ### Texts that are not finished -/

/-- Passing over blanks does not change the tokens. -/
theorem scan_dropWhile_isBlank (text : Text) : scan 0 (text.dropWhile Unicode.isBlank) = scan 0 text := by
  induction text with
  | nil => rfl
  | cons c rest inductionHypothesis =>
    cases blank : Unicode.isBlank c with
    | true => rw [List.dropWhile_cons_of_pos blank, inductionHypothesis, scan_blank blank]
    | false => rw [List.dropWhile_cons_of_neg (by simp [blank])]

/-- Where no key starts that has a value and no value in quotes, a word is taken. -/
theorem scan_word {c : Char} {rest : Text} (start : Unicode.isBlank c = false) (named : takeNamed? (c :: rest) = none)
    (positional : takePositional? (c :: rest) = none) :
    scan 0 (c :: rest) = (takeWord (c :: rest)).1 :: scan 0 (takeWord (c :: rest)).2 := by
  have word : take (c :: rest) = takeWord (c :: rest) := by
    simp [take, named, positional]
  rw [scan_take rest start, word]

/-- No value in quotes is taken where none of the quotes stands. -/
theorem takePositional?_of_not_isQuote {c : Char} (other : isQuote c = false) (rest : Text) :
    takePositional? (c :: rest) = none := by
  simp only [isQuote, Bool.or_eq_false_iff, beq_eq_false_iff_ne] at other
  rw [takePositional?, takeQuoted?_of_ne other.1, takeQuoted?_of_ne other.2]
  rfl

/-- A word with a quote is malformed. -/
theorem not_intact_of_quote {c : Char} {rest : Text} {others : List AttributeToken}
    (quoted : ((c :: rest).takeWhile fun d => !Unicode.isBlank d).any isQuote = true) :
    ¬Intact ((takeWord (c :: rest)).1 :: others) := by
  intro intact
  have refused := intact _ List.mem_cons_self
  simp [takeWord, quoted, malformed?] at refused

/-- A quote that is not closed is in a malformed token. -/
theorem not_intact_of_openQuote {text : Text} (open_ : OpenQuote text) : ¬Intact (scan 0 text) := by
  obtain ⟨quote, rest, is_, rfl, free⟩ := open_
  have past : rest.dropWhile (· != quote) = [] := by
    simpa using @List.dropWhile_append_of_pos _ _ rest [] (Text.bne_of_not_mem free)
  have either := eq_of_isQuote is_
  have start := isBlank_of_isQuote is_
  have key : isKeyChar quote = false := by
    rcases either with rfl | rfl <;> decide
  have equals : quote ≠ '=' := by
    rcases either with rfl | rfl <;> decide
  have named : takeNamed? (quote :: rest) = none := by
    simp [takeNamed?, key, start, equals]
  have positional : takePositional? (quote :: rest) = none := by
    rcases either with rfl | rfl
    · simp [takePositional?, takeQuoted?, past]
    · simp [takePositional?, takeQuoted?, past]
  rw [scan_word start named positional]
  apply not_intact_of_quote
  simp [start, is_]

/-- Where no value is taken behind an equals sign, which itself is behind a key or nothing, and no token is malformed,
the text ends there unfinished, or something follows and it is no open quote. -/
theorem complete_of_equals {key rest : Text} (keyed : ∀ c ∈ key, isKeyChar c = true)
    (missed : takeNamed? (key ++ '=' :: rest) = none) (intact : Intact (scan 0 (key ++ '=' :: rest))) :
    (rest.dropWhile Unicode.isBlank = [] → ¬Finished (scan 0 (key ++ '=' :: rest))) ∧
      ¬OpenQuote (rest.dropWhile Unicode.isBlank) := by
  have visible : ∀ c ∈ key, (!Unicode.isBlank c) = true := by
    intro c member
    rw [isBlank_of_isKeyChar (keyed c member)]
    rfl
  have equals : Unicode.isBlank '=' = false := by decide
  obtain ⟨c, others, first⟩ : ∃ c others, key ++ '=' :: rest = c :: others := by
    cases key <;> exact ⟨_, _, rfl⟩
  have start : Unicode.isBlank c = false ∧ isQuote c = false := by
    cases key with
    | nil =>
      obtain rfl := (List.cons.inj first).1
      decide
    | cons d later =>
      obtain rfl := (List.cons.inj first).1
      have inside := keyed d List.mem_cons_self
      exact ⟨isBlank_of_isKeyChar inside, isQuote_of_isKeyChar inside⟩
  have front : (c :: others).takeWhile (fun d => !Unicode.isBlank d) =
      key ++ '=' :: rest.takeWhile fun d => !Unicode.isBlank d := by
    rw [← first, List.takeWhile_append_of_pos visible]
    simp [equals]
  have back : (takeWord (c :: others)).2 = rest.dropWhile fun d => !Unicode.isBlank d := by
    simp only [takeWord]
    rw [← first, List.dropWhile_append_of_pos visible]
    simp [equals]
  rw [first] at missed intact ⊢
  rw [scan_word start.1 missed (takePositional?_of_not_isQuote start.2 others), back] at intact ⊢
  have unquoted : ¬((c :: others).takeWhile fun d => !Unicode.isBlank d).any isQuote = true := fun quoted =>
    not_intact_of_quote quoted intact
  -- the word ends right behind the equals sign, as a quote there would be part of it
  have stops (waits : rest.dropWhile Unicode.isBlank = [] ∨ OpenQuote (rest.dropWhile Unicode.isBlank)) :
      rest.takeWhile (fun d => !Unicode.isBlank d) = [] ∧ rest.dropWhile (fun d => !Unicode.isBlank d) = rest := by
    cases rest with
    | nil => simp
    | cons d later =>
      have blank : Unicode.isBlank d = true := by
        apply Bool.of_not_eq_false
        intro goesOn
        rw [List.dropWhile_cons_of_neg (by simp [goesOn])] at waits
        rcases waits with nothing | ⟨quote, inside, is_, opened, -⟩
        · simp at nothing
        · obtain rfl := (List.cons.inj opened).1
          rw [front] at unquoted
          simp [goesOn, is_] at unquoted
      simp [blank]
  constructor
  · intro nothing finished
    obtain ⟨alone, behind⟩ := stops (Or.inl nothing)
    have word : (takeWord (c :: others)).1 = .positional (key ++ ['=']) := by
      simp only [takeWord]
      rw [if_neg unquoted, front, alone]
    rw [behind, ← scan_dropWhile_isBlank, nothing, word] at finished
    exact finished.2 (key ++ ['=']) rfl (by simp)
  · intro open_
    rw [(stops (Or.inr open_)).2, ← scan_dropWhile_isBlank] at intact
    exact not_intact_of_openQuote open_ intact.tail

/-- Where no token is malformed, a key that waits for its value leaves the text unfinished. -/
theorem complete_of_intact {c : Char} {text : Text} (keyed : isKeyChar c = true)
    (intact : Intact (scan 0 (c :: text))) (missed : takeNamed? (c :: text) = none) {rest : Text}
    (behind : ((c :: text).dropWhile isKeyChar).dropWhile Unicode.isBlank = '=' :: rest) :
    (rest.dropWhile Unicode.isBlank = [] → ¬Finished (scan 0 (c :: text))) ∧
      ¬OpenQuote (rest.dropWhile Unicode.isBlank) := by
  have key : ∀ d ∈ (c :: text).takeWhile isKeyChar, isKeyChar d = true := fun d member =>
    List.all_eq_true.mp List.all_takeWhile d member
  have whole : (c :: text).takeWhile isKeyChar ++ (c :: text).dropWhile isKeyChar = c :: text :=
    List.takeWhile_append_dropWhile
  cases after : (c :: text).dropWhile isKeyChar with
  | nil => simp [after] at behind
  | cons d later =>
    rw [after] at whole behind
    cases blank : Unicode.isBlank d with
    | false =>
      rw [List.dropWhile_cons_of_neg (by simp [blank])] at behind
      rw [behind] at whole
      rw [← whole] at missed intact ⊢
      exact complete_of_equals key missed intact
    | true =>
      -- the key is a word of its own, and the equals sign starts another
      have alone : takeNamed? ('=' :: rest) = none := by
        have equals : isKeyChar '=' = false := by decide
        have visible : Unicode.isBlank '=' = false := by decide
        simp [takeNamed?, equals, visible]
      have visible : ∀ e ∈ (c :: text).takeWhile isKeyChar, (!Unicode.isBlank e) = true := by
        intro e member
        rw [isBlank_of_isKeyChar (key e member)]
        rfl
      have left : (takeWord (c :: text)).2 = d :: later := by
        simp only [takeWord]
        rw [← whole, List.dropWhile_append_of_pos visible]
        simp [blank]
      have positional := takePositional?_of_not_isQuote (isQuote_of_isKeyChar keyed) text
      rw [scan_word (isBlank_of_isKeyChar keyed) missed positional, left, ← scan_dropWhile_isBlank (d :: later),
        behind] at intact ⊢
      obtain ⟨waits, closed⟩ := @complete_of_equals [] rest (by simp) alone intact.tail
      exact ⟨fun nothing finished => waits nothing finished.tail, closed⟩

/-! ### Two texts -/

/-- A lexeme of a text is taken in front of a blank as at the end if no token is malformed, and the text is finished or
no value follows. -/
theorem take_append {c : Char} {rest back : Text} (intact : Intact (scan 0 (c :: rest)))
    (finished : takeValue? (back.dropWhile Unicode.isBlank) ≠ none → Finished (scan 0 (c :: rest)))
    (starts : (back.dropWhile Unicode.isBlank).head? ≠ some '=') :
    take (c :: rest ++ ' ' :: back) = ((take (c :: rest)).1, (take (c :: rest)).2 ++ ' ' :: back) := by
  simp only [take, Option.orElse_eq_orElse, Option.orElse_eq_or]
  cases named : takeNamed? (c :: rest) with
  | some found => rw [takeNamed?_append named back, Option.some_or, Option.some_or, Option.getD_some, Option.getD_some]
  | none =>
    have longer : takeNamed? (c :: rest ++ ' ' :: back) = none := by
      apply takeNamed?_append_none named _ starts
      intro later behind keyed
      have key : isKeyChar c = true := by
        apply Bool.of_not_eq_false
        intro outside
        exact keyed (List.takeWhile_cons_of_neg (by simp [outside]))
      obtain ⟨waits, closed⟩ := complete_of_intact key intact named behind
      refine ⟨?_, closed⟩
      intro nothing
      apply Classical.byContradiction
      intro valued
      exact waits nothing (finished valued)
    rw [longer, Option.none_or, Option.none_or]
    cases positional : takePositional? (c :: rest) with
    | some found =>
      rw [takePositional?_append positional back, Option.getD_some, Option.getD_some]
    | none =>
      have closed : ¬OpenQuote (c :: rest) := fun open_ => not_intact_of_openQuote open_ intact
      rw [takePositional?_append_none positional closed back, Option.getD_none, Option.getD_none]
      exact takeWord_append (c :: rest) back

/-- A text without malformed token and another one with a blank between them have the tokens of both, if the first is
finished or the other starts with no value, nor with an equals sign. -/
theorem scan_append {text back : Text} (intact : Intact (scan 0 text))
    (finished : takeValue? (back.dropWhile Unicode.isBlank) ≠ none → Finished (scan 0 text))
    (starts : (back.dropWhile Unicode.isBlank).head? ≠ some '=') :
    scan 0 (text ++ ' ' :: back) = scan 0 text ++ scan 0 back := by
  induction length : text.length using Nat.strongRecOn generalizing text with
  | _ n inductionHypothesis =>
    cases text with
    | nil => exact scan_blank (by decide) back
    | cons c rest =>
      simp only [List.length_cons] at length
      cases blank : Unicode.isBlank c with
      | true =>
        rw [scan_blank blank] at intact finished
        rw [List.cons_append, scan_blank blank, scan_blank blank]
        exact inductionHypothesis rest.length (by omega) intact finished rfl
      | false =>
        have taken := take_append intact finished starts
        obtain ⟨⟨front, some_, whole, -⟩, -⟩ := take_eq rest blank
        have shorter : (take (c :: rest)).2.length < n := by
          have sizes := congrArg List.length whole
          have positive := List.length_pos_iff.mpr some_
          simp only [List.length_cons, List.length_append] at sizes
          omega
        rw [scan_take rest blank] at intact finished ⊢
        rw [List.cons_append] at taken
        rw [List.cons_append, scan_take _ blank, taken,
          inductionHypothesis _ shorter intact.tail (fun valued => (finished valued).tail) rfl]
        rfl

/-- A text whose tokens all have keys does not start with an equals sign. -/
theorem head?_of_named {text : Text} (named : ∀ token ∈ scan 0 text, ∃ key value, token = .named key value) :
    (text.dropWhile Unicode.isBlank).head? ≠ some '=' := by
  intro equals
  obtain ⟨rest, first⟩ := List.head?_eq_some_iff.mp equals
  have visible : Unicode.isBlank '=' = false := by decide
  have key : isKeyChar '=' = false := by decide
  have missed : takeNamed? ('=' :: rest) = none := by
    simp [takeNamed?, key, visible]
  rw [← scan_dropWhile_isBlank, first,
    scan_word visible missed (takePositional?_of_not_isQuote (by decide) rest)] at named
  obtain ⟨name, value, token⟩ := named _ List.mem_cons_self
  simp only [takeWord] at token
  split at token <;> simp at token

/-- The end of a text and the start of another make no key with a value: the other starts with no equals sign, and with
no value either unless the first is finished. -/
def Separate (text back : Text) : Prop :=
  ((normalize back).dropWhile Unicode.isBlank).head? ≠ some '=' ∧
    (takeValue? ((normalize back).dropWhile Unicode.isBlank) ≠ none → Finished (ofText text))

/-- A blank between two texts is one without invisible characters too. -/
theorem normalize_append (text back : Text) :
    normalize (text ++ ' ' :: back) = normalize text ++ ' ' :: normalize back := by
  simp [normalize]

/-- Attribute text without malformed token has with separate text the tokens of both. -/
theorem ofText_append_of_separate {text back : Text} (intact : Intact (ofText text)) (separate : Separate text back) :
    ofText (text ++ ' ' :: back) = ofText text ++ ofText back := by
  rw [ofText, normalize_append]
  exact scan_append intact separate.2 separate.1

/-- Finished attribute text and text in which every value has a key have the tokens of both. -/
theorem ofText_append {text back : Text} (finished : Finished (ofText text))
    (named : ∀ token ∈ ofText back, ∃ key value, token = .named key value) :
    ofText (text ++ ' ' :: back) = ofText text ++ ofText back :=
  ofText_append_of_separate finished.1 ⟨head?_of_named named, fun _ => finished⟩

end MapEmbed.AttributeToken
