import MapEmbed.Proofs.Attribute.Joining
import MapEmbed.Proofs.Attribute.Separation

/-!
# Tokens with a quote that dangles

A key whose value is opened by a quote that the value does not close is one malformed token, unless a quote of the kind
further on closes it. The tokens before and behind are then those of the texts before and behind, so the lenient reader
gives the attributes of both. These are the attributes of the two texts alone if the end of the one and the start of the
other make no key with a value: the dangling token may keep apart what would have been read together without it.
-/

namespace MapEmbed
namespace AttributeToken

/-- A quote before a text is closed in the text: the next quote of the kind is before a blank or at the end. -/
def Closes (quote : Char) (text : Text) : Prop :=
  ∃ value after, text = value ++ quote :: after ∧ quote ∉ value ∧ endsLexeme after = true

/-- A quote that is not closed starts no value. -/
theorem takeQuoted?_eq_none_iff {quote : Char} {text : Text} :
    takeQuoted? quote (quote :: text) = none ↔ ¬Closes quote text := by
  rw [Option.eq_none_iff_forall_ne_some]
  constructor
  · rintro missed ⟨value, after, split, free, ends⟩
    exact missed (value, after) (takeQuoted?_eq_some_iff.mpr ⟨congrArg (quote :: ·) split, free, ends⟩)
  · rintro open_ ⟨value, after⟩ taken
    obtain ⟨whole, free, ends⟩ := takeQuoted?_eq_some_iff.mp taken
    exact open_ ⟨value, after, (List.cons.inj whole).2, free, ends⟩

/-- A quote that is closed behind characters that are none of the kind is closed without them. -/
theorem Closes.of_append {quote : Char} {front text : Text} (closes : Closes quote (front ++ text))
    (free : quote ∉ front) : Closes quote text := by
  obtain ⟨value, after, whole, absent, ends⟩ := closes
  rcases List.append_eq_append_iff.mp whole with ⟨beyond, rfl, behind⟩ | ⟨left, rfl, behind⟩
  · exact ⟨beyond, after, behind, fun member => absent (List.mem_append_right _ member), ends⟩
  · cases left with
    | nil => exact ⟨[], after, behind.symm, List.not_mem_nil, ends⟩
    | cons d others =>
      obtain rfl := (List.cons.inj behind).1
      exact absurd (by simp) free

end AttributeToken

/-- A key whose value is opened by a quote and not closed. -/
structure DanglingValue where
  /-- The key. -/
  key : Text
  /-- The quote that opens the value. -/
  quote : Char
  /-- What follows the quote up to the next blank. -/
  word : Text
  /-- There is a key, of key characters. -/
  keyed : key ≠ [] ∧ ∀ c ∈ key, AttributeToken.isKeyChar c = true
  /-- It is one of the two quotes. -/
  quotes : AttributeToken.isQuote quote = true
  /-- No blank is in the word, and no quote. -/
  bare : ∀ c ∈ word, AttributeToken.isBareChar c = true ∧ ¬AttributeToken.isInvisible c

namespace DanglingValue
open AttributeToken

variable (m : DanglingValue) {back : Text}

/-- The value with its key as it is written. -/
def toText : Text :=
  m.key ++ '=' :: m.quote :: m.word

/-- Characters of its key, an equals sign, the quote and characters of a bare value are in it. -/
theorem mem_toText {c : Char} (member : c ∈ m.toText) :
    isKeyChar c = true ∨ c = '=' ∨ c = m.quote ∨ isBareChar c = true ∧ ¬isInvisible c := by
  simp only [toText, List.mem_append, List.mem_cons] at member
  rcases member with key | equals | quote | word
  · exact Or.inl (m.keyed.2 c key)
  · exact Or.inr (Or.inl equals)
  · exact Or.inr (Or.inr (Or.inl quote))
  · exact Or.inr (Or.inr (Or.inr (m.bare c word)))

/-- None of them is invisible. -/
theorem normalize_toText : normalize m.toText = m.toText := by
  apply normalize_eq_self
  intro c member
  rcases m.mem_toText member with key | rfl | rfl | ⟨-, visible⟩
  · exact visible_of_isKeyChar key
  · unfold isInvisible
    decide
  · rcases eq_of_isQuote m.quotes with same | same <;> rw [same, isInvisible] <;> decide
  · exact visible

/-- None of them is a blank. -/
theorem isBlank_of_mem_toText {c : Char} (member : c ∈ m.toText) : (!Unicode.isBlank c) = true := by
  rw [Bool.not_eq_true']
  rcases m.mem_toText member with key | rfl | rfl | ⟨bare, -⟩
  · exact isBlank_of_isKeyChar key
  · decide
  · exact isBlank_of_isQuote m.quotes
  · exact isBlank_of_isBareChar bare

/-- A text that starts with it starts with a key character. -/
theorem exists_toText_append (back : Text) : ∃ c rest, m.toText ++ back = c :: rest ∧ isKeyChar c = true := by
  obtain ⟨c, others, split⟩ := List.exists_cons_of_ne_nil m.keyed.1
  refine ⟨c, others ++ '=' :: m.quote :: (m.word ++ back), ?_, m.keyed.2 c (by simp [split])⟩
  simp [toText, split]

/-- It starts with no value: a bare one would run into the quote. -/
theorem takeValue?_toText (back : Text) : takeValue? (m.toText ++ back) = none := by
  obtain ⟨c, rest, split, key⟩ := m.exists_toText_append back
  have plain := isQuote_of_isKeyChar key
  simp only [isQuote, Bool.or_eq_false_iff, beq_eq_false_iff_ne] at plain
  have bare : ∀ d ∈ m.key ++ ['='], isBareChar d = true := by
    intro d member
    rcases List.mem_append.mp member with inside | equals
    · exact isBareChar_of_isKeyChar (m.keyed.2 d inside)
    · rw [List.mem_singleton.mp equals]
      decide
  have whole : m.toText ++ back = m.key ++ ['='] ++ m.quote :: (m.word ++ back) := by simp [toText]
  have stop := not_isBareChar_of_isQuote m.quotes
  have missed : takeBare? (m.toText ++ back) = none := by
    simp only [takeBare?, whole, List.dropWhile_append_of_pos bare, List.dropWhile_cons_of_neg stop, endsLexeme,
      isBlank_of_isQuote m.quotes]
    simp
  rw [takeValue?, missed, split, takeQuoted?_of_ne plain.1, takeQuoted?_of_ne plain.2]
  rfl

/-- Where the quote is not closed, no value is taken behind it. -/
theorem takeValue?_quote (open_ : ¬Closes m.quote back) : takeValue? (m.quote :: (m.word ++ ' ' :: back)) = none := by
  have free : m.quote ∉ m.word ++ [' '] := by
    intro member
    rcases List.mem_append.mp member with inside | space
    · exact not_isBareChar_of_isQuote m.quotes (m.bare m.quote inside).1
    · have blank := isBlank_of_isQuote m.quotes
      rw [List.mem_singleton.mp space] at blank
      exact absurd blank (by decide)
  have quoted (quote : Char) : takeQuoted? quote (m.quote :: (m.word ++ ' ' :: back)) = none := by
    by_cases same : m.quote = quote
    · rw [← same, takeQuoted?_eq_none_iff, List.append_cons]
      exact fun closes => open_ (closes.of_append free)
    · exact takeQuoted?_of_ne same _
  have stop := not_isBareChar_of_isQuote m.quotes
  have bare : takeBare? (m.quote :: (m.word ++ ' ' :: back)) = none := by
    simp [takeBare?, List.takeWhile_cons_of_neg stop]
  rw [takeValue?, quoted, quoted, bare]
  rfl

/-- Where the quote is not closed, the key has no value. -/
theorem takeNamed?_toText (open_ : ¬Closes m.quote back) : takeNamed? (m.toText ++ ' ' :: back) = none := by
  have whole : m.toText ++ ' ' :: back = m.key ++ '=' :: m.quote :: (m.word ++ ' ' :: back) := by simp [toText]
  have equals : ¬isKeyChar '=' = true := by decide
  have visible : ¬Unicode.isBlank '=' = true := by decide
  have start : ¬Unicode.isBlank m.quote = true := by simp [isBlank_of_isQuote m.quotes]
  rw [takeNamed?, whole, List.dropWhile_append_of_pos m.keyed.2, List.dropWhile_cons_of_neg equals,
    List.dropWhile_cons_of_neg visible]
  simp only [List.dropWhile_cons_of_neg start, m.takeValue?_quote open_, Option.map_none, ite_self]

/-- Where the quote is not closed, the value with its key is one malformed token. -/
theorem scan_toText (open_ : ¬Closes m.quote back) :
    scan 0 (m.toText ++ ' ' :: back) = .malformed m.toText :: scan 0 back := by
  have named := m.takeNamed?_toText open_
  have word : takeWord (m.toText ++ ' ' :: back) = (.malformed m.toText, ' ' :: back) := by
    have blank : Unicode.isBlank ' ' = true := by decide
    have front : (m.toText ++ ' ' :: back).takeWhile (fun c => !Unicode.isBlank c) = m.toText := by
      rw [List.takeWhile_append_of_pos fun _ => m.isBlank_of_mem_toText]
      simp [blank]
    have behind : (m.toText ++ ' ' :: back).dropWhile (fun c => !Unicode.isBlank c) = ' ' :: back := by
      rw [List.dropWhile_append_of_pos fun _ => m.isBlank_of_mem_toText]
      simp [blank]
    have quoted : m.toText.any isQuote = true := by simp [toText, m.quotes]
    simp only [takeWord, front, behind, quoted, if_true]
  obtain ⟨c, rest, split, key⟩ := m.exists_toText_append (' ' :: back)
  rw [split] at named word ⊢
  rw [scan_word (isBlank_of_isKeyChar key) named (takePositional?_of_not_isQuote (isQuote_of_isKeyChar key) rest), word,
    scan_blank (by decide)]

/-- Where the quote is not closed, the tokens before and behind are those of the texts before and behind. -/
theorem ofText_toText {front : Text} (intact : Intact (ofText front)) (open_ : ¬Closes m.quote (normalize back)) :
    ofText (front ++ ' ' :: (m.toText ++ ' ' :: back)) = ofText front ++ .malformed m.toText :: ofText back := by
  obtain ⟨c, rest, split, key⟩ := m.exists_toText_append (' ' :: normalize back)
  have start : (m.toText ++ ' ' :: normalize back).dropWhile Unicode.isBlank = m.toText ++ ' ' :: normalize back := by
    rw [split, List.dropWhile_cons_of_neg (by simp [isBlank_of_isKeyChar key])]
  rw [ofText, normalize_append, normalize_append, normalize_toText, scan_append intact, m.scan_toText open_]
  · rfl
  · intro valued
    rw [start] at valued
    exact absurd (m.takeValue?_toText _) valued
  · rw [start, split]
    rintro equals
    obtain rfl := Option.some.inj equals
    exact absurd key (by decide)

end DanglingValue

namespace Attributes
open AttributeToken

/-- A malformed token gives no attribute. -/
theorem ofTokens_malformed (front back : List AttributeToken) (written : Text) :
    ofTokens (front ++ .malformed written :: back) = ofTokens (front ++ back) := by
  obtain ⟨further, added⟩ := addTokens_append OrderedMap.empty 0 front
  rw [ofTokens, ofTokens, added, added]
  rfl

/-- A value with a dangling quote between two texts, of which the first is read, takes no attribute from them and gives
none: there are those of the tokens of both texts. So the texts have the same attributes without it if they have the
tokens of both then, as they do if they are separate. -/
theorem parseLenient_danglingValue (m : DanglingValue) {front back : Text} {attributes : Attributes}
    (read : parse front = .ok attributes) (open_ : ¬Closes m.quote (normalize back)) :
    parseLenient (front ++ ' ' :: (m.toText ++ ' ' :: back)) = ofTokens (ofText front ++ ofText back) ∧
      (ofText (front ++ ' ' :: back) = ofText front ++ ofText back →
        parseLenient (front ++ ' ' :: (m.toText ++ ' ' :: back)) = parseLenient (front ++ ' ' :: back)) ∧
      (Separate front back →
        parseLenient (front ++ ' ' :: (m.toText ++ ' ' :: back)) = parseLenient (front ++ ' ' :: back)) := by
  have intact : Intact (ofText front) := (parse_eq_ok_iff.mp read).1
  have both : parseLenient (front ++ ' ' :: (m.toText ++ ' ' :: back)) = ofTokens (ofText front ++ ofText back) := by
    rw [parseLenient, m.ofText_toText intact open_, ofTokens_malformed]
  have alone (tokens : ofText (front ++ ' ' :: back) = ofText front ++ ofText back) :
      parseLenient (front ++ ' ' :: (m.toText ++ ' ' :: back)) = parseLenient (front ++ ' ' :: back) := by
    rw [both, parseLenient, tokens]
  exact ⟨both, alone, fun separate => alone (ofText_append_of_separate intact separate)⟩

/-- A key with a quote that dangles before a value in quotes of the same kind. -/
def brokenAddress : DanglingValue where
  key := "marker_address".toList
  quote := '"'
  word := "broken".toList
  keyed := ⟨by decide, List.all_eq_true.mp (by decide)⟩
  quotes := by decide
  bare := by
    have bare : ∀ c ∈ "broken".toList, isBareChar c = true := List.all_eq_true.mp (by decide)
    have key : ∀ c ∈ "broken".toList, isKeyChar c = true := List.all_eq_true.mp (by decide)
    exact fun c member => ⟨bare c member, visible_of_isKeyChar (key c member)⟩

/-- The values on both sides of it are kept. -/
theorem parseLenient_brokenAddress :
    parseLenient ("routing=on".toList ++ ' ' :: (brokenAddress.toText ++ ' ' :: "zoom=\"3\"".toList)) =
      parseLenient ("routing=on".toList ++ ' ' :: "zoom=\"3\"".toList) := by
  have read : parse "routing=on".toList = .ok (parseLenient "routing=on".toList) :=
    parse_eq_ok_iff.mpr ⟨by decide, rfl, by decide⟩
  have open_ : ¬Closes brokenAddress.quote (normalize "zoom=\"3\"".toList) :=
    takeQuoted?_eq_none_iff.mp (by decide)
  have separate : Separate "routing=on".toList "zoom=\"3\"".toList :=
    ⟨by decide, fun valued => absurd (by decide) valued⟩
  exact (parseLenient_danglingValue brokenAddress read open_).2.2 separate

/-- Texts that are not separate are read together without the value between them, and a quote behind the value may close
it. -/
theorem parseLenient_danglingValue_ne :
    (∃ first second, parse "x=".toList = .ok first ∧ parse "y".toList = .ok second ∧
      parseLenient "x= k=\"w y".toList ≠ parseLenient "x= y".toList) ∧
    ∃ first second, parse "p".toList = .ok first ∧ parse "x=\" a\"".toList = .ok second ∧
      parseLenient "p title=\"oops x=\" a\"".toList ≠ parseLenient "p x=\" a\"".toList := by
  have read {text : Text} (intact : ∀ token ∈ ofText text, token.malformed? = none)
      (some_ : (parseLenient text).entries ≠ []) : parse text = .ok (parseLenient text) :=
    parse_eq_ok_iff.mpr ⟨intact, rfl, some_⟩
  refine ⟨⟨_, _, read (by decide) (by decide), read (by decide) (by decide), ?_⟩,
    ⟨_, _, read (by decide) (by decide), read (by decide) (by decide), ?_⟩⟩
  · intro same
    exact absurd (congrArg OrderedMap.entries same) (by decide)
  · intro same
    exact absurd (congrArg OrderedMap.entries same) (by decide)

end Attributes
end MapEmbed
