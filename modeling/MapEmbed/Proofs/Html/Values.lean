import MapEmbed.Html.Lexer
import MapEmbed.Proofs.Html.References

/-!
# Reading escaped values

What the lexer makes of an escaped text inside double quotes. A complete reference is read on its own, whatever
stands before and after it, so the value read is put together from what each reference and each other character is
read as. It is the text that was escaped exactly when no reference of that text is decoded.
-/

namespace MapEmbed.Html

open Lexer (stepState quotedValueStep)

/-- The state after a text that completes no token, or nothing if it completes one. -/
def quiet? (names : ReferenceTable) (lastStart : Text) : LexState → Text → Option LexState
  | state, [] => some state
  | state, c :: rest =>
    match stepState names lastStart state c with
    | ([], next) => quiet? names lastStart next rest
    | (_ :: _, _) => none

/-- In this state the lexer is inside double quotes and has read `value`, last character first. A reference may have
ended there, so only the next step shows it. -/
def Reads (names : ReferenceTable) (draft : TagDraft) (name value : Text) (state : LexState) : Prop :=
  ∀ lastStart c, stepState names lastStart state c = quotedValueStep draft name '"' value c

section
variable {names : ReferenceTable} {lastStart : Text} {draft : TagDraft} {name value : Text} {state : LexState}

/-! ### Silent steps -/

/-- A character that completes no token only changes the state. -/
theorem quiet?_cons {next : LexState} {c : Char} (silent : stepState names lastStart state c = ([], next)) (rest : Text) :
    quiet? names lastStart state (c :: rest) = quiet? names lastStart next rest := by
  simp only [quiet?, silent]

/-- Texts in a row are read one after the other. -/
theorem quiet?_append (front back : Text) :
    quiet? names lastStart state (front ++ back) =
      (quiet? names lastStart state front).bind fun next => quiet? names lastStart next back := by
  induction front generalizing state with
  | nil => rfl
  | cons c rest inductionHypothesis =>
    rw [List.cons_append, quiet?, quiet?]
    rcases stepState names lastStart state c with ⟨_ | ⟨token, others⟩, next⟩
    · exact inductionHypothesis
    · rfl

/-- Whatever follows is read as if no reference had ended just before it. -/
theorem Reads.quiet? (reads : Reads names draft name value state) (c : Char) (rest : Text) :
    Html.quiet? names lastStart state (c :: rest) =
      Html.quiet? names lastStart (.quotedValue draft name '"' value) (c :: rest) := by
  rw [Html.quiet?, Html.quiet?, reads lastStart c]
  rfl

/-- A value without a reference at its end. -/
theorem reads_quotedValue : Reads names draft name value (.quotedValue draft name '"' value) :=
  fun _ _ => rfl

/-- Characters that mean themselves in a value. -/
def isPlainInValue (c : Char) : Bool :=
  c != '"' && c != '&' && c != Char.ofNat 0

/-- The characters of references mean themselves where no ampersand stands before them. -/
theorem isPlainInValue_of_isReferenceChar {c : Char} (inside : Text.isReferenceChar c = true) :
    isPlainInValue c = true := by
  have other {d : Char} (outside : Text.isReferenceChar d = false) : c ≠ d := by
    rintro rfl
    simp [outside] at inside
  simp [isPlainInValue, @other '"' (by decide), @other '&' (by decide), @other (Char.ofNat 0) (by decide)]

/-- Characters that mean themselves are added to the value. -/
theorem quiet?_plain {text : Text} (plain : ∀ c ∈ text, isPlainInValue c = true) :
    quiet? names lastStart (.quotedValue draft name '"' value) text =
      some (.quotedValue draft name '"' (text.reverse ++ value)) := by
  induction text generalizing value with
  | nil => rfl
  | cons c rest inductionHypothesis =>
    have here := plain c (by simp)
    simp only [isPlainInValue, Bool.and_eq_true, bne_iff_ne, ne_eq] at here
    obtain ⟨⟨quote, ampersand⟩, nul⟩ := here
    have kept : withoutNul c = c := by
      have positive : c.toNat ≠ 0 := by
        intro zero
        apply nul
        rw [← Char.ofNat_toNat c, zero]
      simp [withoutNul, positive]
    have silent : stepState names lastStart (.quotedValue draft name '"' value) c =
        ([], .quotedValue draft name '"' (c :: value)) := by
      simp [stepState, quotedValueStep, quote, ampersand, kept]
    rw [quiet?_cons silent, inductionHypothesis fun d member => plain d (by simp [member])]
    simp

/-- Characters with which a reference goes on are collected. -/
theorem quiet?_collect {seen text : Text}
    (continues : ∀ front c back, text = front ++ c :: back → continuesReference names (seen ++ front) c = true) :
    quiet? names lastStart (.valueReference draft name (some '"') value seen.reverse) text =
      some (.valueReference draft name (some '"') value (seen ++ text).reverse) := by
  induction text generalizing seen with
  | nil => simp [quiet?]
  | cons c rest inductionHypothesis =>
    have goesOn : continuesReference names seen c = true := by simpa using continues [] c rest rfl
    have silent : stepState names lastStart (.valueReference draft name (some '"') value seen.reverse) c =
        ([], .valueReference draft name (some '"') value (seen ++ [c]).reverse) := by
      simp [stepState, Lexer.valueReferenceStep, goesOn]
    rw [quiet?_cons silent, inductionHypothesis]
    · simp
    · intro front d back split
      have later := continues (c :: front) d back (by simp [split])
      simpa using later

/-- A reference that cannot go on, and is decoded alike whatever follows it, has been read. -/
theorem reads_decoded {seen chars : Text} (stops : ∀ c, continuesReference names seen c = false)
    (decoded : ∀ c, (decodeReference names true seen (some c)).chars = chars) :
    Reads names draft name (chars.reverse ++ value) (.valueReference draft name (some '"') value seen.reverse) := by
  intro lastStart c
  simp [stepState, Lexer.valueReferenceStep, stops c, decoded c, Lexer.valueStep]

/-- An ampersand starts a reference. -/
theorem quiet?_ampersand {text : Text}
    (continues : ∀ front c back, text = front ++ c :: back → continuesReference names front c = true) :
    quiet? names lastStart (.quotedValue draft name '"' value) ('&' :: text) =
      some (.valueReference draft name (some '"') value text.reverse) := by
  have opened : stepState names lastStart (.quotedValue draft name '"' value) '&' =
      ([], .valueReference draft name (some '"') value []) := rfl
  rw [quiet?_cons opened]
  exact @quiet?_collect names lastStart draft name value [] text continues

/-! ### Complete references -/

/-- A complete reference that is decoded is read as what it stands for. -/
theorem read_decodes (sound : Sound names) {word : Text} (decodes : Decodes names word) :
    ∃ next, quiet? names lastStart (.quotedValue draft name '"' value) ('&' :: word) = some next ∧
      Reads names draft name ((decodedWord names word).reverse ++ value) next := by
  obtain ⟨continues, stops, decoded⟩ := decodes.spec sound
  refine ⟨.valueReference draft name (some '"') value word.reverse, quiet?_ampersand continues, ?_⟩
  exact reads_decoded stops fun c => by rw [decoded true (some c)]

/-- A text that is not collected to its end is collected up to some character. -/
theorem exists_stop {text : Text}
    (ends : ¬∀ front c back, text = front ++ c :: back → continuesReference names front c = true) :
    ∃ front c back, text = front ++ c :: back ∧ continuesReference names front c = false ∧
      ∀ before d after, front = before ++ d :: after → continuesReference names before d = true := by
  have search (seen left : Text) (all : text = seen ++ left)
      (before : ∀ before d after, seen = before ++ d :: after → continuesReference names before d = true) :
      ∃ front c back, text = front ++ c :: back ∧ continuesReference names front c = false ∧
        ∀ before d after, front = before ++ d :: after → continuesReference names before d = true := by
    induction left generalizing seen with
    | nil =>
      rw [List.append_nil] at all
      exact absurd (all ▸ before) ends
    | cons c rest inductionHypothesis =>
      cases continues : continuesReference names seen c with
      | false => exact ⟨seen, c, rest, all, continues, before⟩
      | true =>
        apply inductionHypothesis (seen ++ [c])
        · simp [all]
        · intro front d after split
          rcases List.eq_nil_or_concat after with rfl | ⟨others, e, rfl⟩
          · obtain ⟨rfl, last⟩ := List.append_inj' split rfl
            obtain rfl : c = d := by simpa using last
            exact continues
          · have shorter : seen = front ++ d :: others := by
              have same : seen ++ [c] = (front ++ d :: others) ++ [e] := by simpa using split
              exact (List.append_inj' same rfl).1
            exact before front d others shorter
  exact search [] text rfl (by simp)

/-- Before the semicolon of a name stand letters and digits. -/
theorem letters_of_name {word front back : Text} {c : Char} (complete : Text.ReferenceWord word)
    (name : word.head? ≠ some '#') (split : word = front ++ c :: back) :
    (∀ d ∈ front, Unicode.isAsciiAlphanumeric d = true) ∧ (Unicode.isAsciiAlphanumeric c = true ∨ c = ';') := by
  cases complete with
  | decimal some_ all => simp at name
  | hexadecimal marked some_ all => simp at name
  | @name first others letter all =>
    have every : ∀ d ∈ first :: others, Unicode.isAsciiAlphanumeric d = true := by
      intro d member
      rcases List.mem_cons.mp member with rfl | later
      · simp [Unicode.isAsciiAlphanumeric, letter]
      · exact all d later
    rw [← List.cons_append] at split
    rcases List.append_eq_append_iff.mp split with ⟨beyond, left, right⟩ | ⟨inner, left, right⟩
    · cases beyond with
      | nil =>
        obtain ⟨rfl, -⟩ := List.cons.inj right
        rw [List.append_nil] at left
        exact ⟨left ▸ every, Or.inr rfl⟩
      | cons e others => simp at right
    · cases inner with
      | nil =>
        obtain ⟨rfl, -⟩ := List.cons.inj right
        rw [List.append_nil] at left
        exact ⟨left ▸ every, Or.inr rfl⟩
      | cons d rest =>
        obtain ⟨rfl, -⟩ := List.cons.inj right
        exact ⟨fun e member => every e (by simp [left, member]), Or.inl (every c (by simp [left]))⟩

/-- A name that is not known stays as it is. -/
theorem read_unknown (sound : Sound names) {word : Text} (complete : Text.ReferenceWord word)
    (name_ : word.head? ≠ some '#') (unknown : word ∉ names.map Prod.fst) :
    ∃ next, quiet? names lastStart (.quotedValue draft name '"' value) ('&' :: word) = some next ∧
      Reads names draft name ((decodedWord names word).reverse ++ value) next := by
  -- it is not collected to its end, since then it would be known
  have ends : ¬∀ front c back, word = front ++ c :: back → continuesReference names front c = true := by
    intro continues
    obtain ⟨body, closed, -⟩ := exists_of_referenceWord complete
    obtain ⟨entry, listed, starts⟩ := exists_of_continuesReference (closed ▸ name_) (continues body ';' [] closed)
    apply unknown
    rw [closed, ← sound.name_of_prefix listed starts]
    exact List.mem_map.mpr ⟨entry, listed, rfl⟩
  obtain ⟨front, c, back, split, stops, collected⟩ := exists_stop ends
  obtain ⟨letters, follower⟩ := letters_of_name complete name_ split
  have plain : ∀ d ∈ c :: back, isPlainInValue d = true := by
    intro d member
    apply isPlainInValue_of_isReferenceChar
    exact complete.isReferenceChar d (by rw [split]; exact List.mem_append_right _ member)
  have kept := decodeReference_kept sound letters follower stops
  have step : stepState names lastStart (.valueReference draft name (some '"') value front.reverse) c =
      stepState names lastStart (.quotedValue draft name '"' (front.reverse ++ '&' :: value)) c := by
    simp [stepState, Lexer.valueReferenceStep, stops, kept, Lexer.valueStep]
  refine ⟨.quotedValue draft name '"' ((c :: back).reverse ++ (front.reverse ++ '&' :: value)), ?_, ?_⟩
  · rw [split, ← List.cons_append, quiet?_append, quiet?_ampersand collected, Option.bind_some, quiet?, step]
    exact quiet?_plain plain
  · rw [decodedWord_unknown unknown name_, split]
    have same : ('&' :: (front ++ c :: back)).reverse ++ value =
        (c :: back).reverse ++ (front.reverse ++ '&' :: value) := by simp
    rw [same]
    exact reads_quotedValue

/-- A complete reference is read alike whatever follows it. -/
theorem read_word (sound : Sound names) {word : Text} (complete : Text.ReferenceWord word) :
    ∃ next, quiet? names lastStart (.quotedValue draft name '"' value) ('&' :: word) = some next ∧
      Reads names draft name ((decodedWord names word).reverse ++ value) next := by
  by_cases decodes : Decodes names word
  · exact read_decodes sound decodes
  · apply read_unknown sound complete
    · exact fun hash => decodes ⟨complete, Or.inl hash⟩
    · exact fun known => decodes ⟨complete, Or.inr known⟩

/-! ### Escaped texts -/

/-- The reference that is written for a reserved character is decoded to the character. -/
theorem decodes_reserved (sound : Sound names) {c : Char} {word : Text}
    (reserved : Text.reserved? c = some ('&' :: word)) : Decodes names word ∧ decodedWord names word = [c] := by
  obtain ⟨ampersand, less, greater, quote⟩ := sound.reserved
  obtain ⟨other, complete, same⟩ := Text.exists_of_reserved? reserved
  obtain rfl : word = other := (List.cons.inj same).2
  have known {name : Text} (listed : (name, [c]) ∈ names) (written : word = name) (ordinary : name.head? ≠ some '#') :
      Decodes names word ∧ decodedWord names word = [c] := by
    subst written
    exact ⟨⟨complete, Or.inr (List.mem_map.mpr ⟨_, listed, rfl⟩)⟩, decodedWord_known sound listed ordinary⟩
  unfold Text.reserved? at reserved
  split at reserved
  · next here => exact known (here ▸ ampersand) (by simpa using reserved.symm) (by decide)
  · split at reserved
    · next here => exact known (here ▸ less) (by simpa using reserved.symm) (by decide)
    · split at reserved
      · next here => exact known (here ▸ greater) (by simpa using reserved.symm) (by decide)
      · split at reserved
        · next here => exact known (here ▸ quote) (by simpa using reserved.symm) (by decide)
        · split at reserved
          · next here =>
            obtain rfl : "#039;".toList = word := by simpa using reserved
            subst here
            exact ⟨⟨complete, Or.inl rfl⟩, rfl⟩
          · simp at reserved

/-- What is read of a first piece stands in front of what is read of the rest. -/
theorem read_then {first piece rest chars : Text} {c : Char} (reads : Reads names draft name value state)
    (here : ∃ next, quiet? names lastStart (.quotedValue draft name '"' value) (c :: piece) = some next ∧
      Reads names draft name (first.reverse ++ value) next)
    (later : ∀ {value state}, Reads names draft name value state → ∃ next,
      quiet? names lastStart state rest = some next ∧ Reads names draft name (chars.reverse ++ value) next) :
    ∃ next, quiet? names lastStart state (c :: piece ++ rest) = some next ∧
      Reads names draft name ((first ++ chars).reverse ++ value) next := by
  obtain ⟨middle, readPiece, readsMiddle⟩ := here
  obtain ⟨next, readRest, readsNext⟩ := later readsMiddle
  refine ⟨next, ?_, by simpa using readsNext⟩
  rw [quiet?_append, reads.quiet?, readPiece, Option.bind_some, readRest]

/-- Every escaped text is read inside quotes, and as that text exactly if no reference of the text is decoded. -/
theorem read_escape (sound : Sound names) {text : Text} (clean : Char.ofNat 0 ∉ text) :
    ∃ chars, RereadAs names text chars ∧ ∀ {lastStart draft name value state}, Reads names draft name value state →
      ∃ next, quiet? names lastStart state (Text.escape text) = some next ∧
        Reads names draft name (chars.reverse ++ value) next := by
  induction text using Text.escape_induction with
  | nil => exact ⟨[], rereadAs_nil, fun reads => ⟨_, rfl, reads⟩⟩
  | reference word back complete inductionHypothesis =>
    obtain ⟨chars, reread, later⟩ := inductionHypothesis (by simp_all)
    refine ⟨decodedWord names word ++ chars, reread.word sound complete, fun reads => ?_⟩
    rw [Text.escape_append_reference complete]
    exact read_then reads (read_word sound complete) later
  | reserved c word rest complete reserved open_ inductionHypothesis =>
    obtain ⟨chars, reread, later⟩ := inductionHypothesis (by simp_all)
    refine ⟨c :: chars, reread.cons open_, fun reads => ?_⟩
    rw [Text.escape_reserved reserved open_]
    exact read_then reads ((decodes_reserved sound reserved).2 ▸ read_word sound complete) later
  | plain c rest plain inductionHypothesis =>
    rw [List.mem_cons, not_or] at clean
    obtain ⟨chars, reread, later⟩ := inductionHypothesis clean.2
    have open_ : c = '&' → Text.completesReference rest = false := by
      rintro rfl
      simp [Text.reserved?] at plain
    refine ⟨c :: chars, reread.cons open_, ?_⟩
    intro lastStart draft name value state reads
    rw [Text.escape_plain plain]
    have itself : ∀ d ∈ [c], isPlainInValue d = true := by
      intro d member
      obtain rfl := List.mem_singleton.mp member
      have quote : d ≠ '"' := by
        rintro rfl
        simp [Text.reserved?] at plain
      have ampersand : d ≠ '&' := by
        rintro rfl
        simp [Text.reserved?] at plain
      simp [isPlainInValue, quote, ampersand, Ne.symm clean.1]
    have here : ∃ next, quiet? names lastStart (.quotedValue draft name '"' value) [c] = some next ∧
        Reads names draft name ([c].reverse ++ value) next :=
      ⟨_, quiet?_plain itself, reads_quotedValue⟩
    exact read_then reads here later

end
end MapEmbed.Html
