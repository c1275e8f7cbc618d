import MapEmbed.Proofs.Html.StartTags

/-!
# The tokens of written markup

What a reader makes of texts, start tags and end tags that stand in a row. A reference in a text is decoded when the
character after it is read, so after a piece of markup the lexer may still owe tokens; the next piece settles them.
What is said of a piece holds whatever stands before it, and pieces in a row give their tokens in a row.
-/

namespace MapEmbed.Html

open Lexer (stepState contentStep dataState)

namespace Lexer

/-- The tokens that a text completes, and the lexer after it. -/
def read (names : ReferenceTable) : Lexer → Text → List Token × Lexer
  | lexer, [] => ([], lexer)
  | lexer, c :: rest =>
    let (first, next) := lexer.step names c
    let (others, last) := read names next rest
    (first ++ others, last)

/-- The tokens of a text from a lexer on, with those that its end completes. -/
def readAll (names : ReferenceTable) (lexer : Lexer) (text : Text) : List Token :=
  let (found, last) := lexer.read names text
  found ++ last.finish names

end Lexer

/-- The tokens of a markup text. -/
def tokens (names : ReferenceTable) (markup : Text) : List Token :=
  Lexer.initial.readAll names (normalizeLines (withoutMark markup))

/-- The lexer is between tags, and owes tokens that the next character or the end completes. -/
structure Owes (names : ReferenceTable) (owed : List Token) (state : LexState) : Prop where
  step : ∀ lastStart c,
    stepState names lastStart state c = (owed ++ (contentStep .data c).1, (contentStep .data c).2)
  finish : ∀ lastStart, Lexer.finish names ⟨state, lastStart⟩ = owed

/-- Between tags the text gives the tokens, whatever stood before it. -/
def Yields (names : ReferenceTable) (text : Text) (given : List Token) : Prop :=
  ∀ owed state lastStart, Owes names owed state → ∃ found owed' state' lastStart',
    Lexer.read names ⟨state, lastStart⟩ text = (found, ⟨state', lastStart'⟩) ∧ Owes names owed' state' ∧
      found ++ owed' = owed ++ given

/-- As `Yields`, and nothing is owed after the text. -/
def Closes (names : ReferenceTable) (text : Text) (given : List Token) : Prop :=
  ∀ owed state lastStart, Owes names owed state → ∃ last,
    Lexer.read names ⟨state, lastStart⟩ text = (owed ++ given, ⟨dataState, last⟩)

/-- A token that is no tag and no comment. -/
def Token.isText : Token → Bool
  | .char _ => true
  | .nul => true
  | .fault => true
  | _ => false

/-- The token of a character that stands for itself. -/
def charToken (c : Char) : Token :=
  if c.toNat = 0 then .nul else .char c

/-- Between tags, or after an ampersand there. -/
inductive InText : LexState → Prop where
  | data : InText dataState
  | reference (seen : Text) : InText (.textReference .data seen)

section
variable {names : ReferenceTable} {lastStart : Text} {state : LexState}

/-! ### Texts in a row -/

/-- Texts in a row are read one after the other. -/
theorem Lexer.read_append (lexer : Lexer) (front back : Text) :
    lexer.read names (front ++ back) =
      ((lexer.read names front).1 ++ ((lexer.read names front).2.read names back).1,
        ((lexer.read names front).2.read names back).2) := by
  induction front generalizing lexer with
  | nil => simp [Lexer.read]
  | cons c rest inductionHypothesis => simp [Lexer.read, inductionHypothesis]

/-- The lexer goes on from the state that a text leaves. -/
theorem Lexer.read_then {lexer middle last : Lexer} {front back : Text} {found others : List Token}
    (here : lexer.read names front = (found, middle)) (later : middle.read names back = (others, last)) :
    lexer.read names (front ++ back) = (found ++ others, last) := by
  rw [Lexer.read_append, here, later]

/-- A text that completes no token gives none. -/
theorem Lexer.read_of_quiet? {next : LexState} {text : Text} (silent : quiet? names lastStart state text = some next) :
    Lexer.read names ⟨state, lastStart⟩ text = ([], ⟨next, lastStart⟩) := by
  induction text generalizing state with
  | nil =>
    obtain rfl : state = next := by simpa [quiet?] using silent
    rfl
  | cons c rest inductionHypothesis =>
    rw [quiet?] at silent
    cases step : stepState names lastStart state c with
    | mk tokens after =>
      rw [step] at silent
      cases tokens with
      | nil => simp [Lexer.read, Lexer.step, step, Lexer.lastStartAfter, inductionHypothesis silent]
      | cons token others => simp at silent

/-- One character is a step. -/
theorem Lexer.read_singleton (lexer : Lexer) (c : Char) : lexer.read names [c] = lexer.step names c := by
  simp [Lexer.read]

/-- The tokens of the first character come first. -/
theorem Lexer.readAll_cons (lexer : Lexer) (c : Char) (rest : Text) :
    lexer.readAll names (c :: rest) = (lexer.step names c).1 ++ (lexer.step names c).2.readAll names rest := by
  simp [Lexer.readAll, Lexer.read]

/-- In the state between tags nothing is owed. -/
theorem owes_dataState : Owes names [] dataState :=
  ⟨fun _ _ => rfl, fun _ => rfl⟩

/-- The name of the last start tag after tokens in a row. -/
theorem lastStartAfter_append (front back : List Token) :
    Lexer.lastStartAfter lastStart (front ++ back) =
      Lexer.lastStartAfter (Lexer.lastStartAfter lastStart front) back := by
  induction front generalizing lastStart with
  | nil => rfl
  | cons token rest inductionHypothesis =>
    cases token with
    | startTag tag => exact inductionHypothesis
    | _ => exact inductionHypothesis

/-- What is owed comes first, and the text is then read as if nothing had been owed. -/
theorem Owes.read {owed : List Token} (owes : Owes names owed state) (c : Char) (rest : Text) :
    Lexer.read names ⟨state, lastStart⟩ (c :: rest) =
      (owed ++ (Lexer.read names ⟨dataState, Lexer.lastStartAfter lastStart owed⟩ (c :: rest)).1,
        (Lexer.read names ⟨dataState, Lexer.lastStartAfter lastStart owed⟩ (c :: rest)).2) := by
  have here : stepState names (Lexer.lastStartAfter lastStart owed) dataState c = contentStep .data c := rfl
  simp only [Lexer.read, Lexer.step, owes.step, here, lastStartAfter_append, List.append_assoc]

/-- Nothing gives nothing. -/
theorem yields_nil : Yields names [] [] :=
  fun owed state lastStart owes => ⟨[], owed, state, lastStart, rfl, owes, by simp⟩

/-- It is enough to read a piece where nothing is owed. -/
theorem closes_of_read {c : Char} {rest : Text} {given : List Token}
    (read : ∀ lastStart, ∃ last, Lexer.read names ⟨dataState, lastStart⟩ (c :: rest) = (given, ⟨dataState, last⟩)) :
    Closes names (c :: rest) given := by
  intro owed state lastStart owes
  obtain ⟨last, same⟩ := read (Lexer.lastStartAfter lastStart owed)
  exact ⟨last, by rw [owes.read, same]⟩

/-- Pieces in a row give their tokens in a row. -/
theorem Yields.append {front back : Text} {given others : List Token} (first : Yields names front given)
    (second : Yields names back others) : Yields names (front ++ back) (given ++ others) := by
  intro owed state lastStart owes
  obtain ⟨found, owed', state', lastStart', read, owes', total⟩ := first owed state lastStart owes
  obtain ⟨found', owed'', state'', lastStart'', read', owes'', total'⟩ := second owed' state' lastStart' owes'
  refine ⟨found ++ found', owed'', state'', lastStart'', Lexer.read_then read read', owes'', ?_⟩
  rw [List.append_assoc, total', ← List.append_assoc, total, List.append_assoc]

/-- What a text gives is what is read of it from between tags to the end. -/
theorem Yields.readAll_eq {text : Text} {given : List Token} (yields : Yields names text given) (lastStart : Text) :
    Lexer.readAll names ⟨dataState, lastStart⟩ text = given := by
  obtain ⟨found, owed, state, last, read, owes, total⟩ := yields [] dataState lastStart owes_dataState
  rw [Lexer.readAll, read]
  simpa [owes.finish last] using total

/-- The tokens of a markup text are what its normal form gives. -/
theorem Yields.tokens_eq {markup : Text} {given : List Token}
    (yields : Yields names (normalizeLines (withoutMark markup)) given) : tokens names markup = given :=
  yields.readAll_eq []

/-- A piece that leaves nothing owed gives its tokens. -/
theorem Closes.yields {text : Text} {given : List Token} (closes : Closes names text given) :
    Yields names text given := by
  intro owed state lastStart owes
  obtain ⟨last, read⟩ := closes owed state lastStart owes
  exact ⟨owed ++ given, [], dataState, last, read, owes_dataState, by simp⟩

/-- The last piece settles what the pieces before it leave owed. -/
theorem Yields.append_closes {front back : Text} {given others : List Token} (first : Yields names front given)
    (second : Closes names back others) : Closes names (front ++ back) (given ++ others) := by
  intro owed state lastStart owes
  obtain ⟨found, owed', state', lastStart', read, owes', total⟩ := first owed state lastStart owes
  obtain ⟨last, read'⟩ := second owed' state' lastStart' owes'
  refine ⟨last, ?_⟩
  rw [Lexer.read_then read read', ← List.append_assoc, total, List.append_assoc]

/-- Pieces that leave nothing owed give their tokens in a row. -/
theorem Closes.append {front back : Text} {given others : List Token} (first : Closes names front given)
    (second : Closes names back others) : Closes names (front ++ back) (given ++ others) :=
  first.yields.append_closes second

/-- Behind a piece that leaves nothing owed, the rest is read from between tags. -/
theorem Closes.readAll_append {front : Text} {given : List Token} (closes : Closes names front given)
    (lastStart back : Text) : ∃ last, Lexer.readAll names ⟨dataState, lastStart⟩ (front ++ back) =
      given ++ Lexer.readAll names ⟨dataState, last⟩ back := by
  obtain ⟨last, read⟩ := closes [] dataState lastStart owes_dataState
  refine ⟨last, ?_⟩
  rw [Lexer.readAll, Lexer.read_append, read]
  simp [Lexer.readAll]

/-! ### Texts -/

/-- A character outside tags and references stands for itself. -/
theorem contentStep_plain {c : Char} (less : c ≠ '<') (ampersand : c ≠ '&') :
    contentStep .data c = ([charToken c], dataState) := by
  by_cases nul : c.toNat = 0
  · simp [contentStep, less, ampersand, nul, charToken]
  · simp [contentStep, less, ampersand, nul, charToken, dataState]

/-- The token of a character is a text. -/
theorem isText_charToken (c : Char) : (charToken c).isText = true := by
  unfold charToken
  split <;> rfl

/-- What a reference is decoded to is a text. -/
theorem isText_referenceTokens {decoded : Decoded} {token : Token} (member : token ∈ Lexer.referenceTokens decoded) :
    token.isText = true := by
  rcases List.mem_append.mp member with fault | char
  · split at fault
    · rw [List.mem_singleton.mp fault]
      rfl
    · simp at fault
  · obtain ⟨c, -, rfl⟩ := List.mem_map.mp char
    rfl

/-- A character outside tags and references completes what is owed. -/
theorem closes_plain {c : Char} (less : c ≠ '<') (ampersand : c ≠ '&') : Closes names [c] [charToken c] := by
  apply closes_of_read
  intro lastStart
  have step : Lexer.step names ⟨dataState, lastStart⟩ c =
      ([charToken c], ⟨dataState, Lexer.lastStartAfter lastStart [charToken c]⟩) := by
    rw [Lexer.step]
    simp only [stepState, dataState, contentStep_plain less ampersand]
  exact ⟨_, (Lexer.read_singleton _ c).trans step⟩

/-- Characters outside tags and references give themselves. -/
theorem closes_plainText {text : Text} (some_ : text ≠ [])
    (plain : (text.all fun c => c != '<' && c != '&' && c.toNat != 0) = true) :
    Closes names text (Lexer.chars text) := by
  induction text with
  | nil => exact absurd rfl some_
  | cons c rest inductionHypothesis =>
    simp only [List.all_cons, Bool.and_eq_true, bne_iff_ne, ne_eq] at plain
    obtain ⟨⟨⟨less, ampersand⟩, other⟩, others⟩ := plain
    have here : Closes names [c] [.char c] := by
      simpa [charToken, other] using @closes_plain names c less ampersand
    by_cases last : rest = []
    · subst last
      exact here
    · exact here.append (inductionHypothesis last others)

/-- Characters with which a reference goes on are collected. -/
theorem quiet?_collectText {mode : ContentMode} {seen text : Text}
    (continues : ∀ front c back, text = front ++ c :: back → continuesReference names (seen ++ front) c = true) :
    quiet? names lastStart (.textReference mode seen.reverse) text =
      some (.textReference mode (seen ++ text).reverse) := by
  induction text generalizing seen with
  | nil => simp [quiet?]
  | cons c rest inductionHypothesis =>
    have goesOn : continuesReference names seen c = true := by simpa using continues [] c rest rfl
    have silent : stepState names lastStart (.textReference mode seen.reverse) c =
        ([], .textReference mode (seen ++ [c]).reverse) := by
      simp [stepState, Lexer.textReferenceStep, goesOn]
    rw [quiet?_cons silent, inductionHypothesis]
    · simp
    · intro front d back split
      simpa using continues (c :: front) d back (by simp [split])

/-- A reference that cannot go on, and is decoded alike whatever follows it, is owed. -/
theorem owes_decoded {seen chars : Text} (stops : ∀ c, continuesReference names seen c = false)
    (decoded : ∀ next, decodeReference names false seen next = ⟨chars, false⟩) :
    Owes names (Lexer.chars chars) (.textReference .data seen.reverse) := by
  constructor
  · intro lastStart c
    simp [stepState, Lexer.textReferenceStep, stops c, decoded (some c), Lexer.referenceTokens]
  · intro lastStart
    simp [Lexer.finish, decoded none, Lexer.referenceTokens]

/-- The reference that is written for a reserved character gives the character. -/
theorem yields_reserved (sound : Sound names) {c : Char} {word : Text}
    (reserved : Text.reserved? c = some ('&' :: word)) : Yields names ('&' :: word) [.char c] := by
  intro owed state lastStart owes
  obtain ⟨decodes, meaning⟩ := decodes_reserved sound reserved
  obtain ⟨continues, stops, decoded⟩ := decodes.spec sound
  have collected := @quiet?_collectText names (Lexer.lastStartAfter lastStart owed) .data [] word continues
  have silent : quiet? names (Lexer.lastStartAfter lastStart owed) dataState ('&' :: word) =
      some (.textReference .data word.reverse) := by
    rw [quiet?_cons (rfl : stepState names _ dataState '&' = ([], .textReference .data []))]
    simpa using collected
  refine ⟨owed, [.char c], .textReference .data word.reverse, Lexer.lastStartAfter lastStart owed, ?_, ?_, rfl⟩
  · rw [owes.read, Lexer.read_of_quiet? silent, List.append_nil]
  · rw [show [Token.char c] = Lexer.chars (decodedWord names word) by rw [meaning]; rfl]
    exact owes_decoded stops (decoded false)

/-- An encoded character gives itself. -/
theorem yields_encode_char (sound : Sound names) (c : Char) : Yields names (Text.encode [c]) [charToken c] := by
  cases reserved : Text.reserved? c with
  | none =>
    have plain : Text.encode [c] = [c] := by simp [Text.encode, reserved]
    rw [plain]
    apply (closes_plain _ _).yields
    · rintro rfl
      simp [Text.reserved?] at reserved
    · rintro rfl
      simp [Text.reserved?] at reserved
  | some reference =>
    obtain ⟨word, -, rfl⟩ := Text.exists_of_reserved? reserved
    have written : Text.encode [c] = '&' :: word := by simp [Text.encode, reserved]
    have other : c.toNat ≠ 0 := by
      intro zero
      obtain rfl : c = Char.ofNat 0 := by rw [← zero, Char.ofNat_toNat]
      have plain : Text.reserved? (Char.ofNat 0) = none := by decide
      simp [plain] at reserved
    rw [written, charToken, if_neg other]
    exact yields_reserved sound reserved

/-- Between tags, or in a reference there, a character that opens no tag completes texts only. -/
theorem InText.step (inText : InText state) {c : Char} (less : c ≠ '<') :
    ∃ given next, (∀ lastStart, stepState names lastStart state c = (given, next)) ∧ InText next ∧
      ∀ token ∈ given, token.isText = true := by
  have plain : ∃ given next, contentStep .data c = (given, next) ∧ InText next ∧
      ∀ token ∈ given, token.isText = true := by
    by_cases ampersand : c = '&'
    · exact ⟨[], .textReference .data [], by simp [contentStep, ampersand], .reference [], by simp⟩
    · refine ⟨_, _, contentStep_plain less ampersand, .data, ?_⟩
      intro token member
      rw [List.mem_singleton.mp member]
      exact isText_charToken c
  obtain ⟨given, next, step, after, texts⟩ := plain
  cases inText with
  | data => exact ⟨given, next, fun _ => step, after, texts⟩
  | reference seen =>
    by_cases continues : continuesReference names seen.reverse c = true
    · exact ⟨[], .textReference .data (c :: seen), by simp [stepState, Lexer.textReferenceStep, continues],
        .reference (c :: seen), by simp⟩
    · refine ⟨Lexer.referenceTokens (decodeReference names false seen.reverse (some c)) ++ given, next, ?_, after, ?_⟩
      · simp [stepState, Lexer.textReferenceStep, continues, step]
      · intro token member
        rcases List.mem_append.mp member with decoded | later
        · exact isText_referenceTokens decoded
        · exact texts token later

/-- The tokens of a text are no start tags. -/
theorem lastStartAfter_of_isText {given : List Token} (texts : ∀ token ∈ given, token.isText = true) :
    Lexer.lastStartAfter lastStart given = lastStart := by
  induction given with
  | nil => rfl
  | cons token rest inductionHypothesis =>
    have here := texts token (by simp)
    have later := inductionHypothesis fun other member => texts other (by simp [member])
    cases token with
    | startTag tag => exact absurd here Bool.false_ne_true
    | _ => exact later

/-- In a text a character completes texts only, and no other tag becomes the last. -/
theorem InText.lexer_step (inText : InText state) {c : Char} (less : c ≠ '<') :
    ∃ given next, (∀ lastStart, Lexer.step names ⟨state, lastStart⟩ c = (given, ⟨next, lastStart⟩)) ∧ InText next ∧
      ∀ token ∈ given, token.isText = true := by
  obtain ⟨given, next, step, after, texts⟩ := @InText.step names state inText c less
  refine ⟨given, next, fun lastStart => ?_, after, texts⟩
  rw [Lexer.step, step]
  simp only [lastStartAfter_of_isText texts]

/-- What a reference in a text is decoded to does not depend on what follows it. -/
theorem decodeReference_text (seen : Text) (next : Option Char) :
    decodeReference names false seen next = decodeReference names false seen none := by
  simp [decodeReference]

/-- A character with which no reference goes on completes what a text leaves, as the end of the text would. -/
theorem InText.step_last (inText : InText state) {last : Char} (less : last ≠ '<') (ampersand : last ≠ '&')
    (outside : ∀ seen, continuesReference names seen last = false) :
    stepState names lastStart state last = (Lexer.finish names ⟨state, lastStart⟩ ++ [charToken last], dataState) := by
  cases inText with
  | data => exact contentStep_plain less ampersand
  | reference seen =>
    simp only [stepState, Lexer.textReferenceStep, outside, contentStep_plain less ampersand, Lexer.finish,
      decodeReference_text _ (some last), Bool.false_eq_true, if_false]

/-- A text without the sign of a tag gives texts only, whatever the last tag was. -/
theorem InText.readAll (inText : InText state) {text : Text} (absent : '<' ∉ text) :
    ∃ given, (∀ lastStart, Lexer.readAll names ⟨state, lastStart⟩ text = given) ∧
      ∀ token ∈ given, token.isText = true := by
  induction text generalizing state with
  | nil =>
    refine ⟨Lexer.finish names ⟨state, []⟩, fun _ => rfl, ?_⟩
    intro token member
    cases inText with
    | data => cases member
    | reference seen => exact isText_referenceTokens member
  | cons c rest inductionHypothesis =>
    rw [List.mem_cons, not_or] at absent
    obtain ⟨here, next, step, after, texts⟩ := @InText.lexer_step names state inText c (Ne.symm absent.1)
    obtain ⟨later, read, others⟩ := inductionHypothesis after absent.2
    refine ⟨here ++ later, fun lastStart => ?_, ?_⟩
    · rw [Lexer.readAll_cons, step, read]
    · intro token member
      rcases List.mem_append.mp member with first | second
      · exact texts token first
      · exact others token second

/-- A text without the sign of a tag gives the same tokens in front of a character with which no reference goes on. -/
theorem InText.read (inText : InText state) {text : Text} (absent : '<' ∉ text) {last : Char} (less : last ≠ '<')
    (ampersand : last ≠ '&') (outside : ∀ seen, continuesReference names seen last = false) :
    Lexer.read names ⟨state, lastStart⟩ (text ++ [last]) =
      (Lexer.readAll names ⟨state, lastStart⟩ text ++ [charToken last], ⟨dataState, lastStart⟩) := by
  induction text generalizing state with
  | nil =>
    obtain ⟨given, next, step, -, -⟩ := @InText.lexer_step names state inText last less
    have stepped := step lastStart
    rw [Lexer.step, inText.step_last less ampersand outside, Prod.mk.injEq, Lexer.mk.injEq] at stepped
    obtain ⟨same, ends, -⟩ := stepped
    rw [List.nil_append, Lexer.read_singleton, step, ← same, ← ends]
    rfl
  | cons c rest inductionHypothesis =>
    rw [List.mem_cons, not_or] at absent
    obtain ⟨here, next, step, after, -⟩ := @InText.lexer_step names state inText c (Ne.symm absent.1)
    have later := inductionHypothesis after absent.2
    rw [Lexer.readAll_cons, step, List.cons_append, Lexer.read, step]
    simp only [later, List.append_assoc]

/-- A text without the sign of a tag gives what it gives on its own, if a character comes last with which no reference
goes on. -/
theorem closes_of_not_mem {text : Text} (absent : '<' ∉ text) {last : Char} (less : last ≠ '<')
    (ampersand : last ≠ '&') (outside : ∀ seen, continuesReference names seen last = false) :
    Closes names (text ++ [last]) (Lexer.initial.readAll names text ++ [charToken last]) := by
  obtain ⟨given, alone, -⟩ := @InText.readAll names _ .data text absent
  have read (lastStart : Text) := @InText.read names lastStart _ .data text absent last less ampersand outside
  obtain ⟨c, rest, split⟩ :=
    List.exists_cons_of_ne_nil (List.append_ne_nil_of_right_ne_nil text (List.cons_ne_nil last []))
  rw [split] at read ⊢
  refine closes_of_read fun lastStart => ⟨lastStart, ?_⟩
  rw [read, alone, Lexer.initial, alone]

/-- A text without the sign of a tag gives texts only, if a character comes last with which no reference goes on. -/
theorem exists_closes_of_not_mem {text : Text} (absent : '<' ∉ text) {last : Char} (less : last ≠ '<')
    (ampersand : last ≠ '&') (outside : ∀ seen, continuesReference names seen last = false) :
    ∃ given, Closes names (text ++ [last]) given ∧ ∀ token ∈ given, token.isText = true := by
  refine ⟨_, closes_of_not_mem absent less ampersand outside, ?_⟩
  obtain ⟨given, alone, texts⟩ := @InText.readAll names _ .data text absent
  rw [Lexer.initial, alone]
  intro token member
  rcases List.mem_append.mp member with inside | ending
  · exact texts token inside
  · exact List.mem_singleton.mp ending ▸ isText_charToken last

/-! ### Tags -/

/-- A written start tag gives its token. -/
theorem closes_startTag {tag : Text} {attributes got : List (Text × Text)} (named : isMarkupName tag = true)
    (keys : ∀ entry ∈ attributes, isMarkupName entry.1 = true) (distinct : (attributes.map Prod.fst).Nodup)
    (read : AttributesRead names attributes got) :
    Closes names (startTag tag attributes) [.startTag ⟨tag, got⟩] := by
  have written : startTag tag attributes = '<' :: (tag ++ attributes.flatMap writtenAttribute ++ ['>']) := by
    simp [startTag_eq]
  rw [written]
  apply closes_of_read
  intro lastStart
  obtain ⟨next, inside, between⟩ := @quiet?_startTag names lastStart tag attributes got named keys distinct read
  have silent : quiet? names lastStart dataState ('<' :: (tag ++ attributes.flatMap writtenAttribute)) = some next := by
    rw [quiet?_cons (rfl : stepState names lastStart dataState '<' = ([], .tagOpen)), inside]
  have closed : Lexer.step names ⟨next, lastStart⟩ '>' = ([.startTag ⟨tag, got⟩], ⟨dataState, tag⟩) := by
    rw [Lexer.step, between.close]
    rfl
  refine ⟨tag, ?_⟩
  rw [← List.cons_append, Lexer.read_then (Lexer.read_of_quiet? silent) ((Lexer.read_singleton _ '>').trans closed)]
  rfl

/-- A written start tag whose values hold no double quotes is read as one start tag with the same names, and each value
as what is written there. -/
theorem exists_closes_startTag (sound : Sound names) {tag : Text} {attributes : List (Text × Text)}
    (named : isMarkupName tag = true) (keys : ∀ entry ∈ attributes, isMarkupName entry.1 = true)
    (distinct : (attributes.map Prod.fst).Nodup) (absent : ∀ entry ∈ attributes, '"' ∉ entry.2) :
    ∃ got, AttributesRead names (attributes.map normalAttribute) got ∧
      Closes names (startTag tag (attributes.map normalAttribute)) [.startTag ⟨tag, got⟩] := by
  obtain ⟨got, read⟩ := exists_attributesRead sound (quote_not_mem_normalAttribute absent)
  have sameKeys := keys_normalAttribute attributes
  refine ⟨got, read, closes_startTag named ?_ (sameKeys ▸ distinct) read⟩
  intro entry member
  obtain ⟨old, listed, rfl⟩ := List.mem_map.mp member
  exact keys old listed

/-- A written end tag gives its token. -/
theorem closes_endTag {tag : Text} (named : isMarkupName tag = true) :
    Closes names (endTag tag) [.endTag tag] := by
  obtain ⟨c, others, rfl, letter, here, inside⟩ := exists_of_isMarkupName named
  obtain ⟨kept, -⟩ := isNameChar_spec here
  have written : endTag (c :: others) = '<' :: ('/' :: c :: others ++ ['>']) := rfl
  rw [written]
  apply closes_of_read
  intro lastStart
  have notClosing : c ≠ '>' := by
    rintro rfl
    exact absurd letter (by decide)
  have first : stepState names lastStart .endTagOpen c = ([], .tagName ⟨true, [c], []⟩) := by
    simp [stepState, Lexer.endTagOpenStep, notClosing, letter, kept]
  have silent : quiet? names lastStart dataState ('<' :: '/' :: c :: others) =
      some (.tagName ⟨true, (c :: others).reverse, []⟩) := by
    rw [quiet?_cons (rfl : stepState names lastStart dataState '<' = ([], .tagOpen)),
      quiet?_cons (rfl : stepState names lastStart .tagOpen '/' = ([], .endTagOpen)), quiet?_cons first,
      quiet?_tagName inside]
    simp
  have closed : Lexer.step names ⟨.tagName ⟨true, (c :: others).reverse, []⟩, lastStart⟩ '>' =
      ([.endTag (c :: others)], ⟨dataState, lastStart⟩) := by
    simp [Lexer.step, stepState, Lexer.tagNameStep, isMarkupBlank, TagDraft.token, Lexer.lastStartAfter]
  refine ⟨lastStart, ?_⟩
  rw [← List.cons_append,
    Lexer.read_then (Lexer.read_of_quiet? silent) ((Lexer.read_singleton _ '>').trans closed)]
  rfl

end
end MapEmbed.Html
