import MapEmbed.Proofs.Attribute.Joining
import MapEmbed.Proofs.Text.Pattern

/-!
# The pattern of attribute text

The lexemes of attribute text are also what a search for one pattern finds: a key with a value in double quotes, in
single quotes or in none, a value in double or in single quotes, or else a word, each up to a blank or the end. A
search for it leaves only blanks out, its finds are the tokens of the text one by one, and in each exactly one of the
six alternatives takes part. So the strict reader succeeds just when there is a token and none is malformed.
-/

namespace MapEmbed
open Pattern

/-! ### Blanks and quotes in patterns -/

namespace AttributeToken

/-- A given character. -/
def letter (c : Char) : Pattern :=
  one (· == c)

/-- Blanks, if there are any. -/
def blanks : Pattern :=
  many Unicode.isBlank

/-- What ends a lexeme: a blank, or the end of the text. -/
def ending : Pattern :=
  either (one Unicode.isBlank) atEnd

/-- A value in quotes of a kind. -/
def quotedPattern (quote : Char) (group : Nat) : Pattern :=
  seq (letter quote) (seq (capture group (many (· != quote))) (seq (letter quote) ending))

/-- A value of characters of a class. -/
def plainPattern (test : Char → Bool) (group : Nat) : Pattern :=
  seq (capture group (atLeastOne test)) ending

/-- A key with an equals sign, and a value. -/
def namedPattern (group : Nat) (value : Pattern) : Pattern :=
  seq (capture group (atLeastOne isKeyChar)) (seq blanks (seq (letter '=') (seq blanks value)))

/-- The pattern of a lexeme, whose groups are numbered as they open:
`([\w-]+)\s*=\s*"([^"]*)"(?:\s|$)`, the same in single quotes, `([\w-]+)\s*=\s*([^\s'"]+)(?:\s|$)`,
`"([^"]*)"(?:\s|$)`, the same in single quotes, or `(\S+)(?:\s|$)`. -/
def pattern : Pattern :=
  either (namedPattern 1 (quotedPattern '"' 2)) <|
    either (namedPattern 3 (quotedPattern '\x27' 4)) <|
      either (namedPattern 5 (plainPattern isBareChar 6)) <|
        either (quotedPattern '"' 7) <|
          either (quotedPattern '\x27' 8) (plainPattern (fun c => !Unicode.isBlank c) 9)

/-- The groups of the six alternatives. -/
def alternatives : List (List Nat) :=
  [[1, 2], [3, 4], [5, 6], [7], [8], [9]]

/-- The token that captures denote: that of a key with its value, of a value in quotes, or of a word, which is
malformed if a quote is in it. There is none if no group took part. -/
def ofCaptures? (captures : List (Nat × Text)) : Option AttributeToken :=
  let named := [(1, 2), (3, 4), (5, 6)].findSome? fun (key, value) =>
    (captures.lookup key).bind fun name => (captures.lookup value).map fun written => (name, written)
  match named with
  | some (name, written) => some (.named name written)
  | none =>
    match captures.lookup 7 <|> captures.lookup 8 with
    | some quoted => some (.positional quoted)
    | none => (captures.lookup 9).map fun word => if word.any isQuote then .malformed word else .positional word

/-! ### Reading the alternatives -/

/-- Readings are what a taking function finds: at most one, with the captures and the text it finds, of which the
reading has taken one more blank. -/
def ReadsAs (readings : List Reading) : Option (List (Nat × Text) × Text) → Prop
  | none => readings = []
  | some (captures, after) => ∃ taken, readings = [⟨taken, captures, after.drop 1⟩]

/-- A front that was read before is read with each. -/
theorem ReadsAs.followedBy {readings : List Reading} {found : Option (List (Nat × Text) × Text)}
    (reads : ReadsAs readings found) (front : Reading) :
    ReadsAs (readings.map front.followedBy)
      (found.map fun (captures, after) => (front.captures ++ captures, after)) := by
  cases found with
  | none =>
    have empty : readings = [] := reads
    rw [empty]
    rfl
  | some parts =>
    obtain ⟨taken, single⟩ := reads
    exact ⟨front.taken ++ taken, by rw [single]; rfl⟩

/-- Nothing ends a lexeme but a blank or the end. -/
theorem readsAs_ending (after : Text) :
    ReadsAs (ending.readings after) (if endsLexeme after then some ([], after) else none) := by
  cases after with
  | nil => exact ⟨[], rfl⟩
  | cons c rest =>
    by_cases blank : Unicode.isBlank c = true
    · simp only [endsLexeme, blank, if_true]
      exact ⟨[c], by simp [ending, readings, blank]⟩
    · simp only [endsLexeme, blank]
      simp [ReadsAs, ending, readings, blank]

/-- A given character is read where it stands. -/
theorem readings_letter_seq (c d : Char) (p : Pattern) (rest : Text) :
    (seq (letter c) p).readings (d :: rest) =
      if d = c then (p.readings rest).map (Reading.followedBy ⟨[c], [], rest⟩) else [] := by
  by_cases same : d = c
  · subst same
    simp [letter, readings]
  · simp [letter, readings, same]

/-- A value in quotes is read as it is taken. -/
theorem readsAs_quoted (quote : Char) (group : Nat) (text : Text) :
    ReadsAs ((quotedPattern quote group).readings text)
      ((takeQuoted? quote text).map fun (value, after) => ([(group, value)], after)) := by
  cases text with
  | nil => rfl
  | cons c rest =>
    rw [quotedPattern, readings_letter_seq, takeQuoted?]
    by_cases opened : c = quote
    · -- the run up to the next quote is the only one behind which a quote stands
      have stops (d : Char) (back : Text) (inside : (d != quote) = true) :
          (seq (letter quote) ending).readings (d :: back) = [] := by
        rw [readings_letter_seq, if_neg (by simpa using inside)]
      rw [if_pos opened, if_pos opened, ((readsRun_many (· != quote) rest).capture group).seq stops]
      cases left : rest.dropWhile (· != quote) with
      | nil => rfl
      | cons d after =>
        have stop := List.head?_dropWhile_not (· != quote) rest
        rw [left] at stop
        have closes : d = quote := by simpa using stop
        rw [readings_letter_seq, if_pos closes]
        have ends := (((readsAs_ending after).followedBy ⟨[quote], [], after⟩).followedBy
          ⟨rest.takeWhile (· != quote), [(group, rest.takeWhile (· != quote))], d :: after⟩).followedBy
          ⟨[quote], [], rest⟩
        by_cases complete : endsLexeme after = true
        · simp only [complete, if_true] at ends ⊢
          exact ends
        · simp only [complete] at ends ⊢
          exact ends
    · rw [if_neg opened, if_neg opened]
      rfl

/-- A run of a class up to a blank or the end is read, if the class is free of blanks. -/
theorem readsAs_plain {test : Char → Bool} (visible : ∀ c, test c = true → Unicode.isBlank c = false) (group : Nat)
    (text : Text) :
    ReadsAs ((plainPattern test group).readings text)
      (if (text.takeWhile test).isEmpty || !endsLexeme (text.dropWhile test) then none
        else some ([(group, text.takeWhile test)], text.dropWhile test)) := by
  by_cases none_ : text.takeWhile test = []
  · rw [none_, plainPattern, readings, readings, readings_atLeastOne_eq_nil none_]
    rfl
  · have stops (c : Char) (back : Text) (inside : test c = true) : ending.readings (c :: back) = [] := by
      simp [ending, readings, visible c inside]
    rw [plainPattern, ((readsRun_atLeastOne none_).capture group).seq stops]
    have ends := (readsAs_ending (text.dropWhile test)).followedBy
      ⟨text.takeWhile test, [(group, text.takeWhile test)], text.dropWhile test⟩
    by_cases complete : endsLexeme (text.dropWhile test) = true
    · rw [if_pos complete] at ends
      simpa [none_, complete] using ends
    · rw [if_neg complete] at ends
      simpa [none_, complete] using ends

/-- A bare value is read as it is taken. -/
theorem readsAs_bare (group : Nat) (text : Text) :
    ReadsAs ((plainPattern isBareChar group).readings text)
      ((takeBare? text).map fun (value, after) => ([(group, value)], after)) := by
  have reads := readsAs_plain (fun _ => isBlank_of_isBareChar) group text
  rw [takeBare?]
  simp only
  split at reads
  · rename_i missed
    rw [if_pos missed]
    exact reads
  · rename_i taken
    rw [if_neg taken]
    exact reads

/-! ### A key with its value -/

/-- The key at the front of a text, with an equals sign behind it, and what stands there, less blanks. -/
def takeKey? (text : Text) : Option (Text × Text) :=
  match (text.dropWhile isKeyChar).dropWhile Unicode.isBlank with
  | [] => none
  | c :: rest =>
    if c = '=' ∧ text.takeWhile isKeyChar ≠ [] then some (text.takeWhile isKeyChar, rest.dropWhile Unicode.isBlank)
    else none

/-- A key with its value is taken part by part. -/
theorem takeNamed?_eq (text : Text) :
    takeNamed? text = (takeKey? text).bind fun (key, rest) =>
      (takeValue? rest).map fun (value, after) => (.named key value, after) := by
  unfold takeNamed? takeKey?
  cases behind : (text.dropWhile isKeyChar).dropWhile Unicode.isBlank with
  | nil => rfl
  | cons c rest =>
    by_cases equals : c = '='
    · by_cases keyed : text.takeWhile isKeyChar = []
      · simp [equals, keyed]
      · simp [equals, keyed]
    · simp [equals]

/-- Blanks are read as a run. -/
theorem readsRun_blanks (text : Text) : blanks.ReadsRun Unicode.isBlank (fun _ => []) text :=
  readsRun_many Unicode.isBlank text

/-- An equals sign is not read where a blank stands. -/
theorem readings_equals_blank (p : Pattern) (c : Char) (back : Text) (blank : Unicode.isBlank c = true) :
    (seq (letter '=') p).readings (c :: back) = [] := by
  rw [readings_letter_seq, if_neg]
  rintro rfl
  exact absurd blank (by decide)

/-- Nor is one read behind a key where no equals sign stands. -/
theorem readings_equals_eq_nil (value : Pattern) {text : Text}
    (missing : (text.dropWhile Unicode.isBlank).head? ≠ some '=') :
    (seq blanks (seq (letter '=') (seq blanks value))).readings text = [] := by
  rw [(readsRun_blanks text).seq (readings_equals_blank _)]
  cases left : text.dropWhile Unicode.isBlank with
  | nil => rfl
  | cons c rest =>
    rw [left] at missing
    rw [readings_letter_seq, if_neg (by simpa using missing)]
    rfl

/-- An equals sign is read with the blanks around it, and a value behind. -/
theorem exists_readings_equals {value : Pattern}
    (starts : ∀ c back, Unicode.isBlank c = true → value.readings (c :: back) = []) {text rest : Text}
    (equals : text.dropWhile Unicode.isBlank = '=' :: rest) :
    ∃ front, (seq blanks (seq (letter '=') (seq blanks value))).readings text =
      (value.readings (rest.dropWhile Unicode.isBlank)).map
        (Reading.followedBy ⟨front, [], rest.dropWhile Unicode.isBlank⟩) := by
  rw [(readsRun_blanks text).seq (readings_equals_blank _), equals, readings_letter_seq, if_pos rfl,
    (readsRun_blanks rest).seq starts, map_followedBy_followedBy, map_followedBy_followedBy]
  exact ⟨_, rfl⟩

/-- Behind part of a key nothing is read. -/
theorem readings_equals_keyChar (value : Pattern) (c : Char) (back : Text) (key : isKeyChar c = true) :
    (seq blanks (seq (letter '=') (seq blanks value))).readings (c :: back) = [] := by
  apply readings_equals_eq_nil
  rw [List.dropWhile_cons_of_neg (by simp [isBlank_of_isKeyChar key]), List.head?_cons]
  intro equals
  obtain rfl := Option.some.inj equals
  exact absurd key (by decide)

/-- Where no key is taken, none is read. -/
theorem readings_named_eq_nil {text : Text} (missed : takeKey? text = none) (group : Nat) (value : Pattern) :
    (namedPattern group value).readings text = [] := by
  by_cases keyed : text.takeWhile isKeyChar = []
  · rw [namedPattern, readings, readings, readings_atLeastOne_eq_nil keyed]
    rfl
  · rw [namedPattern, ((readsRun_atLeastOne keyed).capture group).seq (readings_equals_keyChar value),
      readings_equals_eq_nil, List.map_nil]
    intro equals
    obtain ⟨rest, split⟩ := List.head?_eq_some_iff.mp equals
    simp [takeKey?, split, keyed] at missed

/-- Where a key is taken, it is read, and its value behind. -/
theorem exists_readings_named {text key rest : Text} (taken : takeKey? text = some (key, rest)) (group : Nat)
    {value : Pattern} (starts : ∀ c back, Unicode.isBlank c = true → value.readings (c :: back) = []) :
    ∃ front, (namedPattern group value).readings text =
      (value.readings rest).map (Reading.followedBy ⟨front, [(group, key)], rest⟩) := by
  unfold takeKey? at taken
  split at taken
  · simp at taken
  · rename_i c back split
    rw [Option.ite_none_right_eq_some] at taken
    obtain ⟨⟨rfl, keyed⟩, same⟩ := taken
    obtain ⟨rfl, rfl⟩ := Prod.mk.inj (Option.some.inj same)
    obtain ⟨front, read⟩ := exists_readings_equals starts split
    rw [namedPattern, ((readsRun_atLeastOne keyed).capture group).seq (readings_equals_keyChar value), read,
      map_followedBy_followedBy]
    exact ⟨_, rfl⟩

/-- No quoted value starts with a blank. -/
theorem readings_quoted_blank {quote : Char} (visible : Unicode.isBlank quote = false) (group : Nat) (c : Char)
    (back : Text) (blank : Unicode.isBlank c = true) : (quotedPattern quote group).readings (c :: back) = [] := by
  rw [quotedPattern, readings_letter_seq, if_neg]
  rintro rfl
  exact Bool.false_ne_true (visible.symm.trans blank)

/-- No other value does. -/
theorem readings_plain_blank {test : Char → Bool} (visible : ∀ c, test c = true → Unicode.isBlank c = false)
    (group : Nat) (c : Char) (back : Text) (blank : Unicode.isBlank c = true) :
    (plainPattern test group).readings (c :: back) = [] := by
  have outside : ¬test c = true := fun inside => Bool.false_ne_true ((visible c inside).symm.trans blank)
  rw [plainPattern, readings, readings, readings_atLeastOne_eq_nil (List.takeWhile_cons_of_neg outside)]
  rfl

/-! ### Reading a lexeme -/

/-- The first reading is of a given token with a given text behind, and exactly one alternative took part in it; where
no token is given there is no reading. -/
def Finds (readings : List Reading) : Option (AttributeToken × Text) → Prop
  | none => readings = []
  | some found => ∃ taken captures others, readings = ⟨taken, captures, found.2.drop 1⟩ :: others ∧
      ofCaptures? captures = some found.1 ∧ captures.map Prod.fst ∈ alternatives

/-- The first alternative that finds a token is the one that counts. -/
theorem Finds.append {first second : List Reading} {found other : Option (AttributeToken × Text)}
    (here : Finds first found) (there : Finds second other) : Finds (first ++ second) (found <|> other) := by
  cases found with
  | none =>
    have empty : first = [] := here
    rw [empty]
    exact there
  | some parts =>
    obtain ⟨taken, captures, others, split, denotes, listed⟩ := here
    exact ⟨taken, captures, others ++ second, by rw [split, List.cons_append], denotes, listed⟩

/-- Readings as found are readings of the tokens that the captures denote. -/
theorem ReadsAs.finds {α : Type} {readings : List Reading} {found : Option α} {captures : α → List (Nat × Text)}
    {token : α → AttributeToken} {after : α → Text}
    (reads : ReadsAs readings (found.map fun parts => (captures parts, after parts)))
    (denotes : ∀ parts, ofCaptures? (captures parts) = some (token parts))
    (listed : ∀ parts, (captures parts).map Prod.fst ∈ alternatives) :
    Finds readings (found.map fun parts => (token parts, after parts)) := by
  cases found with
  | none => exact reads
  | some parts =>
    obtain ⟨taken, single⟩ := reads
    exact ⟨taken, captures parts, [], single, denotes parts, listed parts⟩

/-- A key with its value, which is taken in one way. -/
def takeNamedWith? (take? : Text → Option (Text × Text)) (text : Text) : Option (AttributeToken × Text) :=
  (takeKey? text).bind fun (key, rest) => (take? rest).map fun (value, after) => (.named key value, after)

/-- A key with its value is taken with a value of the first kind that can be taken. -/
theorem takeNamed?_eq_or (text : Text) :
    takeNamed? text = (takeNamedWith? (takeQuoted? '"') text <|>
      (takeNamedWith? (takeQuoted? '\x27') text <|> takeNamedWith? takeBare? text)) := by
  rw [takeNamed?_eq]
  unfold takeNamedWith? takeValue?
  cases takeKey? text with
  | none => rfl
  | some parts =>
    simp only [Option.bind_some, Option.orElse_eq_orElse, Option.orElse_eq_or, Option.map_or]

/-- A lexeme is taken by the first alternative that takes one. -/
theorem some_take_eq (text : Text) :
    some (take text) = (takeNamedWith? (takeQuoted? '"') text <|> (takeNamedWith? (takeQuoted? '\x27') text <|>
      (takeNamedWith? takeBare? text <|>
        ((takeQuoted? '"' text).map (fun (value, after) => (.positional value, after)) <|>
          ((takeQuoted? '\x27' text).map (fun (value, after) => (.positional value, after)) <|>
            some (takeWord text)))))) := by
  rw [take, takeNamed?_eq_or, takePositional?]
  simp only [Option.orElse_eq_orElse, Option.orElse_eq_or, Option.map_or, ← Option.or_some, Option.or_assoc]

/-- A key with its value is found as both are taken. -/
theorem finds_named {value : Pattern} {take? : Text → Option (Text × Text)} (keyGroup : Nat) {group : Nat}
    (reads : ∀ text, ReadsAs (value.readings text)
      ((take? text).map fun (written, after) => ([(group, written)], after)))
    (starts : ∀ c back, Unicode.isBlank c = true → value.readings (c :: back) = [])
    (denotes : ∀ key written, ofCaptures? [(keyGroup, key), (group, written)] = some (.named key written))
    (listed : [keyGroup, group] ∈ alternatives) (text : Text) :
    Finds ((namedPattern keyGroup value).readings text) (takeNamedWith? take? text) := by
  unfold takeNamedWith?
  cases keyed : takeKey? text with
  | none => exact readings_named_eq_nil keyed keyGroup value
  | some parts =>
    obtain ⟨key, rest⟩ := parts
    obtain ⟨front, read⟩ := exists_readings_named keyed keyGroup starts
    have both := (reads rest).followedBy ⟨front, [(keyGroup, key)], rest⟩
    rw [← read, Option.map_map] at both
    exact ReadsAs.finds both (fun found => denotes key found.1) fun _ => listed

/-- A value in quotes without a key is found as it is taken. -/
theorem finds_quoted (quote : Char) (group : Nat)
    (denotes : ∀ written, ofCaptures? [(group, written)] = some (.positional written))
    (listed : [group] ∈ alternatives) (text : Text) :
    Finds ((quotedPattern quote group).readings text)
      ((takeQuoted? quote text).map fun (value, after) => (.positional value, after)) :=
  ReadsAs.finds (readsAs_quoted quote group text) (fun found => denotes found.1) fun _ => listed

/-- A word is found wherever no blank stands. -/
theorem finds_word {c : Char} (rest : Text) (start : Unicode.isBlank c = false) :
    Finds ((plainPattern (fun d => !Unicode.isBlank d) 9).readings (c :: rest)) (some (takeWord (c :: rest))) := by
  have reads := readsAs_plain (fun d (visible : (!Unicode.isBlank d) = true) => by simpa using visible) 9 (c :: rest)
  obtain ⟨-, ends⟩ := takeWord_eq rest start
  have front : ((c :: rest).takeWhile fun d => !Unicode.isBlank d).isEmpty = false := by simp [start]
  simp only [takeWord] at ends ⊢
  rw [front, ends] at reads
  obtain ⟨taken, single⟩ := reads
  exact ⟨taken, _, [], single, rfl, by simp [alternatives]⟩

/-- The first reading of the pattern is the lexeme that is taken. -/
theorem finds_pattern {c : Char} (rest : Text) (start : Unicode.isBlank c = false) :
    Finds (pattern.readings (c :: rest)) (some (take (c :: rest))) := by
  have doubleQuoted := finds_named 1 (readsAs_quoted '"' 2) (readings_quoted_blank (by decide) 2)
    (fun _ _ => rfl) (by decide) (c :: rest)
  have singleQuoted := finds_named 3 (readsAs_quoted '\x27' 4) (readings_quoted_blank (by decide) 4)
    (fun _ _ => rfl) (by decide) (c :: rest)
  have bare := finds_named 5 (readsAs_bare 6) (readings_plain_blank (fun _ => isBlank_of_isBareChar) 6)
    (fun _ _ => rfl) (by decide) (c :: rest)
  have doubleAlone := finds_quoted '"' 7 (fun _ => rfl) (by decide) (c :: rest)
  have singleAlone := finds_quoted '\x27' 8 (fun _ => rfl) (by decide) (c :: rest)
  rw [some_take_eq]
  exact doubleQuoted.append <| singleQuoted.append <| bare.append <| doubleAlone.append <| singleAlone.append <|
    finds_word rest start

/-- Nothing is read where a blank stands. -/
theorem readings_pattern_blank {c : Char} (blank : Unicode.isBlank c = true) (rest : Text) :
    pattern.readings (c :: rest) = [] := by
  have outside : ¬isKeyChar c = true := fun key => Bool.false_ne_true ((isBlank_of_isKeyChar key).symm.trans blank)
  have missed : takeKey? (c :: rest) = none := by
    rw [takeKey?, List.takeWhile_cons_of_neg outside]
    split
    · rfl
    · exact if_neg fun keyed => keyed.2 rfl
  have doubleQuoted := @readings_quoted_blank '"' (by decide) 7 c rest blank
  have singleQuoted := @readings_quoted_blank '\x27' (by decide) 8 c rest blank
  have word := readings_plain_blank (fun d (visible : (!Unicode.isBlank d) = true) => by simpa using visible) 9 c rest
    blank
  simp only [pattern, readings, readings_named_eq_nil missed, doubleQuoted, singleQuoted, word, List.append_nil]

/-! ### Searching a text -/

/-- A cut of a text has its tokens: only blanks are left out, and each find takes something and is of one alternative
and of the token that comes next. -/
structure Tokenizes (cut : Cut) (text : Text) : Prop where
  /-- The gaps and the finds make up the text. -/
  whole : cut.toText = text
  /-- Before each find there are only blanks. -/
  gaps : ∀ piece ∈ cut.pieces, ∀ c ∈ piece.1, Unicode.isBlank c = true
  /-- So there are behind the last. -/
  tail : ∀ c ∈ cut.tail, Unicode.isBlank c = true
  /-- Each find takes something. -/
  takes : ∀ piece ∈ cut.pieces, piece.2.taken ≠ []
  /-- In each find exactly one alternative takes part. -/
  single : ∀ piece ∈ cut.pieces, piece.2.captures.map Prod.fst ∈ alternatives
  /-- The finds denote the tokens one by one. -/
  tokens : cut.pieces.map (fun piece => ofCaptures? piece.2.captures) = (scan 0 text).map some

/-- A blank more goes to the first gap. -/
theorem Tokenizes.pushChar {cut : Cut} {text : Text} (tokenizes : Tokenizes cut text) {c : Char}
    (blank : Unicode.isBlank c = true) : Tokenizes (cut.pushChar c) (c :: text) := by
  obtain ⟨pieces, tail⟩ := cut
  obtain ⟨whole, gaps, last, takes, single, tokens⟩ := tokenizes
  have grown := Cut.toText_pushChar c ⟨pieces, tail⟩
  rw [whole] at grown
  rw [← scan_blank blank] at tokens
  cases pieces with
  | nil => exact ⟨grown, gaps, by simpa [Cut.pushChar, blank] using last, takes, single, tokens⟩
  | cons piece others =>
    have longer : ∀ d ∈ c :: piece.1, Unicode.isBlank d = true := by
      simpa [blank] using gaps piece List.mem_cons_self
    refine ⟨grown, ?_, last, by simpa [Cut.pushChar] using takes, by simpa [Cut.pushChar] using single, tokens⟩
    intro other member
    rcases List.mem_cons.mp member with rfl | later
    · exact longer
    · exact gaps other (List.mem_cons_of_mem _ later)

/-- A find comes before the others with its token. -/
theorem Tokenizes.pushReading {cut : Cut} {text : Text} {r : Reading} {token : AttributeToken}
    (tokenizes : Tokenizes cut r.rest) (whole : r.taken ++ r.rest = text) (takes : r.taken ≠ [])
    (denotes : ofCaptures? r.captures = some token) (listed : r.captures.map Prod.fst ∈ alternatives)
    (tokens : scan 0 text = token :: scan 0 r.rest) : Tokenizes (cut.pushReading r) text := by
  constructor
  case whole => rw [Cut.toText_pushReading, tokenizes.whole, whole]
  case gaps =>
    intro piece member
    rcases List.mem_cons.mp member with rfl | later
    · simp
    · exact tokenizes.gaps piece later
  case tail => exact tokenizes.tail
  case takes =>
    intro piece member
    rcases List.mem_cons.mp member with rfl | later
    · exact takes
    · exact tokenizes.takes piece later
  case single =>
    intro piece member
    rcases List.mem_cons.mp member with rfl | later
    · exact listed
    · exact tokenizes.single piece later
  case tokens =>
    rw [tokens, Cut.pushReading, List.map_cons, List.map_cons, tokenizes.tokens, denotes]

/-- The blank behind a lexeme does not matter. -/
theorem scan_drop_one {after : Text} (ends : endsLexeme after = true) : scan 0 (after.drop 1) = scan 0 after := by
  cases after with
  | nil => rfl
  | cons c rest => exact (scan_blank ends rest).symm

/-- The search for the pattern has the tokens of a text. -/
theorem tokenizes_search (text : Text) : Tokenizes (pattern.search text) text := by
  induction length : text.length using Nat.strongRecOn generalizing text with
  | _ n inductionHypothesis =>
    cases text with
    | nil => exact ⟨rfl, by simp [search, searchFrom], by simp [search, searchFrom], by simp [search, searchFrom],
        by simp [search, searchFrom], rfl⟩
    | cons c rest =>
      simp only [List.length_cons] at length
      cases blank : Unicode.isBlank c with
      | true =>
        rw [search_char (readings_pattern_blank blank rest)]
        exact (inductionHypothesis rest.length (by omega) rest rfl).pushChar blank
      | false =>
        obtain ⟨taken, captures, others, first, denotes, listed⟩ := finds_pattern rest blank
        obtain ⟨⟨front, some_, split, -⟩, ends⟩ := take_eq rest blank
        have found : (pattern.readings (c :: rest)).head? = some ⟨taken, captures, (take (c :: rest)).2.drop 1⟩ := by
          rw [first]
          rfl
        have whole : taken ++ (take (c :: rest)).2.drop 1 = c :: rest := taken_append_rest (List.mem_of_head? found)
        have shorter : ((take (c :: rest)).2.drop 1).length < n := by
          have sizes := congrArg List.length split
          have positive := List.length_pos_iff.mpr some_
          simp only [List.length_cons, List.length_append] at sizes
          rw [List.length_drop]
          omega
        have takes : taken ≠ [] := by
          rintro rfl
          have size := congrArg List.length whole
          simp only [List.nil_append, List.length_cons] at size
          omega
        have later := inductionHypothesis _ shorter ((take (c :: rest)).2.drop 1) rfl
        rw [search_reading found takes]
        exact later.pushReading whole takes denotes listed (by rw [scan_take rest blank, scan_drop_one ends])

end AttributeToken

namespace Attributes
open AttributeToken

/-- Well-formed tokens write nothing only if there are none. -/
theorem ofTokens_eq_nil_iff {tokens : List AttributeToken} (wellFormed : ∀ token ∈ tokens, token.malformed? = none) :
    (ofTokens tokens).entries = [] ↔ tokens = [] := by
  constructor
  · intro empty
    cases tokens with
    | nil => rfl
    | cons token rest =>
      exfalso
      have keys : (ofTokens (token :: rest)).keys = [] := by rw [OrderedMap.keys, empty, List.map_nil]
      cases token with
      | named key value =>
        have kept := mem_keys_addTokens (OrderedMap.mem_keys_insert.mpr (Or.inl rfl) :
          Unicode.lower key ∈ (OrderedMap.empty.insert (Unicode.lower key) value).keys) 0 rest
        exact List.not_mem_nil (keys ▸ kept)
      | positional value =>
        have kept := mem_keys_addTokens (OrderedMap.mem_keys_insert.mpr (Or.inl rfl) :
          Text.ofNat 0 ∈ (OrderedMap.empty.insert (Text.ofNat 0) value).keys) 1 rest
        exact List.not_mem_nil (keys ▸ kept)
      | malformed written => simpa [malformed?] using wellFormed _ List.mem_cons_self
  · rintro rfl
    rfl

/-- A search for the pattern of a lexeme in attribute text, without its invisible characters, has all tokens of the text
and leaves only blanks out. So attribute text is read just when there is a token and none is malformed. -/
theorem tokenizes_ofText (text : Text) :
    Tokenizes (pattern.search (normalize text)) (normalize text) ∧
      ((∃ attributes, parse text = .ok attributes) ↔
        (pattern.search (normalize text)).pieces ≠ [] ∧ ∀ piece ∈ (pattern.search (normalize text)).pieces,
          ∀ written, ofCaptures? piece.2.captures ≠ some (.malformed written)) := by
  have tokenizes := tokenizes_search (normalize text)
  refine ⟨tokenizes, ?_⟩
  have tokens : (pattern.search (normalize text)).pieces.map (fun piece => ofCaptures? piece.2.captures) =
      (ofText text).map some := tokenizes.tokens
  have wellFormed : (∀ token ∈ ofText text, token.malformed? = none) ↔
      ∀ piece ∈ (pattern.search (normalize text)).pieces, ∀ written,
        ofCaptures? piece.2.captures ≠ some (.malformed written) := by
    constructor
    · intro each piece member written refused
      have listed : some (.malformed written) ∈ (ofText text).map some :=
        tokens ▸ List.mem_map.mpr ⟨piece, member, refused⟩
      exact absurd (each _ (by simpa using listed)) (by simp [malformed?])
    · intro each token member
      obtain ⟨piece, listed, denotes⟩ := List.mem_map.mp (tokens ▸ List.mem_map_of_mem member :
        some token ∈ (pattern.search (normalize text)).pieces.map fun piece => ofCaptures? piece.2.captures)
      cases token with
      | malformed written => exact absurd denotes (each piece listed written)
      | named key value => rfl
      | positional value => rfl
  have empty : (pattern.search (normalize text)).pieces = [] ↔ ofText text = [] := by
    rw [← List.map_eq_nil_iff, tokens, List.map_eq_nil_iff]
  rw [← wellFormed, Ne, empty]
  constructor
  · rintro ⟨attributes, read⟩
    obtain ⟨each, rfl, some_⟩ := parse_eq_ok_iff.mp read
    exact ⟨fun none_ => some_ ((ofTokens_eq_nil_iff each).mpr none_), each⟩
  · rintro ⟨some_, each⟩
    exact ⟨parseLenient text, parse_eq_ok_iff.mpr ⟨each, rfl, fun none_ => some_ ((ofTokens_eq_nil_iff each).mp none_)⟩⟩

end Attributes
end MapEmbed
