import MapEmbed.Proofs.Attribute.Reading
import MapEmbed.Proofs.Text.SafeText

/-!
# Written attributes read again

Readable attributes can be written and read, and what changes is known: every value is escaped, and the keys that
are numbers are counted anew from zero. Every other key keeps its place, and its value is found escaped. Nothing
in the written form is malformed.
-/

namespace MapEmbed.Attributes
open AttributeToken

/-- The token that an entry is read as: its value escaped, without its key if that is a number. -/
def entryToken (entry : Text × Text) : AttributeToken :=
  if isPositionalKey entry.1 then .positional (Text.escape entry.2) else .named entry.1 (Text.escape entry.2)

/-- The entries after writing and reading: values are escaped and numbers counted from the given one. -/
def renumber : Nat → List (Text × Text) → List (Text × Text)
  | _, [] => []
  | count, (key, value) :: rest =>
    if isPositionalKey key then (Text.ofNat count, Text.escape value) :: renumber (count + 1) rest
    else (key, Text.escape value) :: renumber count rest

/-! ### One entry -/

/-- A quoted value is read back in front of a blank or at the end. -/
theorem takeQuoted?_escape (value : Text) {after : Text} (ends : endsLexeme after = true) :
    takeQuoted? '"' ('"' :: (Text.escape value ++ '"' :: after)) = some (Text.escape value, after) :=
  takeQuoted?_eq_some_iff.mpr ⟨rfl, Text.quote_not_mem_escape value, ends⟩

/-- A key with a quoted value is read back. -/
theorem takeNamed?_escape {key : Text} (valid : IsKey key) (value : Text) {after : Text}
    (ends : endsLexeme after = true) :
    takeNamed? (key ++ '=' :: '"' :: (Text.escape value ++ '"' :: after)) =
      some (.named key (Text.escape value), after) := by
  obtain ⟨some_, all, -⟩ := valid
  have front : (key ++ '=' :: '"' :: (Text.escape value ++ '"' :: after)).takeWhile isKeyChar = key := by
    rw [List.takeWhile_append_of_pos all, List.takeWhile_cons_of_neg (by decide), List.append_nil]
  have back : (key ++ '=' :: '"' :: (Text.escape value ++ '"' :: after)).dropWhile isKeyChar =
      '=' :: '"' :: (Text.escape value ++ '"' :: after) := by
    rw [List.dropWhile_append_of_pos all, List.dropWhile_cons_of_neg (by decide)]
  have equals : Unicode.isBlank '=' = false := by decide
  have opened : Unicode.isBlank '"' = false := by decide
  have valued : takeValue? ('"' :: (Text.escape value ++ '"' :: after)) = some (Text.escape value, after) := by
    rw [takeValue?, takeQuoted?_escape value ends]
    rfl
  simp [takeNamed?, front, back, equals, opened, some_, valued]

/-- No key is read where a quote stands. -/
theorem takeNamed?_quote (rest : Text) : takeNamed? ('"' :: rest) = none := by
  have key : isKeyChar '"' = false := by decide
  have blank : Unicode.isBlank '"' = false := by decide
  simp [takeNamed?, key, blank]

/-- An entry in print is read back as its token. -/
theorem take_entryText {entry : Text × Text} (valid : IsKey entry.1) {after : Text} (ends : endsLexeme after = true) :
    take (entryText entry ++ after) = (entryToken entry, after) := by
  obtain ⟨key, value⟩ := entry
  by_cases positional : isPositionalKey key = true
  · have quoted := takeQuoted?_escape value ends
    simp [take, entryText, entryToken, positional, takeNamed?_quote, takePositional?, quoted]
  · have named := takeNamed?_escape valid value ends
    simp [take, entryText, entryToken, positional, named]

/-- An entry in print starts with a character that is not blank. -/
theorem entryText_eq_cons {entry : Text × Text} (valid : IsKey entry.1) :
    ∃ c rest, entryText entry = c :: rest ∧ Unicode.isBlank c = false := by
  obtain ⟨key, value⟩ := entry
  by_cases positional : isPositionalKey key = true
  · exact ⟨'"', Text.escape value ++ ['"'], by simp [entryText, positional], by decide⟩
  · obtain ⟨some_, all, -⟩ := valid
    obtain ⟨c, rest, rfl⟩ := List.exists_cons_of_ne_nil some_
    exact ⟨c, rest ++ '=' :: '"' :: (Text.escape value ++ ['"']), by simp [entryText, positional],
      isBlank_of_isKeyChar (all c List.mem_cons_self)⟩

/-! ### All entries -/

/-- The entries in print, separated by spaces, are scanned as their tokens. -/
theorem scan_entryTexts {entries : List (Text × Text)} (valid : ∀ entry ∈ entries, IsKey entry.1) :
    scan 0 (List.intercalate [' '] (entries.map entryText)) = entries.map entryToken := by
  induction entries with
  | nil => rfl
  | cons entry rest inductionHypothesis =>
    have first := valid entry List.mem_cons_self
    have later := inductionHypothesis fun other member => valid other (List.mem_cons_of_mem _ member)
    obtain ⟨c, others, starts, noBlank⟩ := entryText_eq_cons first
    have step (after : Text) (ends : endsLexeme after = true) :
        scan 0 (entryText entry ++ after) = entryToken entry :: scan 0 after := by
      have taken := take_entryText first ends
      rw [starts, List.cons_append] at taken ⊢
      rw [scan_take _ noBlank, taken]
    cases rest with
    | nil => simpa [scan] using step [] rfl
    | cons second others =>
      have space : Unicode.isBlank ' ' = true := by decide
      have separated := step (' ' :: List.intercalate [' '] ((second :: others).map entryText)) space
      rw [scan_blank space, later] at separated
      simpa [List.intercalate] using separated

/-- The characters of attributes in print: those of the keys, those that the writer adds, and those of escaped
values. -/
theorem mem_toText {attributes : Attributes} {c : Char} (member : c ∈ attributes.toText) :
    (c = ' ' ∨ c = '=' ∨ c = '"') ∨ ∃ entry ∈ attributes.entries, c ∈ entry.1 ∨ c ∈ Text.escape entry.2 := by
  unfold toText at member
  generalize attributes.entries = entries at member
  induction entries with
  | nil => simp [List.intercalate] at member
  | cons entry rest inductionHypothesis =>
    have own (here : c ∈ entryText entry) :
        (c = ' ' ∨ c = '=' ∨ c = '"') ∨ ∃ other ∈ entry :: rest, c ∈ other.1 ∨ c ∈ Text.escape other.2 := by
      unfold entryText at here
      split at here
      · simp only [List.cons_append, List.mem_cons, List.mem_append, List.not_mem_nil, or_false] at here
        rcases here with quote | value | quote
        · exact Or.inl (Or.inr (Or.inr quote))
        · exact Or.inr ⟨entry, List.mem_cons_self, Or.inr value⟩
        · exact Or.inl (Or.inr (Or.inr quote))
      · simp only [List.cons_append, List.mem_cons, List.mem_append, List.not_mem_nil, or_false] at here
        rcases here with key | equals | quote | value | quote
        · exact Or.inr ⟨entry, List.mem_cons_self, Or.inl key⟩
        · exact Or.inl (Or.inr (Or.inl equals))
        · exact Or.inl (Or.inr (Or.inr quote))
        · exact Or.inr ⟨entry, List.mem_cons_self, Or.inr value⟩
        · exact Or.inl (Or.inr (Or.inr quote))
    cases rest with
    | nil => exact own (by simpa using member)
    | cons second others =>
      have parts : c ∈ entryText entry ∨ c = ' ' ∨ c ∈ List.intercalate [' '] ((second :: others).map entryText) := by
        simpa [List.intercalate] using member
      rcases parts with here | space | later
      · exact own here
      · exact Or.inl (Or.inl space)
      · rcases inductionHypothesis later with added | ⟨other, listed, inside⟩
        · exact Or.inl added
        · exact Or.inr ⟨other, List.mem_cons_of_mem _ listed, inside⟩

/-- Attributes in print hold no invisible character. -/
theorem visible_toText {attributes : Attributes} (readable : attributes.Readable) :
    ∀ c ∈ attributes.toText, ¬isInvisible c := by
  intro c member invisible
  rcases mem_toText member with (rfl | rfl | rfl) | ⟨entry, listed, key | value⟩
  · exact absurd invisible (by unfold isInvisible; decide)
  · exact absurd invisible (by unfold isInvisible; decide)
  · exact absurd invisible (by unfold isInvisible; decide)
  · exact visible_of_isKeyChar ((readable entry listed).1.2.1 c key) invisible
  · rcases Text.mem_escape value with rfl | ⟨-, kept | written⟩
    · exact absurd invisible (by unfold isInvisible; decide)
    · exact (readable entry listed).2 c kept invisible
    · rcases eq_of_isInvisible invisible with rfl | rfl
      · exact absurd written (by decide)
      · exact absurd written (by decide)

/-- Attributes in print hold a character outside of them only if it stands in an escaped value. -/
theorem not_mem_toText {attributes : Attributes} {c : Char} (readable : attributes.Readable)
    (key : isKeyChar c = false) (reference : Text.isReferenceChar c = false)
    (other : c ≠ ' ' ∧ c ≠ '=' ∧ c ≠ '"' ∧ c ≠ '&')
    (values : ∀ entry ∈ attributes.entries, c ∉ entry.2) : c ∉ attributes.toText := by
  intro member
  obtain ⟨space, equals, quote, ampersand⟩ := other
  rcases mem_toText member with (same | same | same) | ⟨entry, listed, inside | inside⟩
  · exact space same
  · exact equals same
  · exact quote same
  · exact Bool.false_ne_true (key.symm.trans ((readable entry listed).1.2.1 c inside))
  · rcases Text.mem_escape inside with same | ⟨-, kept | written⟩
    · exact ampersand same
    · exact values entry listed kept
    · exact Bool.false_ne_true (reference.symm.trans written)

/-- The tokens of attributes in print are those of their entries. -/
theorem ofText_toText {attributes : Attributes} (readable : attributes.Readable) :
    ofText attributes.toText = attributes.entries.map entryToken := by
  unfold ofText
  rw [normalize_eq_self (visible_toText readable)]
  exact scan_entryTexts fun entry member => (readable entry member).1

/-! ### The attributes that are read back -/

/-- A renumbered key is one of the keys, or a number from the given one on. -/
theorem mem_renumber {count : Nat} {entries : List (Text × Text)} {key : Text}
    (member : key ∈ (renumber count entries).map Prod.fst) :
    (isPositionalKey key = false ∧ key ∈ entries.map Prod.fst) ∨ ∃ n, count ≤ n ∧ key = Text.ofNat n := by
  induction entries generalizing count with
  | nil => simp [renumber] at member
  | cons entry rest inductionHypothesis =>
    obtain ⟨head, value⟩ := entry
    by_cases positional : isPositionalKey head = true
    · simp only [renumber, positional, if_true, List.map_cons, List.mem_cons] at member
      rcases member with rfl | later
      · exact Or.inr ⟨count, Nat.le_refl count, rfl⟩
      · rcases inductionHypothesis later with ⟨named, listed⟩ | ⟨n, more, same⟩
        · exact Or.inl ⟨named, List.mem_cons_of_mem _ listed⟩
        · exact Or.inr ⟨n, Nat.le_of_succ_le more, same⟩
    · rw [renumber, if_neg positional, List.map_cons, List.mem_cons] at member
      rcases member with rfl | later
      · exact Or.inl ⟨Bool.eq_false_iff.mpr positional, List.mem_cons_self⟩
      · rcases inductionHypothesis later with ⟨named, listed⟩ | numbered
        · exact Or.inl ⟨named, List.mem_cons_of_mem _ listed⟩
        · exact Or.inr numbered

/-- Renumbered keys are distinct: the others were, and numbers are counted upwards. -/
theorem nodup_renumber (count : Nat) {entries : List (Text × Text)} (distinct : (entries.map Prod.fst).Nodup) :
    ((renumber count entries).map Prod.fst).Nodup := by
  induction entries generalizing count with
  | nil => simp [renumber]
  | cons entry rest inductionHypothesis =>
    obtain ⟨head, value⟩ := entry
    simp only [List.map_cons, List.nodup_cons] at distinct
    by_cases positional : isPositionalKey head = true
    · simp only [renumber, positional, if_true, List.map_cons, List.nodup_cons]
      refine ⟨?_, inductionHypothesis (count + 1) distinct.2⟩
      intro member
      rcases mem_renumber member with ⟨named, -⟩ | ⟨n, more, same⟩
      · simp [isPositionalKey_ofNat] at named
      · have equal := Text.ofNat_inj same
        omega
    · rw [renumber, if_neg positional, List.map_cons, List.nodup_cons]
      refine ⟨?_, inductionHypothesis count distinct.2⟩
      intro member
      rcases mem_renumber member with ⟨-, listed⟩ | ⟨n, -, same⟩
      · exact distinct.1 listed
      · simp only at same
        exact positional (same ▸ isPositionalKey_ofNat n)

/-- Tokens of entries whose renumbered keys are new are added at the end. -/
theorem entries_addTokens {attributes : Attributes} {count : Nat} {entries : List (Text × Text)}
    (valid : ∀ entry ∈ entries, IsKey entry.1)
    (new : (attributes.entries.map Prod.fst ++ (renumber count entries).map Prod.fst).Nodup) :
    (addTokens attributes count (entries.map entryToken)).entries = attributes.entries ++ renumber count entries := by
  induction entries generalizing attributes count with
  | nil => simp [addTokens, renumber]
  | cons entry rest inductionHypothesis =>
    obtain ⟨head, value⟩ := entry
    have lowered : Unicode.lower head = head := (valid (head, value) List.mem_cons_self).2.2
    have later (other : Text × Text) (member : other ∈ rest) : IsKey other.1 := valid other (List.mem_cons_of_mem _ member)
    -- one entry goes to the end, and the keys after it are new to the longer map
    have step (key : Text) (next : Nat)
        (distinct : (attributes.entries.map Prod.fst ++ key :: (renumber next rest).map Prod.fst).Nodup) :
        (addTokens (attributes.insert key (Text.escape value)) next (rest.map entryToken)).entries =
          attributes.entries ++ (key, Text.escape value) :: renumber next rest := by
      have absent : key ∉ attributes.entries.map Prod.fst := by
        intro member
        exact (List.nodup_append.mp distinct).2.2 key member key List.mem_cons_self rfl
      have grown := @Entries.insert_of_not_mem _ _ (Text.escape value) _ absent
      rw [inductionHypothesis later (by simpa [grown] using distinct), OrderedMap.entries_insert, grown]
      simp
    by_cases positional : isPositionalKey head = true
    · simp only [renumber, positional, if_true, List.map_cons] at new ⊢
      simpa [addTokens, entryToken, positional] using step (Text.ofNat count) (count + 1) new
    · rw [renumber, if_neg positional] at new ⊢
      rw [List.map_cons] at new
      simpa [addTokens, entryToken, positional, lowered] using step head count new

/-- Attributes in print are read with their numbers counted anew and their values escaped. -/
theorem entries_parseLenient_toText {attributes : Attributes} (readable : attributes.Readable) :
    (parseLenient attributes.toText).entries = renumber 0 attributes.entries := by
  unfold parseLenient ofTokens
  rw [ofText_toText readable]
  exact entries_addTokens (fun entry member => (readable entry member).1)
    (by simpa using nodup_renumber 0 attributes.nodup)

/-- A key that is no number keeps its value, escaped. -/
theorem lookup_renumber {key : Text} (named : isPositionalKey key = false) (count : Nat)
    (entries : List (Text × Text)) :
    (renumber count entries).lookup key = (entries.lookup key).map Text.escape := by
  induction entries generalizing count with
  | nil => rfl
  | cons entry rest inductionHypothesis =>
    obtain ⟨head, value⟩ := entry
    by_cases positional : isPositionalKey head = true
    · have other : key ≠ head := by
        rintro rfl
        simp [positional] at named
      have number : key ≠ Text.ofNat count := by
        rintro rfl
        simp [isPositionalKey_ofNat] at named
      simp only [renumber, positional, if_true, Entries.lookup_cons, other, number, if_false, inductionHypothesis]
    · rw [renumber, if_neg positional, Entries.lookup_cons, Entries.lookup_cons, inductionHypothesis]
      split <;> rfl

/-- The value of a key that is no number is found escaped when attributes are written and read. -/
theorem get?_parseLenient_toText {attributes : Attributes} (readable : attributes.Readable) {key : Text}
    (named : isPositionalKey key = false) :
    (parseLenient attributes.toText).get? key = (attributes.get? key).map Text.escape := by
  unfold OrderedMap.get?
  rw [entries_parseLenient_toText readable, lookup_renumber named]

/-- Attributes in print can be read strictly, if there are any. -/
theorem parse_toText {attributes : Attributes} (readable : attributes.Readable) (some_ : attributes.entries ≠ []) :
    parse attributes.toText = .ok (parseLenient attributes.toText) := by
  rw [parse_eq_ok_iff, entries_parseLenient_toText readable, ofText_toText readable]
  refine ⟨?_, rfl, ?_⟩
  · intro token member
    obtain ⟨entry, -, rfl⟩ := List.mem_map.mp member
    unfold entryToken
    split <;> rfl
  · cases entries : attributes.entries with
    | nil => exact absurd entries some_
    | cons entry rest =>
      simp only [renumber]
      split <;> simp

/-! ### Normal text -/

/-- Neither escaping the values nor counting the numbers anew changes how entries are written. -/
theorem map_entryText_renumber (count : Nat) (entries : List (Text × Text)) :
    (renumber count entries).map entryText = entries.map entryText := by
  induction entries generalizing count with
  | nil => rfl
  | cons entry rest inductionHypothesis =>
    obtain ⟨key, value⟩ := entry
    by_cases positional : isPositionalKey key = true
    · simp only [renumber, positional, if_true, List.map_cons, inductionHypothesis, List.cons.injEq, and_true]
      simp only [entryText, isPositionalKey_ofNat, positional, if_true, Text.escape_escape]
    · rw [renumber, if_neg positional, List.map_cons, List.map_cons, inductionHypothesis]
      simp only [entryText, Text.escape_escape]

/-- What attributes come back as when they are written and read. -/
structure RereadAs (attributes again : Attributes) : Prop where
  /-- The strict reader finds nothing wrong. -/
  strict : parse attributes.toText = .ok again
  /-- The lenient reader finds the same. -/
  lenient : parseLenient attributes.toText = again
  /-- The entries are in their old order, with their values escaped and the numbers among their keys counted anew. -/
  entries : again.entries = renumber 0 attributes.entries
  /-- They are written as before. -/
  text : again.toText = attributes.toText

/-- Readable attributes come back if there are any. -/
theorem Readable.rereadAs {attributes : Attributes} (readable : attributes.Readable)
    (some_ : attributes.entries ≠ []) : RereadAs attributes (parseLenient attributes.toText) where
  strict := parse_toText readable some_
  lenient := rfl
  entries := entries_parseLenient_toText readable
  text := by rw [toText, entries_parseLenient_toText readable, map_entryText_renumber, ← toText]

/-- Attributes that were read from a text, strictly or leniently, can be written and read, and the text that is written
does not change any more. -/
theorem exists_rereadAs {text : Text} {attributes : Attributes}
    (read : parse text = .ok attributes ∨ parseLenient text = attributes ∧ attributes.isEmpty = false) :
    ∃ again, RereadAs attributes again := by
  have source : parseLenient text = attributes ∧ attributes.entries ≠ [] := by
    cases read with
    | inl strict =>
      obtain ⟨-, same, some_⟩ := parse_eq_ok_iff.mp strict
      exact ⟨same, some_⟩
    | inr lenient => exact ⟨lenient.1, by simpa [OrderedMap.isEmpty] using lenient.2⟩
  obtain ⟨rfl, some_⟩ := source
  exact ⟨_, (readable_parseLenient text).rereadAs some_⟩

/-- A key that is a number, two bare words and a key in capitals. -/
def numbered : Text := "7=x flag & Zoom=\"a&b\"".toList

/-- The key takes part in the count, and only the first writing changes the values. -/
theorem rereadAs_numbered :
    parse numbered = .ok (parseLenient numbered) ∧
      ∃ again, RereadAs (parseLenient numbered) again ∧ again.entries =
        [("0".toList, "x".toList), ("1".toList, "flag".toList), ("2".toList, "&amp;".toList),
          ("zoom".toList, "a&amp;b".toList)] := by
  have entries : (parseLenient numbered).entries =
      [("7".toList, "x".toList), ("0".toList, "flag".toList), ("1".toList, "&".toList),
        ("zoom".toList, "a&b".toList)] := by decide
  have wellFormed : ∀ token ∈ ofText numbered, token.malformed? = none := by decide
  have read : parse numbered = .ok (parseLenient numbered) := parse_eq_ok_iff.mpr ⟨wellFormed, rfl, by simp [entries]⟩
  obtain ⟨again, reread⟩ := exists_rereadAs (Or.inl read)
  refine ⟨read, again, reread, ?_⟩
  rw [reread.entries, entries]
  decide

end MapEmbed.Attributes
