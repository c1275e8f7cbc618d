import MapEmbed.Html.Node
import MapEmbed.Proofs.Html.Values

/-!
# Reading start tags back

A start tag that is written with double quotes around its values is read as one tag with the same attributes. Values
are read each on its own. One that is an escaped text is the text again exactly when no reference in it is decoded.
-/

namespace MapEmbed.Html

open Lexer (stepState quotedValueStep beforeAttributeStep)

/-- The first start tag that is read. -/
def firstTag? (names : ReferenceTable) : Lexer → Text → Option Tag
  | _, [] => none
  | lexer, c :: rest =>
    match lexer.step names c with
    | (.startTag tag :: _, _) => some tag
    | (_, next) => firstTag? names next rest

/-- The value of an attribute of the first start tag, as a reader of markup gets it. -/
def attributeValue? (names : ReferenceTable) (markup key : Text) : Option Text :=
  (firstTag? names Lexer.initial (normalizeLines (withoutMark markup))).bind fun tag => tag.attributes.lookup key

/-- A character that stands for itself in the name of a tag or of an attribute, and is no line end. -/
def isNameChar (c : Char) : Bool :=
  nameChar c == c && !isMarkupBlank c && c != '/' && c != '=' && c != '>' && c != '\r'

/-- A name that starts with a letter. -/
def isMarkupName : Text → Bool
  | [] => false
  | c :: rest => Unicode.isAsciiLetter c && isNameChar c && rest.all isNameChar

/-- Between two attributes of a tag, or after its name. -/
def Between (names : ReferenceTable) (draft : TagDraft) (state : LexState) : Prop :=
  ∀ lastStart c, c = ' ' ∨ c = '>' → stepState names lastStart state c = beforeAttributeStep draft c

/-- What a value that was written in double quotes is read as, in any tag. -/
def ValueRead (names : ReferenceTable) (written value : Text) : Prop :=
  ∀ lastStart draft name, quiet? names lastStart (.quotedValue draft name '"' []) (written ++ ['"']) =
    some (.beforeAttribute (draft.addAttribute name value.reverse))

/-- Where the lexer is inside a value: what it has read of the value, and of a reference. -/
inductive InValue where
  | text (value : Text)
  | reference (value seen : Text)

/-- The state of the lexer inside a value of a tag. -/
def InValue.state (draft : TagDraft) (name : Text) : InValue → LexState
  | .text value => .quotedValue draft name '"' value
  | .reference value seen => .valueReference draft name (some '"') value seen

section
variable {names : ReferenceTable} {lastStart : Text} {draft : TagDraft} {name value : Text} {state : LexState}

/-! ### Line ends -/

/-- Line ends are normalized piece by piece, unless a pair of characters is cut apart. -/
theorem normalizeLines_append (front : Text) {back : Text} (whole : back.head? ≠ some '\n') :
    normalizeLines (front ++ back) = normalizeLines front ++ normalizeLines back := by
  fun_induction normalizeLines front with
  | case1 => rfl
  | case2 rest inductionHypothesis => simp [normalizeLines, inductionHypothesis]
  | case3 rest unpaired inductionHypothesis =>
    rw [List.cons_append, normalizeLines, inductionHypothesis, List.cons_append]
    intro others start
    cases rest with
    | nil =>
      rw [List.nil_append] at start
      simp [start] at whole
    | cons d rest =>
      obtain ⟨rfl, -⟩ := List.cons.inj start
      exact unpaired rest rfl
  | case4 c rest paired unpaired inductionHypothesis =>
    rw [List.cons_append, normalizeLines, inductionHypothesis, List.cons_append]
    · exact fun others return_ _ => unpaired return_
    · exact unpaired

/-- Before what follows it, a text without carriage returns is normal. -/
theorem normalizeLines_append_plain {front : Text} (absent : '\r' ∉ front) (back : Text) :
    normalizeLines (front ++ back) = front ++ normalizeLines back := by
  induction front with
  | nil => rfl
  | cons c rest inductionHypothesis =>
    rw [List.mem_cons, not_or] at absent
    rw [List.cons_append, normalizeLines, inductionHypothesis absent.2, List.cons_append]
    · exact fun others same _ => absent.1 same.symm
    · exact fun same => absent.1 same.symm

/-- A text without carriage returns is normal. -/
theorem normalizeLines_eq_self {text : Text} (absent : '\r' ∉ text) : normalizeLines text = text := by
  simpa [normalizeLines] using normalizeLines_append_plain absent []

/-- Only line feeds are new. -/
theorem mem_normalizeLines {text : Text} {c : Char} (member : c ∈ normalizeLines text) : c = '\n' ∨ c ∈ text := by
  fun_induction normalizeLines text with
  | case1 => simp at member
  | case2 rest inductionHypothesis =>
    rcases List.mem_cons.mp member with new | later
    · exact Or.inl new
    · exact (inductionHypothesis later).imp_right (by simp +contextual)
  | case3 rest unpaired inductionHypothesis =>
    rcases List.mem_cons.mp member with new | later
    · exact Or.inl new
    · exact (inductionHypothesis later).imp_right (by simp +contextual)
  | case4 d rest paired unpaired inductionHypothesis =>
    rcases List.mem_cons.mp member with here | later
    · exact Or.inr (by simp [here])
    · exact (inductionHypothesis later).imp_right (by simp +contextual)

/-! ### Values -/

/-- No reference goes on with a character that stands in none. -/
theorem continuesReference_of_outside (sound : Sound names) (seen : Text) {c : Char}
    (outside : Text.isReferenceChar c = false) : continuesReference names seen c = false := by
  have other {d : Char} (inside : Text.isReferenceChar d = true) : c ≠ d := by
    rintro rfl
    simp [inside] at outside
  unfold continuesReference
  split
  · rename_i hexadecimal digits after _
    have digit : isReferenceDigit hexadecimal c = false := by
      apply Bool.eq_false_iff.mpr
      intro digit
      have letter : Unicode.isAsciiAlphanumeric c = true := by
        cases hexadecimal with
        | true => exact Text.isAsciiAlphanumeric_of_isHexDigit digit
        | false =>
          have decimal : Unicode.isAsciiDigit c = true := digit
          simp [Unicode.isAsciiAlphanumeric, decimal]
      exact absurd (Text.isReferenceChar_of_alphanumeric letter) (by simp [outside])
    simp [digit, @other ';' (by decide), @other 'x' (by decide), @other 'X' (by decide)]
  · have unknown : (names.any fun entry => (seen ++ [c]).isPrefixOf entry.1) = false := by
      apply List.any_eq_false.mpr
      intro entry listed starts
      have inside : c ∈ entry.1 := (List.isPrefixOf_iff_prefix.mp starts).subset (by simp)
      rcases sound.mem_name listed inside with letter | semicolon
      · exact absurd (Text.isReferenceChar_of_alphanumeric letter) (by simp [outside])
      · exact other (by decide) semicolon
    simpa [@other '#' (by decide)] using unknown

/-- A text without double quotes is read as some value, the same in every tag. -/
theorem exists_valueRead_from (sound : Sound names) {written : Text} (absent : '"' ∉ written) (place : InValue) :
    ∃ value : Text, ∀ lastStart draft name, quiet? names lastStart (place.state draft name) (written ++ ['"']) =
      some (.beforeAttribute (draft.addAttribute name value.reverse)) := by
  induction written generalizing place with
  | nil =>
    cases place with
    | text value =>
      refine ⟨value.reverse, fun lastStart draft name => ?_⟩
      simp [InValue.state, quiet?, stepState, quotedValueStep]
    | reference value seen =>
      refine ⟨((decodeReference names true seen.reverse (some '"')).chars.reverse ++ value).reverse,
        fun lastStart draft name => ?_⟩
      simp [InValue.state, quiet?, stepState, Lexer.valueReferenceStep, continuesReference_of_outside sound _ (by decide : Text.isReferenceChar '"' = false),
        Lexer.valueStep, quotedValueStep]
  | cons c rest inductionHypothesis =>
    rw [List.mem_cons, not_or] at absent
    -- the next place is the same in every tag
    have next : ∃ after : InValue, ∀ lastStart draft name,
        stepState names lastStart (place.state draft name) c = ([], after.state draft name) := by
      have plain (value : Text) : ∃ after : InValue, ∀ draft name,
          quotedValueStep draft name '"' value c = ([], after.state draft name) := by
        by_cases ampersand : c = '&'
        · exact ⟨.reference value [], fun draft name => by simp [quotedValueStep, ampersand, InValue.state]⟩
        · exact ⟨.text (withoutNul c :: value), fun draft name => by
            simp [quotedValueStep, ampersand, Ne.symm absent.1, InValue.state]⟩
      cases place with
      | text value =>
        obtain ⟨after, silent⟩ := plain value
        exact ⟨after, fun lastStart draft name => silent draft name⟩
      | reference value seen =>
        by_cases continues : continuesReference names seen.reverse c = true
        · refine ⟨.reference value (c :: seen), fun lastStart draft name => ?_⟩
          simp [InValue.state, stepState, Lexer.valueReferenceStep, continues]
        · obtain ⟨after, silent⟩ := plain ((decodeReference names true seen.reverse (some c)).chars.reverse ++ value)
          refine ⟨after, fun lastStart draft name => ?_⟩
          simpa [InValue.state, stepState, Lexer.valueReferenceStep, continues, Lexer.valueStep] using silent draft name
    obtain ⟨after, silent⟩ := next
    obtain ⟨value, read⟩ := inductionHypothesis absent.2 after
    refine ⟨value, fun lastStart draft name => ?_⟩
    rw [List.cons_append, quiet?_cons (silent lastStart draft name), read]

/-- A text without double quotes is read as some value. -/
theorem exists_valueRead (sound : Sound names) {written : Text} (absent : '"' ∉ written) :
    ∃ value, ValueRead names written value :=
  exists_valueRead_from sound absent (.text [])

/-- A text is read as one value only. -/
theorem valueRead_unique {written other : Text} (one : ValueRead names written value)
    (two : ValueRead names written other) : value = other := by
  have same := (one [] ⟨false, [], []⟩ []).symm.trans (two [] ⟨false, [], []⟩ [])
  simpa [TagDraft.addAttribute] using same

/-- An escaped text is read as that text exactly when no reference of it is decoded. -/
theorem exists_valueRead_escape (sound : Sound names) {text : Text} (clean : Char.ofNat 0 ∉ text) :
    ∃ value, ValueRead names (Text.escape text) value ∧ RereadAs names text value := by
  obtain ⟨value, reread, read⟩ := read_escape sound clean
  refine ⟨value, fun lastStart draft name => ?_, reread⟩
  obtain ⟨next, readText, reads⟩ := @read lastStart draft name [] _ reads_quotedValue
  rw [quiet?_append, readText, Option.bind_some, quiet?, reads lastStart '"']
  simp [quotedValueStep, quiet?]

/-- A value whose characters mean nothing else in a value is read as it is written. -/
theorem valueRead_plain {text : Text} (plain : ∀ c ∈ text, isPlainInValue c = true) : ValueRead names text text := by
  intro lastStart draft name
  rw [quiet?_append, quiet?_plain plain, Option.bind_some, List.append_nil]
  simp [quiet?, stepState, quotedValueStep]

/-! ### Names -/

/-- The characters of names mean nothing else in a tag. -/
theorem isNameChar_spec {c : Char} (inside : isNameChar c = true) :
    nameChar c = c ∧ isMarkupBlank c = false ∧ c ≠ '/' ∧ c ≠ '=' ∧ c ≠ '>' := by
  simp only [isNameChar, Bool.and_eq_true, beq_iff_eq, bne_iff_ne, Bool.not_eq_true', ne_eq] at inside
  obtain ⟨⟨⟨⟨⟨kept, blank⟩, slash⟩, equals⟩, closing⟩, -⟩ := inside
  exact ⟨kept, blank, slash, equals, closing⟩

/-- A name has a first character. -/
theorem exists_of_isMarkupName {text : Text} (named : isMarkupName text = true) : ∃ c rest, text = c :: rest ∧
    Unicode.isAsciiLetter c = true ∧ isNameChar c = true ∧ ∀ d ∈ rest, isNameChar d = true := by
  cases text with
  | nil => simp [isMarkupName] at named
  | cons c rest =>
    simp only [isMarkupName, Bool.and_eq_true] at named
    exact ⟨c, rest, rfl, named.1.1, named.1.2, List.all_eq_true.mp named.2⟩

/-- The name of a tag is collected. -/
theorem quiet?_tagName {rest : Text} (inside : ∀ c ∈ rest, isNameChar c = true) :
    quiet? names lastStart (.tagName draft) rest =
      some (.tagName { draft with name := rest.reverse ++ draft.name }) := by
  induction rest generalizing draft with
  | nil => rfl
  | cons c rest inductionHypothesis =>
    obtain ⟨kept, blank, slash, -, closing⟩ := isNameChar_spec (inside c (by simp))
    have silent : stepState names lastStart (.tagName draft) c =
        ([], .tagName { draft with name := c :: draft.name }) := by
      simp [stepState, Lexer.tagNameStep, blank, slash, closing, kept]
    rw [quiet?_cons silent, inductionHypothesis fun d member => inside d (by simp [member])]
    simp

/-- The name of an attribute is collected. -/
theorem quiet?_attributeName {rest : Text} (inside : ∀ c ∈ rest, isNameChar c = true) :
    quiet? names lastStart (.attributeName draft name) rest = some (.attributeName draft (rest.reverse ++ name)) := by
  induction rest generalizing name with
  | nil => rfl
  | cons c rest inductionHypothesis =>
    obtain ⟨kept, blank, slash, equals, closing⟩ := isNameChar_spec (inside c (by simp))
    have silent : stepState names lastStart (.attributeName draft name) c = ([], .attributeName draft (c :: name)) := by
      simp [stepState, Lexer.attributeNameStep, blank, slash, equals, closing, kept]
    rw [quiet?_cons silent, inductionHypothesis fun d member => inside d (by simp [member])]
    simp

/-- After a name and an opening quote the lexer is inside the value. -/
theorem quiet?_opening {key : Text} (named : isMarkupName key = true) (between : Between names draft state) :
    quiet? names lastStart state (' ' :: key ++ ['=', '"']) = some (.quotedValue draft key.reverse '"' []) := by
  obtain ⟨c, rest, rfl, -, here, inside⟩ := exists_of_isMarkupName named
  obtain ⟨kept, blank, slash, -, closing⟩ := isNameChar_spec here
  have space : stepState names lastStart state ' ' = ([], .beforeAttribute draft) := between lastStart ' ' (Or.inl rfl)
  have first : stepState names lastStart (.beforeAttribute draft) c = ([], .attributeName draft [c]) := by
    simp [stepState, beforeAttributeStep, blank, slash, closing, kept]
  rw [List.cons_append, quiet?_cons space, List.cons_append, quiet?_cons first, quiet?_append,
    quiet?_attributeName inside, Option.bind_some, List.reverse_cons]
  rfl

/-! ### Attributes -/

/-- A new attribute goes to the others. -/
theorem addAttribute_of_new {key : Text} (new : key ∉ draft.attributes.map Prod.fst) :
    draft.addAttribute key.reverse value.reverse = { draft with attributes := (key, value) :: draft.attributes } := by
  have unknown : (draft.attributes.any fun known => known.1 == key) = false := by
    apply List.any_eq_false.mpr
    intro known member same
    exact new (List.mem_map.mpr ⟨known, member, beq_iff_eq.mp same⟩)
  simp [TagDraft.addAttribute, unknown]

/-- One written attribute. -/
def writtenAttribute (entry : Text × Text) : Text :=
  ' ' :: entry.1 ++ ['=', '"'] ++ entry.2 ++ ['"']

/-- A start tag consists of its name and its written attributes. -/
theorem startTag_eq (tag : Text) (attributes : List (Text × Text)) :
    startTag tag attributes = '<' :: tag ++ attributes.flatMap writtenAttribute ++ ['>'] :=
  rfl

/-- What attributes are read as: the same keys in the same order, each with what its value is read as. -/
inductive AttributesRead (names : ReferenceTable) : List (Text × Text) → List (Text × Text) → Prop where
  | nil : AttributesRead names [] []
  | cons {key written value : Text} {rest others : List (Text × Text)} (here : ValueRead names written value)
      (later : AttributesRead names rest others) :
      AttributesRead names ((key, written) :: rest) ((key, value) :: others)

/-- Attributes without double quotes in their values are read as some attributes. -/
theorem exists_attributesRead (sound : Sound names) {attributes : List (Text × Text)}
    (absent : ∀ entry ∈ attributes, '"' ∉ entry.2) : ∃ got, AttributesRead names attributes got := by
  induction attributes with
  | nil => exact ⟨[], .nil⟩
  | cons entry rest inductionHypothesis =>
    obtain ⟨got, later⟩ := inductionHypothesis fun other member => absent other (by simp [member])
    obtain ⟨value, here⟩ := exists_valueRead sound (absent entry (by simp))
    exact ⟨(entry.1, value) :: got, .cons here later⟩

/-- What is read has the written names. -/
theorem AttributesRead.keys {attributes got : List (Text × Text)} (read : AttributesRead names attributes got) :
    got.map Prod.fst = attributes.map Prod.fst := by
  induction read with
  | nil => rfl
  | cons here later inductionHypothesis => rw [List.map_cons, List.map_cons, inductionHypothesis]

/-- Every attribute is among those that are read. -/
theorem AttributesRead.lookup {attributes got : List (Text × Text)} (read : AttributesRead names attributes got)
    (distinct : (attributes.map Prod.fst).Nodup) {key written : Text} (member : (key, written) ∈ attributes) :
    ∃ value, got.lookup key = some value ∧ ValueRead names written value := by
  induction read with
  | nil => simp at member
  | @cons first firstWritten value rest others here later inductionHypothesis =>
    simp only [List.map_cons, List.nodup_cons] at distinct
    rw [Entries.lookup_cons]
    rcases List.mem_cons.mp member with same | inside
    · obtain ⟨rfl, rfl⟩ := Prod.mk.inj same
      exact ⟨value, by simp, here⟩
    · have other : key ≠ first := by
        rintro rfl
        exact distinct.1 (List.mem_map.mpr ⟨_, inside, rfl⟩)
      rw [if_neg other]
      exact inductionHypothesis distinct.2 inside

/-- Attributes are read one after the other. -/
theorem quiet?_attributes {attributes got : List (Text × Text)} (read : AttributesRead names attributes got)
    (named : ∀ entry ∈ attributes, isMarkupName entry.1 = true)
    (distinct : (attributes.map Prod.fst).Nodup)
    (new : ∀ entry ∈ attributes, entry.1 ∉ draft.attributes.map Prod.fst) (between : Between names draft state) :
    ∃ next, quiet? names lastStart state (attributes.flatMap writtenAttribute) = some next ∧
      Between names { draft with attributes := got.reverse ++ draft.attributes } next := by
  induction read generalizing draft state with
  | nil => exact ⟨state, rfl, between⟩
  | @cons key written value rest others here later inductionHypothesis =>
    simp only [List.map_cons, List.nodup_cons] at distinct
    let draft' : TagDraft := { draft with attributes := (key, value) :: draft.attributes }
    have readOne : quiet? names lastStart state (writtenAttribute (key, written)) = some (.beforeAttribute draft') := by
      rw [writtenAttribute, List.append_assoc, quiet?_append, quiet?_opening (named _ (by simp)) between,
        Option.bind_some, here, addAttribute_of_new (new _ (by simp))]
    have newLater : ∀ entry ∈ rest, entry.1 ∉ draft'.attributes.map Prod.fst := by
      intro entry member
      simp only [draft', List.map_cons, List.mem_cons, not_or]
      constructor
      · rintro rfl
        exact distinct.1 (List.mem_map.mpr ⟨entry, member, rfl⟩)
      · exact new entry (by simp [member])
    obtain ⟨next, readRest, after⟩ := @inductionHypothesis draft' (.beforeAttribute draft')
      (fun entry member => named entry (by simp [member])) distinct.2 newLater fun _ _ _ => rfl
    refine ⟨next, ?_, by simpa [draft'] using after⟩
    rw [List.flatMap_cons, quiet?_append, readOne, Option.bind_some, readRest]

/-- An attribute with normal line ends in its value. -/
def normalAttribute (entry : Text × Text) : Text × Text :=
  (entry.1, normalizeLines entry.2)

/-- A name has no line ends. -/
theorem return_not_mem_name {text : Text} (named : isMarkupName text = true) : '\r' ∉ text := by
  obtain ⟨c, rest, rfl, -, here, inside⟩ := exists_of_isMarkupName named
  intro return_
  rcases List.mem_cons.mp return_ with rfl | later
  · exact absurd here (by decide)
  · exact absurd (inside _ later) (by decide)

/-- Only the values of attributes have line ends. -/
theorem normalizeLines_attributes {attributes : List (Text × Text)}
    (named : ∀ entry ∈ attributes, isMarkupName entry.1 = true) :
    normalizeLines (attributes.flatMap writtenAttribute) =
      (attributes.map normalAttribute).flatMap writtenAttribute := by
  induction attributes with
  | nil => rfl
  | cons entry rest inductionHypothesis =>
    have one : normalizeLines (writtenAttribute entry) = writtenAttribute (normalAttribute entry) := by
      have opened : '\r' ∉ ' ' :: entry.1 ++ ['=', '"'] := by
        simp [return_not_mem_name (named entry (by simp))]
      rw [writtenAttribute, List.append_assoc, normalizeLines_append_plain opened,
        normalizeLines_append entry.2 (by simp), writtenAttribute, List.append_assoc]
      simp [normalAttribute, normalizeLines]
    have boundary : (rest.flatMap writtenAttribute).head? ≠ some '\n' := by
      cases rest with
      | nil => simp
      | cons other others => simp [writtenAttribute]
    rw [List.flatMap_cons, normalizeLines_append _ boundary, one,
      inductionHypothesis fun other member => named other (by simp [member])]
    rfl

/-- The keys stay. -/
theorem keys_normalAttribute (attributes : List (Text × Text)) :
    (attributes.map normalAttribute).map Prod.fst = attributes.map Prod.fst := by
  rw [List.map_map]
  rfl

/-- Normal line ends bring no double quotes into values. -/
theorem quote_not_mem_normalAttribute {attributes : List (Text × Text)} (absent : ∀ entry ∈ attributes, '"' ∉ entry.2) :
    ∀ entry ∈ attributes.map normalAttribute, '"' ∉ entry.2 := by
  intro entry member quote
  obtain ⟨old, listed, rfl⟩ := List.mem_map.mp member
  rcases mem_normalizeLines quote with new | inside
  · exact absurd new (by decide)
  · exact absent old listed inside

/-- A written tag gets normal line ends in its values, and what follows it on its own. -/
theorem normalizeLines_startTag {tag : Text} {attributes : List (Text × Text)} (named : isMarkupName tag = true)
    (keys : ∀ entry ∈ attributes, isMarkupName entry.1 = true) (rest : Text) :
    normalizeLines (startTag tag attributes ++ rest) =
      startTag tag (attributes.map normalAttribute) ++ normalizeLines rest := by
  have opened : '\r' ∉ '<' :: tag := by simp [return_not_mem_name named]
  have split : startTag tag attributes ++ rest = ('<' :: tag) ++ (attributes.flatMap writtenAttribute ++ '>' :: rest) := by
    simp [startTag_eq]
  rw [split, normalizeLines_append_plain opened, normalizeLines_append _ (by simp), normalizeLines_attributes keys]
  simp [startTag_eq, normalizeLines]

/-! ### The tag -/

/-- A text that completes no token is passed over. -/
theorem firstTag?_of_quiet? {next : LexState} {front : Text}
    (silent : quiet? names lastStart state front = some next) (rest : Text) :
    firstTag? names ⟨state, lastStart⟩ (front ++ rest) = firstTag? names ⟨next, lastStart⟩ rest := by
  induction front generalizing state with
  | nil =>
    obtain rfl : state = next := by simpa [quiet?] using silent
    rfl
  | cons c others inductionHypothesis =>
    rw [quiet?] at silent
    cases step : stepState names lastStart state c with
    | mk tokens after =>
      rw [step] at silent
      cases tokens with
      | nil =>
        rw [List.cons_append, firstTag?, Lexer.step, step]
        exact inductionHypothesis silent
      | cons token others => simp at silent

/-- A tag's name follows its first letter. -/
theorem quiet?_tagOpen {tag : Text} (named : isMarkupName tag = true) :
    quiet? names lastStart .tagOpen tag = some (.tagName ⟨false, tag.reverse, []⟩) := by
  obtain ⟨c, others, rfl, letter, here, inside⟩ := exists_of_isMarkupName named
  obtain ⟨kept, -⟩ := isNameChar_spec here
  have other {d : Char} (sign : Unicode.isAsciiLetter d = false) : c ≠ d := by
    rintro rfl
    simp [sign] at letter
  have first : stepState names lastStart .tagOpen c = ([], .tagName ⟨false, [c], []⟩) := by
    simp [stepState, Lexer.tagOpenStep, @other '!' (by decide), @other '/' (by decide), @other '?' (by decide), letter,
      kept]
  rw [quiet?_cons first, quiet?_tagName inside]
  simp

/-- A tag with its attributes is read without a token up to the sign that closes it. -/
theorem quiet?_startTag {tag : Text} {attributes got : List (Text × Text)} (named : isMarkupName tag = true)
    (keys : ∀ entry ∈ attributes, isMarkupName entry.1 = true) (distinct : (attributes.map Prod.fst).Nodup)
    (read : AttributesRead names attributes got) :
    ∃ next, quiet? names lastStart .tagOpen (tag ++ attributes.flatMap writtenAttribute) = some next ∧
      Between names ⟨false, tag.reverse, got.reverse⟩ next := by
  have between : Between names ⟨false, tag.reverse, []⟩ (.tagName ⟨false, tag.reverse, []⟩) := by
    rintro lastStart' d (rfl | rfl)
    · rfl
    · rfl
  obtain ⟨next, readAll, after⟩ := @quiet?_attributes names lastStart _ _ attributes got read keys distinct (by simp)
    between
  refine ⟨next, ?_, by simpa using after⟩
  rw [quiet?_append, quiet?_tagOpen named, Option.bind_some, readAll]

/-- The sign that closes a tag completes its token. -/
theorem Between.close {tag : Text} {got : List (Text × Text)} {next : LexState}
    (between : Between names ⟨false, tag.reverse, got.reverse⟩ next) (lastStart : Text) :
    stepState names lastStart next '>' = ([.startTag ⟨tag, got⟩], Lexer.dataState) := by
  rw [between lastStart '>' (Or.inr rfl)]
  simp [beforeAttributeStep, isMarkupBlank, TagDraft.token]

/-- The first tag of what starts with a written tag is that tag, with its attributes as they are read. -/
theorem firstTag?_startTag {tag : Text} {attributes got : List (Text × Text)} (named : isMarkupName tag = true)
    (keys : ∀ entry ∈ attributes, isMarkupName entry.1 = true) (distinct : (attributes.map Prod.fst).Nodup)
    (read : AttributesRead names attributes got) (rest : Text) :
    firstTag? names Lexer.initial ('<' :: (tag ++ attributes.flatMap writtenAttribute) ++ '>' :: rest) =
      some ⟨tag, got⟩ := by
  obtain ⟨next, inside, between⟩ := @quiet?_startTag names [] tag attributes got named keys distinct read
  have silent : quiet? names [] (.content .data) ('<' :: (tag ++ attributes.flatMap writtenAttribute)) = some next := by
    rw [quiet?_cons (rfl : stepState names [] (.content .data) '<' = ([], .tagOpen)), inside]
  have start : Lexer.initial = ⟨.content .data, []⟩ := rfl
  rw [start, firstTag?_of_quiet? silent, firstTag?, Lexer.step, between.close]

/-- An attribute that is written with an escaped text has a value, which is that text exactly when no reference of
the text is decoded. -/
theorem attributeValue?_startTag (sound : Sound names) {tag : Text} {attributes : List (Text × Text)}
    (named : isMarkupName tag = true) (keys : ∀ entry ∈ attributes, isMarkupName entry.1 = true)
    (distinct : (attributes.map Prod.fst).Nodup) (absent : ∀ entry ∈ attributes, '"' ∉ entry.2) {key text : Text}
    (authored : (key, Text.escape text) ∈ attributes) (clean : Char.ofNat 0 ∉ text) (ends : '\r' ∉ text)
    (rest : Text) :
    ∃ value, attributeValue? names (startTag tag attributes ++ rest) key = some value ∧
      RereadAs names text value := by
  have normal : (key, Text.escape text) ∈ attributes.map normalAttribute := by
    have absentEnds : '\r' ∉ Text.escape text := by
      intro member
      rcases Text.mem_escape member with ampersand | ⟨-, inside | reference⟩
      · exact absurd ampersand (by decide)
      · exact ends inside
      · exact absurd reference (by decide)
    exact List.mem_map.mpr ⟨_, authored, by rw [normalAttribute, normalizeLines_eq_self absentEnds]⟩
  have keys' : ∀ entry ∈ attributes.map normalAttribute, isMarkupName entry.1 = true := by
    intro entry member
    obtain ⟨old, listed, rfl⟩ := List.mem_map.mp member
    exact keys old listed
  have sameKeys := keys_normalAttribute attributes
  obtain ⟨got, read⟩ := exists_attributesRead sound (quote_not_mem_normalAttribute absent)
  obtain ⟨value, found, valueRead⟩ := read.lookup (sameKeys ▸ distinct) normal
  obtain ⟨other, otherRead, reread⟩ := exists_valueRead_escape sound clean
  obtain rfl : other = value := valueRead_unique otherRead valueRead
  refine ⟨other, ?_, reread⟩
  have markup : normalizeLines (withoutMark (startTag tag attributes ++ rest)) =
      '<' :: (tag ++ (attributes.map normalAttribute).flatMap writtenAttribute) ++ '>' :: normalizeLines rest := by
    have unmarked : withoutMark (startTag tag attributes ++ rest) = startTag tag attributes ++ rest := rfl
    rw [unmarked, normalizeLines_startTag named keys, startTag_eq]
    simp
  rw [attributeValue?, markup, firstTag?_startTag named keys' (sameKeys ▸ distinct) read]
  exact found

end
end MapEmbed.Html
