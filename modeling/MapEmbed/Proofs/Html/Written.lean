import MapEmbed.Html.Sanitizer
import MapEmbed.Proofs.Html.Tokens

/-!
# Clean markup as written tokens

Clean markup is a row of tags and characters, each written on its own. What is read of it is the same row, but for
what a reader of markup makes of any text: line ends become line feeds, a byte order mark in front is dropped, and NUL
characters are no text.
-/

namespace MapEmbed.Html

/-- The markup of a token; references are written for reserved characters. -/
def Token.write : Token → Text
  | .startTag tag => Html.startTag tag.name (tag.attributes.map fun entry => (entry.1, Text.encode entry.2))
  | .endTag name => Html.endTag name
  | .char c => Text.encode [c]
  | .nul => []
  | .comment _ => []
  | .fault => []

/-- The markup of tokens in a row. -/
def writeTokens (given : List Token) : Text :=
  given.flatMap Token.write

/-- The attributes that an element keeps, sorted. -/
def keptEntries (own : List Text) (attributes : List (Text × Text)) : List (Text × Text) :=
  sortByName (attributes.filter fun entry => allowsAttribute own entry.1 && isSafeValue entry.1 entry.2)

mutual

/-- The tokens that clean markup consists of: those of a node. -/
def emittedNode : Node → List Token
  | .text content => content.map .char
  | .comment _ => []
  | .element name attributes children =>
    if droppedElements.contains name then []
    else match ownAttributes? name with
      | none => emittedNodes children
      | some own =>
        let opened := Token.startTag ⟨name, keptEntries own attributes⟩
        if voidElements.contains name then [opened] else opened :: emittedNodes children ++ [.endTag name]

/-- The tokens of nodes in a row. -/
def emittedNodes : List Node → List Token
  | [] => []
  | node :: rest => emittedNode node ++ emittedNodes rest

end

/-- A token whose markup can be told from all else: names are written as names are, and none occurs twice in a tag. -/
def Token.Writable : Token → Prop
  | .startTag tag => isMarkupName tag.name = true ∧ (∀ entry ∈ tag.attributes, isMarkupName entry.1 = true) ∧
    (tag.attributes.map Prod.fst).Nodup
  | .endTag name => isMarkupName name = true
  | .char _ => True
  | .nul => False
  | .comment _ => False
  | .fault => False

/-- A written token as it is read: a NUL character is no text, and in a value it becomes the replacement character. -/
def Token.reread : Token → Token
  | .startTag tag => .startTag ⟨tag.name, tag.attributes.map fun entry => (entry.1, entry.2.map withoutNul)⟩
  | .char c => charToken c
  | token => token

/-- A token with line feeds for its line ends. -/
def Token.normal : Token → Token
  | .startTag tag => .startTag ⟨tag.name, tag.attributes.map normalAttribute⟩
  | .char c => .char (if c = '\r' then '\n' else c)
  | token => token

/-- Tokens with line feeds for their line ends. -/
def normalTokens : List Token → List Token
  | [] => []
  | token :: rest =>
    if token = .char '\r' ∧ rest.head? = some (.char '\n') then normalTokens rest
    else token.normal :: normalTokens rest

/-- Tokens without a byte order mark in front. -/
def withoutMarkToken : List Token → List Token
  | [] => []
  | token :: rest => if token = .char (Char.ofNat 0xFEFF) then rest else token :: rest

section
variable {names : ReferenceTable} {given rest : List Token} {token : Token}

/-! ### Clean markup -/

/-- The markup of tokens in a row is that of the first and that of the others. -/
theorem writeTokens_append (front back : List Token) :
    writeTokens (front ++ back) = writeTokens front ++ writeTokens back :=
  List.flatMap_append

/-- The first token is written first. -/
theorem writeTokens_cons (token : Token) (rest : List Token) :
    writeTokens (token :: rest) = token.write ++ writeTokens rest :=
  List.flatMap_cons

/-- Characters are written as an encoded text. -/
theorem writeTokens_chars (text : Text) : writeTokens (text.map .char) = Text.encode text := by
  induction text with
  | nil => rfl
  | cons c rest inductionHypothesis =>
    rw [List.map_cons, writeTokens_cons, inductionHypothesis, ← List.singleton_append, Text.encode_append]
    rfl

/-- The kept attributes are written encoded. -/
theorem keptAttributes_eq (own : List Text) (attributes : List (Text × Text)) :
    keptAttributes own attributes = (keptEntries own attributes).map fun entry => (entry.1, Text.encode entry.2) :=
  rfl

mutual

/-- The clean markup of a node is that of its tokens. -/
theorem writeTokens_emittedNode : ∀ node, writeTokens (emittedNode node) = cleanNode node
  | .text content => by
    rw [emittedNode, cleanNode, writeTokens_chars]
  | .comment content => by
    rw [emittedNode, cleanNode]
    rfl
  | .element name attributes children => by
    rw [emittedNode, cleanNode]
    split
    · rfl
    · cases ownAttributes? name with
      | none => exact writeTokens_emittedNodes children
      | some own =>
        simp only [keptAttributes_eq]
        split
        · simp [writeTokens, Token.write]
        · rw [List.cons_append, writeTokens_cons, writeTokens_append, writeTokens_emittedNodes children,
            ← List.append_assoc]
          simp [writeTokens, Token.write]

/-- The clean markup of nodes in a row is that of their tokens. -/
theorem writeTokens_emittedNodes : ∀ nodes, writeTokens (emittedNodes nodes) = cleanNodes nodes
  | [] => by
    rw [emittedNodes, cleanNodes]
    rfl
  | node :: rest => by
    rw [emittedNodes, cleanNodes, writeTokens_append, writeTokens_emittedNode node, writeTokens_emittedNodes rest]

end

/-! ### Reading one token -/

/-- An encoded text is read inside quotes as the text. -/
theorem read_encode (sound : Sound names) (text : Text) {lastStart : Text} {draft : TagDraft} {name value : Text}
    {state : LexState} (reads : Reads names draft name value state) :
    ∃ next, quiet? names lastStart state (Text.encode text) = some next ∧
      Reads names draft name ((text.map withoutNul).reverse ++ value) next := by
  induction text generalizing value state with
  | nil => exact ⟨state, rfl, reads⟩
  | cons c rest inductionHypothesis =>
    have later {value : Text} {state : LexState} (reads : Reads names draft name value state) :=
      inductionHypothesis reads
    rw [Text.encode, List.map_cons, ← List.singleton_append (l := rest.map withoutNul)]
    cases reserved : Text.reserved? c with
    | none =>
      have quote : c ≠ '"' := by
        rintro rfl
        simp [Text.reserved?] at reserved
      have ampersand : c ≠ '&' := by
        rintro rfl
        simp [Text.reserved?] at reserved
      refine read_then reads ⟨.quotedValue draft name '"' (withoutNul c :: value), ?_, reads_quotedValue⟩ later
      simp [quiet?, Lexer.stepState, Lexer.quotedValueStep, quote, ampersand]
    | some reference =>
      obtain ⟨word, -, rfl⟩ := Text.exists_of_reserved? reserved
      obtain ⟨decodes, meaning⟩ := decodes_reserved sound reserved
      have other : c.toNat ≠ 0 := by
        intro zero
        obtain rfl : c = Char.ofNat 0 := by rw [← zero, Char.ofNat_toNat]
        have plain : Text.reserved? (Char.ofNat 0) = none := by decide
        simp [plain] at reserved
      have kept : withoutNul c = c := by simp [withoutNul, other]
      refine read_then reads ?_ later
      rw [kept, ← meaning]
      exact read_decodes sound decodes

/-- An encoded value is read as the text, its NUL characters replaced. -/
theorem valueRead_encode (sound : Sound names) (text : Text) :
    ValueRead names (Text.encode text) (text.map withoutNul) := by
  intro lastStart draft name
  obtain ⟨next, readText, reads⟩ := @read_encode names sound text lastStart draft name [] _ reads_quotedValue
  rw [quiet?_append, readText, Option.bind_some, quiet?, reads lastStart '"']
  simp [Lexer.quotedValueStep, quiet?]

/-- A written token is read as that token. -/
theorem yields_write (sound : Sound names) (writable : token.Writable) : Yields names token.write [token.reread] := by
  cases token with
  | startTag tag =>
    obtain ⟨named, keys, distinct⟩ := writable
    have sameKeys : (tag.attributes.map fun entry => (entry.1, Text.encode entry.2)).map Prod.fst =
        tag.attributes.map Prod.fst := by
      rw [List.map_map]
      rfl
    have read : AttributesRead names (tag.attributes.map fun entry => (entry.1, Text.encode entry.2))
        (tag.attributes.map fun entry => (entry.1, entry.2.map withoutNul)) := by
      generalize tag.attributes = attributes
      induction attributes with
      | nil => exact .nil
      | cons entry rest inductionHypothesis => exact .cons (valueRead_encode sound entry.2) inductionHypothesis
    refine (closes_startTag named ?_ (sameKeys ▸ distinct) read).yields
    intro entry member
    obtain ⟨old, listed, rfl⟩ := List.mem_map.mp member
    exact keys old listed
  | endTag name => exact (closes_endTag writable).yields
  | char c => exact yields_encode_char sound c
  | nul => exact absurd writable id
  | comment content => exact absurd writable id
  | fault => exact absurd writable id

/-- Written tokens are read as those tokens. -/
theorem yields_writeTokens (sound : Sound names) (writable : ∀ token ∈ given, token.Writable) :
    Yields names (writeTokens given) (given.map Token.reread) := by
  induction given with
  | nil => exact yields_nil
  | cons token rest inductionHypothesis =>
    rw [writeTokens_cons, List.map_cons, ← List.singleton_append]
    exact (yields_write sound (writable token (by simp))).append
      (inductionHypothesis fun other member => writable other (by simp [member]))

/-! ### Line ends and the byte order mark -/

/-- No reference holds a line end. -/
theorem return_not_mem_reserved {c : Char} {reference : Text} (reserved : Text.reserved? c = some reference) :
    '\r' ∉ reference := by
  obtain ⟨word, complete, rfl⟩ := Text.exists_of_reserved? reserved
  rw [List.mem_cons, not_or]
  refine ⟨by decide, fun member => ?_⟩
  exact absurd (complete.isReferenceChar _ member) (by decide)

/-- A carriage return before a line feed goes, any other becomes one. -/
theorem normalizeLines_cons (c : Char) (rest : Text) : normalizeLines (c :: rest) =
    if c = '\r' ∧ rest.head? = some '\n' then normalizeLines rest
    else (if c = '\r' then '\n' else c) :: normalizeLines rest := by
  by_cases return_ : c = '\r'
  · subst return_
    cases rest with
    | nil => rfl
    | cons d others =>
      by_cases feed : d = '\n'
      · subst feed
        simp [normalizeLines]
      · have unpaired : ∀ left, d :: others = '\n' :: left → False := fun left same => feed (List.cons.inj same).1
        rw [normalizeLines.eq_3 _ unpaired]
        simp [feed]
  · rw [normalizeLines.eq_4 c rest (fun _ same _ => return_ same) return_]
    simp [return_]

/-- A text starts with a line feed exactly if its encoding does. -/
theorem head?_encode_eq_feed (text : Text) : (Text.encode text).head? = some '\n' ↔ text.head? = some '\n' := by
  cases text with
  | nil => rfl
  | cons c rest =>
    rw [Text.encode]
    cases reserved : Text.reserved? c with
    | none => simp
    | some reference =>
      obtain ⟨word, -, rfl⟩ := Text.exists_of_reserved? reserved
      have other : c ≠ '\n' := by
        rintro rfl
        simp [Text.reserved?] at reserved
      simp [other]

/-- Line ends are the same before and after encoding. -/
theorem normalizeLines_encode (text : Text) : normalizeLines (Text.encode text) = Text.encode (normalizeLines text) := by
  induction text with
  | nil => rfl
  | cons c rest inductionHypothesis =>
    rw [Text.encode, normalizeLines_cons c rest]
    cases reserved : Text.reserved? c with
    | none =>
      rw [Option.getD_none, List.singleton_append, normalizeLines_cons, inductionHypothesis]
      simp only [head?_encode_eq_feed]
      by_cases return_ : c = '\r'
      · subst return_
        split
        · rfl
        · simp [Text.encode, Text.reserved?]
      · simp [return_, Text.encode, reserved]
    | some reference =>
      have other : c ≠ '\r' := by
        rintro rfl
        simp [Text.reserved?] at reserved
      rw [Option.getD_some, normalizeLines_append_plain (return_not_mem_reserved reserved), inductionHypothesis]
      simp [other, Text.encode, reserved]

/-- A text of tokens that can be written starts with a line feed only if the first of them is one. -/
theorem head?_writeTokens_eq_feed (writable : ∀ token ∈ given, token.Writable) :
    (writeTokens given).head? = some '\n' ↔ given.head? = some (.char '\n') := by
  cases given with
  | nil => simp [writeTokens]
  | cons token rest =>
    have here := writable token List.mem_cons_self
    rw [writeTokens_cons]
    cases token with
    | startTag tag => simp [Token.write, startTag]
    | endTag name => simp [Token.write, endTag]
    | char c =>
      cases reserved : Text.reserved? c with
      | none => simp [Token.write, Text.encode, reserved]
      | some reference =>
        obtain ⟨word, -, rfl⟩ := Text.exists_of_reserved? reserved
        have other : c ≠ '\n' := by
          rintro rfl
          simp [Text.reserved?] at reserved
        simp [Token.write, Text.encode, reserved, other]
    | nul => exact absurd here id
    | comment content => exact absurd here id
    | fault => exact absurd here id

/-- A start tag is written with its attributes encoded, and gets normal line ends in its values. -/
theorem normalizeLines_write_startTag {tag : Tag} (writable : (Token.startTag tag).Writable) (back : Text) :
    normalizeLines ((Token.startTag tag).write ++ back) =
      (Token.startTag tag).normal.write ++ normalizeLines back := by
  obtain ⟨named, keys, -⟩ := writable
  have keys' : ∀ entry ∈ tag.attributes.map fun entry => (entry.1, Text.encode entry.2),
      isMarkupName entry.1 = true := by
    intro entry member
    obtain ⟨old, listed, rfl⟩ := List.mem_map.mp member
    exact keys old listed
  rw [Token.write, normalizeLines_startTag named keys', Token.normal, Token.write, List.map_map, List.map_map]
  simp only [Function.comp_def, normalAttribute, normalizeLines_encode]

/-- Line ends are the same before and after writing. -/
theorem normalizeLines_writeTokens (writable : ∀ token ∈ given, token.Writable) :
    normalizeLines (writeTokens given) = writeTokens (normalTokens given) := by
  induction given with
  | nil => rfl
  | cons token rest inductionHypothesis =>
    have writable' : ∀ token ∈ rest, token.Writable := fun other member => writable other (by simp [member])
    have here := writable token List.mem_cons_self
    have later := inductionHypothesis writable'
    rw [writeTokens_cons, normalTokens]
    cases token with
    | startTag tag =>
      rw [if_neg (by simp), writeTokens_cons, normalizeLines_write_startTag here, later]
    | endTag name =>
      have absent : '\r' ∉ (Token.endTag name).write := by
        simp [Token.write, endTag, return_not_mem_name here]
      rw [if_neg (by simp), writeTokens_cons, normalizeLines_append_plain absent, later]
      rfl
    | char c =>
      cases reserved : Text.reserved? c with
      | none =>
        have written : (Token.char c).write = [c] := by simp [Token.write, Text.encode, reserved]
        rw [written, List.singleton_append, normalizeLines_cons]
        simp only [head?_writeTokens_eq_feed writable', Token.char.injEq]
        split
        · exact later
        · rw [writeTokens_cons, later]
          by_cases return_ : c = '\r'
          · simp [return_, Token.normal, Token.write, Text.encode, Text.reserved?]
          · simp [return_, Token.normal, written]
      | some reference =>
        have other : c ≠ '\r' := by
          rintro rfl
          simp [Text.reserved?] at reserved
        have written : (Token.char c).write = reference := by simp [Token.write, Text.encode, reserved]
        rw [written, normalizeLines_append_plain (return_not_mem_reserved reserved), if_neg (by simp [other]),
          writeTokens_cons, later]
        simp [Token.normal, other, written]
    | nul => exact absurd here id
    | comment content => exact absurd here id
    | fault => exact absurd here id

/-- A byte order mark in front is the first token. -/
theorem withoutMark_writeTokens (writable : ∀ token ∈ given, token.Writable) :
    withoutMark (writeTokens given) = writeTokens (withoutMarkToken given) := by
  cases given with
  | nil => rfl
  | cons token rest =>
    have here := writable token List.mem_cons_self
    rw [withoutMarkToken, writeTokens_cons]
    cases token with
    | startTag tag =>
      rw [if_neg (by simp), writeTokens_cons]
      rfl
    | endTag name =>
      rw [if_neg (by simp), writeTokens_cons]
      rfl
    | char c =>
      cases reserved : Text.reserved? c with
      | none =>
        have written : (Token.char c).write = [c] := by simp [Token.write, Text.encode, reserved]
        have same : c.toNat = 0xFEFF ↔ c = Char.ofNat 0xFEFF := by
          constructor
          · intro number
            rw [← Char.ofNat_toNat c, number]
          · rintro rfl
            rfl
        rw [written, List.singleton_append, withoutMark]
        simp only [Token.char.injEq, same]
        split
        · rfl
        · rw [writeTokens_cons, written, List.singleton_append]
      | some reference =>
        obtain ⟨word, -, rfl⟩ := Text.exists_of_reserved? reserved
        have other : c ≠ Char.ofNat 0xFEFF := by
          rintro rfl
          have plain : Text.reserved? (Char.ofNat 0xFEFF) = none := by decide
          simp [plain] at reserved
        have written : (Token.char c).write = '&' :: word := by simp [Token.write, Text.encode, reserved]
        rw [if_neg (by simp [other]), writeTokens_cons, written]
        rfl
    | nul => exact absurd here id
    | comment content => exact absurd here id
    | fault => exact absurd here id

/-- A token can still be written when its line ends are normal. -/
theorem Token.Writable.normal (writable : token.Writable) : token.normal.Writable := by
  cases token with
  | startTag tag =>
    obtain ⟨named, keys, distinct⟩ := writable
    refine ⟨named, ?_, (keys_normalAttribute tag.attributes).symm ▸ distinct⟩
    intro entry member
    obtain ⟨old, listed, rfl⟩ := List.mem_map.mp member
    exact keys old listed
  | char c => exact trivial
  | _ => exact writable

/-- Every normal token comes from a token. -/
theorem exists_of_mem_normalTokens (member : token ∈ normalTokens given) : ∃ old ∈ given, token = old.normal := by
  induction given with
  | nil => simp [normalTokens] at member
  | cons first rest inductionHypothesis =>
    rw [normalTokens] at member
    split at member
    · obtain ⟨old, listed, same⟩ := inductionHypothesis member
      exact ⟨old, by simp [listed], same⟩
    · rcases List.mem_cons.mp member with rfl | later
      · exact ⟨first, by simp, rfl⟩
      · obtain ⟨old, listed, same⟩ := inductionHypothesis later
        exact ⟨old, by simp [listed], same⟩

/-- Without a byte order mark there are no other tokens. -/
theorem mem_of_mem_withoutMarkToken (member : token ∈ withoutMarkToken given) : token ∈ given := by
  cases given with
  | nil => exact member
  | cons first rest =>
    rw [withoutMarkToken] at member
    split at member
    · exact List.mem_cons_of_mem _ member
    · exact member

/-- Written tokens are read as they are, but for what a reader makes of any text. -/
theorem tokens_writeTokens (sound : Sound names) (writable : ∀ token ∈ given, token.Writable) :
    tokens names (writeTokens given) = (normalTokens (withoutMarkToken given)).map Token.reread := by
  have unmarked : ∀ token ∈ withoutMarkToken given, token.Writable :=
    fun token member => writable token (mem_of_mem_withoutMarkToken member)
  apply Yields.tokens_eq
  rw [withoutMark_writeTokens writable, normalizeLines_writeTokens unmarked]
  apply yields_writeTokens sound
  intro token member
  obtain ⟨old, listed, rfl⟩ := exists_of_mem_normalTokens member
  exact (unmarked old listed).normal

end
end MapEmbed.Html
