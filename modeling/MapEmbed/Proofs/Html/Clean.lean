import MapEmbed.Proofs.Html.Lexing
import MapEmbed.Proofs.Html.Written

/-!
# Clean markup is allowed markup

What is written for nodes is read as texts and allowed elements, properly nested, whatever the nodes are: nothing that
an author wrote ends a tag or a value, or opens a tag, once it is encoded. So clean markup never closes an element
around it.
-/

namespace MapEmbed.Html

/-- An attribute that an element may have: one of its own, one that all have, or one that carries data. -/
def AllowedAttribute (own : List Text) (name : Text) : Prop :=
  name ∈ own ∨ name ∈ globalAttributes ∨ ∃ rest, rest ≠ [] ∧ name = dataStart ++ rest

/-- A tag that authors may write: of an allowed element, with attributes that it may have, and without addresses that
run code. -/
structure AllowedTag (tag : Tag) : Prop where
  element : ∃ own, (tag.name, own) ∈ allowedElements ∧ ∀ entry ∈ tag.attributes, AllowedAttribute own entry.1
  addresses : ∀ entry ∈ tag.attributes, entry.1 ∈ addressAttributes →
    ∀ scheme ∈ unsafeSchemes, ¬scheme <+: bareAddress entry.2

/-- Texts and allowed elements in a row. An element has its end tag behind its content, unless it is void. -/
inductive AllowedMarkup : List Token → Prop where
  | nil : AllowedMarkup []
  | char (c : Char) {rest : List Token} (later : AllowedMarkup rest) : AllowedMarkup (.char c :: rest)
  | nul {rest : List Token} (later : AllowedMarkup rest) : AllowedMarkup (.nul :: rest)
  | void {tag : Tag} {rest : List Token} (allowed : AllowedTag tag) (bare : tag.name ∈ voidElements)
      (later : AllowedMarkup rest) : AllowedMarkup (.startTag tag :: rest)
  | element {tag : Tag} {inside rest : List Token} (allowed : AllowedTag tag) (full : tag.name ∉ voidElements)
      (content : AllowedMarkup inside) (later : AllowedMarkup rest) :
      AllowedMarkup (.startTag tag :: (inside ++ .endTag tag.name :: rest))

/-- A start tag to which an end tag belongs. -/
def Token.isOpening : Token → Bool
  | .startTag tag => !voidElements.contains tag.name
  | _ => false

/-- An end tag. -/
def Token.isClosing : Token → Bool
  | .endTag _ => true
  | _ => false

/-- A node as any markup gives it: the attributes of each of its elements are named as tags name them. -/
def Node.Named (node : Node) : Prop :=
  node.MadeOf (LegalAttributes fun _ => True) fun _ => True

section
variable {names : ReferenceTable} {given : List Token} {tag : Tag}

/-! ### Allowed markup -/

/-- Allowed markup in a row. -/
theorem AllowedMarkup.append {front back : List Token} (first : AllowedMarkup front) (second : AllowedMarkup back) :
    AllowedMarkup (front ++ back) := by
  induction first with
  | nil => exact second
  | char c later inductionHypothesis => exact .char c inductionHypothesis
  | nul later inductionHypothesis => exact .nul inductionHypothesis
  | void allowed bare later inductionHypothesis => exact .void allowed bare inductionHypothesis
  | element allowed full content later insideHypothesis inductionHypothesis =>
    rw [List.cons_append, List.append_assoc, List.cons_append]
    exact .element allowed full content inductionHypothesis

/-- No part of allowed markup from its start on closes more elements than it opens, and the whole closes all. -/
theorem AllowedMarkup.balanced (allowed : AllowedMarkup given) :
    given.countP Token.isClosing = given.countP Token.isOpening ∧
      ∀ front, front <+: given → front.countP Token.isClosing ≤ front.countP Token.isOpening := by
  -- a token that neither opens nor closes an element changes nothing
  have leaf {token : Token} {rest : List Token} (closing : token.isClosing = false) (opening : token.isOpening = false)
      (later : rest.countP Token.isClosing = rest.countP Token.isOpening ∧
        ∀ front, front <+: rest → front.countP Token.isClosing ≤ front.countP Token.isOpening) :
      (token :: rest).countP Token.isClosing = (token :: rest).countP Token.isOpening ∧
        ∀ front, front <+: token :: rest → front.countP Token.isClosing ≤ front.countP Token.isOpening := by
    refine ⟨by simp [closing, opening, later.1], ?_⟩
    intro front starts
    cases front with
    | nil => simp
    | cons first others =>
      obtain ⟨rfl, inside⟩ := List.cons_prefix_cons.mp starts
      simpa [closing, opening] using later.2 others inside
  induction allowed with
  | nil =>
    refine ⟨rfl, ?_⟩
    intro front starts
    simp [List.prefix_nil.mp starts]
  | char c later inductionHypothesis => exact leaf rfl rfl inductionHypothesis
  | nul later inductionHypothesis => exact leaf rfl rfl inductionHypothesis
  | void allowed bare later inductionHypothesis =>
    exact leaf rfl (by simpa [Token.isOpening] using bare) inductionHypothesis
  | @element tag inside rest allowed full content later insideHypothesis inductionHypothesis =>
    have opening : (Token.startTag tag).isOpening = true := by simpa [Token.isOpening] using full
    have closing : (Token.startTag tag).isClosing = false := rfl
    have ending : (Token.endTag tag.name).isClosing = true ∧ (Token.endTag tag.name).isOpening = false := ⟨rfl, rfl⟩
    constructor
    · simp only [List.countP_cons, List.countP_append, opening, closing, ending, insideHypothesis.1,
        inductionHypothesis.1]
      simp +arith
    · intro front starts
      cases front with
      | nil => simp
      | cons first others =>
        obtain ⟨rfl, back, split⟩ := List.cons_prefix_cons.mp starts
        have opened : (Token.startTag tag :: others).countP Token.isClosing ≤ others.countP Token.isClosing ∧
            others.countP Token.isOpening + 1 ≤ (Token.startTag tag :: others).countP Token.isOpening := by
          simp [closing, opening]
        rcases List.append_eq_append_iff.mp split with ⟨beyond, within, -⟩ | ⟨inner, past, right⟩
        · have count := insideHypothesis.2 others ⟨beyond, within.symm⟩
          omega
        · cases inner with
          | nil =>
            have count := insideHypothesis.1
            rw [past, List.append_nil] at opened ⊢
            omega
          | cons last behind =>
            obtain ⟨rfl, split⟩ := List.cons.inj right
            have count := inductionHypothesis.2 behind ⟨back, split.symm⟩
            have whole := insideHypothesis.1
            simp only [past, List.countP_cons, List.countP_append, ending, opening, closing]
            simp +arith only [whole]
            simpa using count

/-- Values may be changed as long as no address gets an unsafe scheme. -/
theorem AllowedTag.mapValues (allowed : AllowedTag tag) {change : Text → Text}
    (keeps : ∀ value, ∀ scheme ∈ unsafeSchemes, scheme <+: bareAddress (change value) → scheme <+: bareAddress value) :
    AllowedTag ⟨tag.name, tag.attributes.map fun entry => (entry.1, change entry.2)⟩ := by
  obtain ⟨own, listed, attributes⟩ := allowed.element
  refine ⟨⟨own, listed, ?_⟩, ?_⟩
  · intro entry member
    obtain ⟨old, known, rfl⟩ := List.mem_map.mp member
    exact attributes old known
  · intro entry member address scheme listedScheme starts
    obtain ⟨old, known, rfl⟩ := List.mem_map.mp member
    exact allowed.addresses old known address scheme listedScheme (keeps old.2 scheme listedScheme starts)

/-- A careless reader sees the first character, or passes over it. -/
theorem bareAddress_cons (c : Char) (rest : Text) : bareAddress (c :: rest) =
    if !Unicode.isBlank c && !Unicode.isControl c then Unicode.asciiLower c :: bareAddress rest
    else bareAddress rest := by
  rw [bareAddress, List.filter_cons]
  split
  · rfl
  · rfl

/-- Line ends are no part of what a careless reader sees of an address. -/
theorem bareAddress_normalizeLines (value : Text) : bareAddress (normalizeLines value) = bareAddress value := by
  induction value with
  | nil => rfl
  | cons c rest inductionHypothesis =>
    rw [normalizeLines_cons]
    by_cases return_ : c = '\r'
    · subst return_
      have passed (text : Text) : bareAddress ('\r' :: text) = bareAddress text ∧
          bareAddress ('\n' :: text) = bareAddress text := by
        rw [bareAddress_cons, bareAddress_cons]
        exact ⟨if_neg (by decide), if_neg (by decide)⟩
      rw [(passed rest).1, ← inductionHypothesis]
      simp only [true_and, if_true]
      split
      · rfl
      · exact (passed _).2
    · simp [return_, bareAddress_cons, inductionHypothesis]

/-- A replacement character is no part of a scheme. -/
theorem prefix_bareAddress_withoutNul {scheme : Text} (absent : replacementChar ∉ scheme) (value : Text)
    (starts : scheme <+: bareAddress (value.map withoutNul)) : scheme <+: bareAddress value := by
  induction value generalizing scheme with
  | nil => exact starts
  | cons c rest inductionHypothesis =>
    cases scheme with
    | nil => exact List.nil_prefix
    | cons d others =>
      rw [List.mem_cons, not_or] at absent
      rw [List.map_cons, bareAddress_cons] at starts
      by_cases nul : c.toNat = 0
      · have replaced : withoutNul c = replacementChar := by simp [withoutNul, nul]
        have seen : (!Unicode.isBlank replacementChar && !Unicode.isControl replacementChar) = true := by decide
        have kept : Unicode.asciiLower replacementChar = replacementChar := by decide
        rw [replaced, seen, if_pos rfl, kept] at starts
        exact absurd (List.cons_prefix_cons.mp starts).1.symm absent.1
      · have same : withoutNul c = c := by simp [withoutNul, nul]
        rw [same] at starts
        rw [bareAddress_cons]
        split at starts
        · rename_i seen
          obtain ⟨first, later⟩ := List.cons_prefix_cons.mp starts
          rw [if_pos seen]
          exact List.cons_prefix_cons.mpr ⟨first, inductionHypothesis absent.2 later⟩
        · rename_i passed
          rw [if_neg passed]
          exact inductionHypothesis (List.not_mem_cons_of_ne_of_not_mem absent.1 absent.2) starts

/-- A tag may have normal line ends in its values. -/
theorem AllowedTag.normal (allowed : AllowedTag tag) : AllowedTag ⟨tag.name, tag.attributes.map normalAttribute⟩ :=
  allowed.mapValues fun value _ _ starts => bareAddress_normalizeLines value ▸ starts

/-- A tag may have replacement characters in its values. -/
theorem AllowedTag.reread (allowed : AllowedTag tag) :
    AllowedTag ⟨tag.name, tag.attributes.map fun entry => (entry.1, entry.2.map withoutNul)⟩ := by
  apply allowed.mapValues
  intro value scheme listedScheme starts
  have absent : (unsafeSchemes.all fun scheme => !scheme.contains replacementChar) = true := by decide
  exact prefix_bareAddress_withoutNul (by simpa using List.all_eq_true.mp absent scheme listedScheme) value starts

/-- Line ends become normal on both sides of a token that is no line feed. -/
theorem normalTokens_append (front : List Token) {back : List Token} (whole : back.head? ≠ some (.char '\n')) :
    normalTokens (front ++ back) = normalTokens front ++ normalTokens back := by
  induction front with
  | nil => rfl
  | cons token rest inductionHypothesis =>
    have head : token = .char '\r' ∧ (rest ++ back).head? = some (.char '\n') ↔
        token = .char '\r' ∧ rest.head? = some (.char '\n') := by
      cases rest with
      | nil => simp [whole]
      | cons first others => simp
    rw [List.cons_append, normalTokens, normalTokens, inductionHypothesis]
    simp only [head]
    split
    · rfl
    · rfl

/-- Line ends may be normal. -/
theorem AllowedMarkup.normalTokens (allowed : AllowedMarkup given) : AllowedMarkup (normalTokens given) := by
  induction allowed with
  | nil => exact .nil
  | char c later inductionHypothesis =>
    rw [Html.normalTokens]
    split
    · exact inductionHypothesis
    · exact .char _ inductionHypothesis
  | nul later inductionHypothesis =>
    rw [Html.normalTokens, if_neg (by simp)]
    exact .nul inductionHypothesis
  | void allowed bare later inductionHypothesis =>
    rw [Html.normalTokens, if_neg (by simp)]
    exact .void allowed.normal bare inductionHypothesis
  | element allowed full content later insideHypothesis inductionHypothesis =>
    rw [Html.normalTokens, if_neg (by simp), normalTokens_append _ (by simp), Html.normalTokens, if_neg (by simp)]
    exact .element allowed.normal full insideHypothesis inductionHypothesis

/-- A byte order mark may be missing. -/
theorem AllowedMarkup.withoutMarkToken (allowed : AllowedMarkup given) : AllowedMarkup (withoutMarkToken given) := by
  cases allowed with
  | nil => exact .nil
  | char c later =>
    rw [Html.withoutMarkToken]
    split
    · exact later
    · exact .char c later
  | nul later => exact .nul later
  | void allowed bare later => exact .void allowed bare later
  | element allowed full content later => exact .element allowed full content later

/-- Characters may be missing or replaced. -/
theorem AllowedMarkup.reread (allowed : AllowedMarkup given) : AllowedMarkup (given.map Token.reread) := by
  induction allowed with
  | nil => exact .nil
  | char c later inductionHypothesis =>
    rw [List.map_cons, Token.reread, charToken]
    split
    · exact .nul inductionHypothesis
    · exact .char c inductionHypothesis
  | nul later inductionHypothesis => exact .nul inductionHypothesis
  | void allowed bare later inductionHypothesis => exact .void allowed.reread bare inductionHypothesis
  | element allowed full content later insideHypothesis inductionHypothesis =>
    rw [List.map_cons, List.map_append, List.map_cons]
    exact .element allowed.reread full insideHypothesis inductionHypothesis

/-! ### What is written for nodes -/

/-- Sorting by name only changes the order. -/
theorem sortByName_perm (attributes : List (Text × Text)) : (sortByName attributes).Perm attributes := by
  have inserted (entry : Text × Text) (sorted : List (Text × Text)) :
      (insertByName entry sorted).Perm (entry :: sorted) := by
    induction sorted with
    | nil => exact List.Perm.refl _
    | cons first rest inductionHypothesis =>
      rw [insertByName]
      split
      · exact List.Perm.refl _
      · exact (inductionHypothesis.cons first).trans (List.Perm.swap entry first rest)
  induction attributes with
  | nil => exact List.Perm.refl _
  | cons entry rest inductionHypothesis =>
    exact (inserted entry (sortByName rest)).trans (inductionHypothesis.cons entry)

/-- The kept attributes are attributes that may be kept. -/
theorem mem_keptEntries {own : List Text} {attributes : List (Text × Text)} {entry : Text × Text} :
    entry ∈ keptEntries own attributes ↔
      entry ∈ attributes ∧ allowsAttribute own entry.1 = true ∧ isSafeValue entry.1 entry.2 = true := by
  rw [keptEntries, (sortByName_perm _).mem_iff, List.mem_filter, Bool.and_eq_true]

/-- An attribute that is allowed is one that the element may have. -/
theorem allowsAttribute_iff {own : List Text} {name : Text} :
    allowsAttribute own name = true ↔ AllowedAttribute own name := by
  simp only [allowsAttribute, Bool.or_eq_true, Bool.and_eq_true, List.contains_iff_mem, List.isPrefixOf_iff_prefix,
    decide_eq_true_eq, AllowedAttribute, or_assoc]
  have data : dataStart <+: name ∧ dataStart.length < name.length ↔ ∃ rest, rest ≠ [] ∧ name = dataStart ++ rest := by
    constructor
    · rintro ⟨⟨rest, rfl⟩, longer⟩
      refine ⟨rest, ?_, rfl⟩
      rintro rfl
      simp at longer
    · rintro ⟨rest, some_, rfl⟩
      exact ⟨List.prefix_append _ _, by simpa using List.length_pos_iff.mpr some_⟩
  rw [data]

/-- A value that may be kept is no address with an unsafe scheme. -/
theorem isSafeValue_iff {name value : Text} : isSafeValue name value = true ↔
    (name ∈ addressAttributes → ∀ scheme ∈ unsafeSchemes, ¬scheme <+: bareAddress value) := by
  simp only [isSafeValue, Bool.or_eq_true, Bool.not_eq_true', List.any_eq_false, List.isPrefixOf_iff_prefix]
  rw [← List.contains_iff_mem]
  cases addressAttributes.contains name <;> simp

/-- The tag of an element that is kept. -/
theorem allowedTag_keptEntries {name : Text} {own : List Text} (allowed : ownAttributes? name = some own)
    (attributes : List (Text × Text)) : AllowedTag ⟨name, keptEntries own attributes⟩ where
  element := ⟨own, Entries.mem_of_lookup allowed, fun _ member => allowsAttribute_iff.mp (mem_keptEntries.mp member).2.1⟩
  addresses := fun _ member => isSafeValue_iff.mp (mem_keptEntries.mp member).2.2

mutual

/-- What is written for a node is allowed markup. -/
theorem allowedMarkup_emittedNode : ∀ node, AllowedMarkup (emittedNode node)
  | .text content => by
    rw [emittedNode]
    induction content with
    | nil => exact .nil
    | cons c rest inductionHypothesis => exact .char c inductionHypothesis
  | .comment content => by
    rw [emittedNode]
    exact .nil
  | .element name attributes children => by
    rw [emittedNode]
    split
    · exact .nil
    · split
      · exact allowedMarkup_emittedNodes children
      · rename_i own allowed
        have tag := allowedTag_keptEntries allowed attributes
        simp only
        split
        · rename_i bare
          exact .void tag (List.contains_iff_mem.mp bare) .nil
        · rename_i full
          exact .element tag (fun bare => full (List.contains_iff_mem.mpr bare)) (allowedMarkup_emittedNodes children) .nil

/-- What is written for nodes in a row is allowed markup. -/
theorem allowedMarkup_emittedNodes : ∀ nodes, AllowedMarkup (emittedNodes nodes)
  | [] => by
    rw [emittedNodes]
    exact .nil
  | node :: rest => by
    rw [emittedNodes]
    exact (allowedMarkup_emittedNode node).append (allowedMarkup_emittedNodes rest)

end

/-- The names of allowed elements are names. -/
theorem isMarkupName_of_allowed {name : Text} {own : List Text} (allowed : (name, own) ∈ allowedElements) :
    isMarkupName name = true := by
  have checked : (allowedElements.all fun entry => isMarkupName entry.1) = true := by decide
  exact List.all_eq_true.mp checked _ allowed

/-- An allowed attribute whose name stands in a tag has a name that starts with a letter. -/
theorem isMarkupName_of_allowedAttribute {name key : Text} {own : List Text} (listed : (name, own) ∈ allowedElements)
    (allowed : AllowedAttribute own key) (named : isAttributeName key = true) : isMarkupName key = true := by
  have ownChecked : (allowedElements.all fun entry => entry.2.all isMarkupName) = true := by decide
  have globalChecked : globalAttributes.all isMarkupName = true := by decide
  rcases allowed with ownKey | globalKey | ⟨rest, -, rfl⟩
  · exact List.all_eq_true.mp (List.all_eq_true.mp ownChecked _ listed) key ownKey
  · exact List.all_eq_true.mp globalChecked key globalKey
  · have start : dataStart = 'd' :: "ata-".toList := by decide
    rw [start, List.cons_append] at named ⊢
    rw [isAttributeName, Bool.and_eq_true] at named
    rw [isMarkupName, named.2]
    decide

mutual

/-- The tokens of a node can be written. -/
theorem writable_emittedNode : ∀ node, Node.Named node → ∀ token ∈ emittedNode node, token.Writable
  | .text content, _, token, member => by
    rw [emittedNode] at member
    obtain ⟨c, -, rfl⟩ := List.mem_map.mp member
    trivial
  | .comment content, _, token, member => by
    rw [emittedNode] at member
    simp at member
  | .element name attributes children, named, token, member => by
    obtain ⟨legal, inside⟩ : LegalAttributes (fun _ => True) attributes ∧ ∀ child ∈ children, Node.Named child := by
      cases named with
      | element own inside => exact ⟨own, inside⟩
    rw [emittedNode] at member
    split at member
    · simp at member
    · split at member
      · exact writable_emittedNodes children inside token member
      · rename_i own allowed
        have listed := Entries.mem_of_lookup allowed
        have tagName := isMarkupName_of_allowed listed
        have opened : (Token.startTag ⟨name, keptEntries own attributes⟩).Writable := by
          refine ⟨tagName, ?_, ?_⟩
          · intro entry kept
            obtain ⟨old, allowed, -⟩ := mem_keptEntries.mp kept
            exact isMarkupName_of_allowedAttribute listed (allowsAttribute_iff.mp allowed) (legal.2 entry old).1
          · exact ((sortByName_perm _).map Prod.fst).nodup_iff.mpr (legal.1.sublist (List.filter_sublist.map Prod.fst))
        simp only at member
        split at member
        · exact List.mem_singleton.mp member ▸ opened
        · rw [List.cons_append, List.mem_cons, List.mem_append, List.mem_singleton] at member
          rcases member with rfl | content | rfl
          · exact opened
          · exact writable_emittedNodes children inside token content
          · exact tagName

/-- The tokens of nodes in a row can be written. -/
theorem writable_emittedNodes : ∀ nodes, (∀ node ∈ nodes, Node.Named node) →
    ∀ token ∈ emittedNodes nodes, token.Writable
  | [], _, token, member => by
    rw [emittedNodes] at member
    simp at member
  | node :: rest, named, token, member => by
    rw [emittedNodes, List.mem_append] at member
    rcases member with here | later
    · exact writable_emittedNode node (named node (by simp)) token here
    · exact writable_emittedNodes rest (fun other among => named other (by simp [among])) token later

end

/-- The nodes that markup gives are named as tags name them. -/
theorem named_of_mem_parseFragmentWith {known : ReferenceTable} {markup : Text} :
    ∀ node ∈ parseFragmentWith known markup, node.Named :=
  madeOf_parseFragmentWith (fun _ _ => trivial) (fun _ _ => ⟨fun _ _ => trivial, fun _ _ => trivial⟩) markup

/-- What is read of the clean markup of nodes, but for what a reader makes of any text: the tokens they consist of. -/
theorem tokens_cleanNodes (sound : Sound names) {nodes : List Node} (named : ∀ node ∈ nodes, node.Named) :
    tokens names (cleanNodes nodes) = (normalTokens (withoutMarkToken (emittedNodes nodes))).map Token.reread := by
  rw [← writeTokens_emittedNodes, tokens_writeTokens sound (writable_emittedNodes nodes named)]

/-- The clean markup of any nodes that a text of markup can give is allowed markup to whoever reads it, and no part of
it from its start on closes more elements than it opens. -/
theorem allowedMarkup_cleanNodes (sound : Sound names) :
    (∀ nodes, (∀ node ∈ nodes, node.Named) → AllowedMarkup (tokens names (cleanNodes nodes)) ∧
      ∀ front, front <+: tokens names (cleanNodes nodes) →
        front.countP Token.isClosing ≤ front.countP Token.isOpening) ∧
    ∀ known markup, ∀ node ∈ parseFragmentWith known markup, node.Named := by
  constructor
  · intro nodes named
    have allowed : AllowedMarkup (tokens names (cleanNodes nodes)) := by
      rw [tokens_cleanNodes sound named]
      exact (allowedMarkup_emittedNodes nodes).withoutMarkToken.normalTokens.reread
    exact ⟨allowed, allowed.balanced.2⟩
  · intro known markup
    exact madeOf_parseFragmentWith (fun _ _ => trivial) (fun _ _ => ⟨fun _ _ => trivial, fun _ _ => trivial⟩) markup

/-- An attribute with a double quote in its name, a text with a tag in it and a script address do no harm. -/
theorem allowedMarkup_sanitize_quote :
    AllowedMarkup (tokens namedReferences
      (sanitize "<form><a data-a\"b='<i>' href=javascript:x>&lt;/div></form>".toList)) := by
  obtain ⟨written, read⟩ := allowedMarkup_cleanNodes sound_namedReferences
  exact (written _ (read namedReferences "<form><a data-a\"b='<i>' href=javascript:x>&lt;/div></form>".toList)).1

end
end MapEmbed.Html
