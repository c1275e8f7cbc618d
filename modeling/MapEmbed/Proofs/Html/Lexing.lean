import MapEmbed.Proofs.Html.ModeProvenance
import MapEmbed.Proofs.Html.StartTags
import MapEmbed.Proofs.Unicode.SmallForm

/-!
# What the tokens of a markup text hold

The attributes of a start tag have distinct names, and a name holds no character that would end it, but may start with
an equals sign. Characters and values hold no NUL characters, as long as no known reference stands for one. By what is
known of the builder the same holds of the nodes of a fragment.
-/

namespace MapEmbed.Html

/-- A name that an attribute of a start tag can have. -/
def isAttributeName : Text → Bool
  | [] => false
  | c :: rest => (c == '=' || isNameChar c) && rest.all isNameChar

/-- What the attributes of a start tag are: their names are distinct, and their values are as described. -/
def LegalAttributes (Plain : Char → Prop) (attributes : List (Text × Text)) : Prop :=
  (attributes.map Prod.fst).Nodup ∧
    ∀ entry ∈ attributes, isAttributeName entry.1 = true ∧ ∀ c ∈ entry.2, Plain c

/-- The known references are made of such characters, and stand for such. -/
def PlainTable (Plain : Char → Prop) (names : ReferenceTable) : Prop :=
  ∀ entry ∈ names, (∀ c ∈ entry.1, Plain c) ∧ ∀ c ∈ entry.2, Plain c

/-- What the lexer holds in the middle of a tag or a reference. -/
def LexState.Legal (Plain : Char → Prop) : LexState → Prop
  | .tagName draft => LegalAttributes Plain draft.attributes
  | .beforeAttribute draft => LegalAttributes Plain draft.attributes
  | .attributeName draft name => LegalAttributes Plain draft.attributes ∧ isAttributeName name.reverse = true
  | .afterAttributeName draft name => LegalAttributes Plain draft.attributes ∧ isAttributeName name.reverse = true
  | .beforeValue draft name => LegalAttributes Plain draft.attributes ∧ isAttributeName name.reverse = true
  | .quotedValue draft name _ value =>
    LegalAttributes Plain draft.attributes ∧ isAttributeName name.reverse = true ∧ ∀ c ∈ value, Plain c
  | .bareValue draft name value =>
    LegalAttributes Plain draft.attributes ∧ isAttributeName name.reverse = true ∧ ∀ c ∈ value, Plain c
  | .valueReference draft name _ value seen =>
    LegalAttributes Plain draft.attributes ∧ isAttributeName name.reverse = true ∧ (∀ c ∈ value, Plain c) ∧
      ∀ c ∈ seen, Plain c
  | .rawEndTagName _ seen => ∀ c ∈ seen, Plain c
  | .textReference _ seen => ∀ c ∈ seen, Plain c
  | _ => True

/-- The tokens of a step and the state after it hold what they should. -/
def LegalStep (Plain : Char → Prop) (step : Lexer.Step) : Prop :=
  (∀ token ∈ step.1, token.MadeOf (LegalAttributes Plain) Plain) ∧ step.2.Legal Plain

section
variable {Plain : Char → Prop} {names : ReferenceTable} {draft : TagDraft} {name value : Text} {c : Char}

/-! ### Characters -/

/-- A character that is told apart from NUL is none. -/
theorem toNat_ne_zero_of {kind : Char → Bool} (holds : kind c = true) (nul : kind (Char.ofNat 0) = false) :
    c.toNat ≠ 0 := by
  intro zero
  rw [← Char.ofNat_toNat c, zero, nul] at holds
  exact Bool.false_ne_true holds

/-- The replacement character is no NUL. -/
theorem toNat_withoutNul (c : Char) : (withoutNul c).toNat ≠ 0 := by
  unfold withoutNul
  split
  · decide
  · assumption

/-- A character that stands in the name of an attribute as itself, or in lower case. -/
theorem isNameChar_nameChar (blank : isMarkupBlank c = false) (slash : c ≠ '/') (equals : c ≠ '=') (closing : c ≠ '>')
    (return_ : c ≠ '\r') : isNameChar (nameChar c) = true := by
  by_cases nul : c.toNat = 0
  · obtain rfl : c = Char.ofNat 0 := by rw [← nul, Char.ofNat_toNat]
    decide
  · have kept : withoutNul c = c := by simp [withoutNul, nul]
    by_cases capital : 0x41 ≤ c.toNat ∧ c.toNat ≤ 0x5A
    · have checked : ∀ offset < 26, isNameChar (nameChar (Char.ofNat (0x41 + offset))) = true := by decide
      have here := checked (c.toNat - 0x41) (by omega)
      rwa [show 0x41 + (c.toNat - 0x41) = c.toNat by omega, Char.ofNat_toNat] at here
    · have small : nameChar c = c := by rw [nameChar, kept, Unicode.asciiLower_eq_self capital]
      simp [isNameChar, small, blank, slash, equals, closing, return_]

/-- A digit of a number is no NUL. -/
theorem toNat_ne_zero_of_digit {hexadecimal : Bool} (digit : isReferenceDigit hexadecimal c = true) : c.toNat ≠ 0 := by
  cases hexadecimal with
  | false => exact toNat_ne_zero_of digit (by decide)
  | true => exact toNat_ne_zero_of digit (by decide)

/-- No number stands for NUL. -/
theorem toNat_charOfNumber (number : Nat) : (charOfNumber number).toNat ≠ 0 := by
  unfold charOfNumber
  split
  · decide
  · rename_i valid
    cases found : c1Replacements.lookup number with
    | none =>
      have kept : (Char.ofNat number).toNat = number := Unicode.toNat_ofNat (by unfold Nat.isValidChar; omega)
      rw [Option.getD_none, kept]
      omega
    | some point =>
      have checked : (c1Replacements.all fun entry => (Char.ofNat entry.2).toNat != 0) = true := by decide
      have listed : (number, point) ∈ c1Replacements := by
        obtain ⟨before, after, split, -⟩ := List.lookup_eq_some_iff.mp found
        simp [split]
      simpa using List.all_eq_true.mp checked _ listed

/-! ### References -/

/-- Only plain characters are collected for a reference. -/
theorem plain_of_continuesReference (plain : ∀ c : Char, c.toNat ≠ 0 → Plain c) (table : PlainTable Plain names)
    {seen : Text} (continues : continuesReference names seen c = true) : Plain c := by
  unfold continuesReference at continues
  split at continues
  · simp only [Bool.and_eq_true, Bool.or_eq_true, beq_iff_eq] at continues
    apply plain
    obtain ⟨-, (digit | ⟨rfl, -⟩) | ⟨-, rfl | rfl⟩⟩ := continues
    · exact toNat_ne_zero_of_digit digit
    · decide
    · decide
    · decide
  · simp only [Bool.or_eq_true, Bool.and_eq_true, beq_iff_eq] at continues
    rcases continues with ⟨-, rfl⟩ | known
    · exact plain '#' (by decide)
    · obtain ⟨entry, listed, starts⟩ := List.any_eq_true.mp known
      exact (table entry listed).1 c ((List.isPrefixOf_iff_prefix.mp starts).subset (by simp))

/-- The longest name that starts a text is a known one. -/
theorem mem_of_longestName? {seen : Text} {entry : Text × Text} (found : longestName? names seen = some entry) :
    entry ∈ names := by
  have folded (left : ReferenceTable) (best : Option (Text × Text)) (inside : ∀ other ∈ left, other ∈ names)
      (known : ∀ other, best = some other → other ∈ names) :
      ∀ other, left.foldl (fun best entry =>
        if entry.1.isPrefixOf seen && (best.map fun b => b.1.length).getD 0 < entry.1.length then some entry
        else best) best = some other → other ∈ names := by
    induction left generalizing best with
    | nil => exact known
    | cons first rest inductionHypothesis =>
      apply inductionHypothesis _ fun other member => inside other (by simp [member])
      intro other chosen
      beta_reduce at chosen
      split at chosen
      · exact Option.some.inj chosen ▸ inside first (by simp)
      · exact known other chosen
  exact folded names none (fun _ member => member) (by simp) entry found

/-- What is decoded is plain. -/
theorem plain_decodeReference (plain : ∀ c : Char, c.toNat ≠ 0 → Plain c) (table : PlainTable Plain names)
    {seen : Text} (collected : ∀ c ∈ seen, Plain c) (inAttribute : Bool) (next : Option Char) :
    ∀ c ∈ (decodeReference names inAttribute seen next).chars, Plain c := by
  have kept : ∀ c ∈ '&' :: seen, Plain c := List.forall_mem_cons.mpr ⟨plain '&' (by decide), collected⟩
  unfold decodeReference
  split
  · split
    · exact kept
    · exact List.forall_mem_singleton.mpr (plain _ (toNat_charOfNumber _))
  · split
    · exact kept
    · rename_i entry chars found
      simp only
      split
      · exact kept
      · intro c member
        rcases List.mem_append.mp member with decoded | left
        · exact (table _ (mem_of_longestName? found)).2 c decoded
        · exact collected c (List.mem_of_mem_drop left)

/-! ### Tags -/

/-- No attributes are legal. -/
theorem legalAttributes_nil : LegalAttributes Plain [] :=
  ⟨List.nodup_nil, by simp⟩

/-- The order of attributes says nothing. -/
theorem LegalAttributes.perm {attributes others : List (Text × Text)} (legal : LegalAttributes Plain attributes)
    (same : others.Perm attributes) : LegalAttributes Plain others :=
  ⟨(same.map Prod.fst).nodup_iff.mpr legal.1, fun entry member => legal.2 entry (same.subset member)⟩

/-- A new attribute is added once. -/
theorem LegalAttributes.addAttribute (legal : LegalAttributes Plain draft.attributes)
    (named : isAttributeName name.reverse = true) (chars : ∀ c ∈ value, Plain c) :
    LegalAttributes Plain (draft.addAttribute name value).attributes := by
  rw [TagDraft.addAttribute]
  split
  · exact legal
  · rename_i unknown
    constructor
    · rw [List.map_cons, List.nodup_cons]
      refine ⟨?_, legal.1⟩
      intro known
      obtain ⟨entry, member, same⟩ := List.mem_map.mp known
      exact unknown (List.any_eq_true.mpr ⟨entry, member, beq_iff_eq.mpr same⟩)
    · refine List.forall_mem_cons.mpr ⟨⟨named, ?_⟩, legal.2⟩
      exact fun c member => chars c (List.mem_reverse.mp member)

/-- A finished tag is a token. -/
theorem LegalAttributes.token (legal : LegalAttributes Plain draft.attributes) :
    draft.token.MadeOf (LegalAttributes Plain) Plain := by
  rw [TagDraft.token]
  split
  · trivial
  · exact legal.perm (List.reverse_perm _)

/-- The name of an attribute goes on. -/
theorem isAttributeName_append (named : isAttributeName name.reverse = true) (here : isNameChar c = true) :
    isAttributeName (c :: name).reverse = true := by
  rw [List.reverse_cons]
  cases split : name.reverse with
  | nil => simp [split, isAttributeName] at named
  | cons d rest =>
    rw [split, isAttributeName, Bool.and_eq_true] at named
    simp only [List.cons_append, isAttributeName, List.all_append, named.1, named.2, Bool.true_and]
    simp [here]

/-- A step without tokens. -/
theorem legalStep_silent {state : LexState} (legal : state.Legal Plain) : LegalStep Plain ([], state) :=
  ⟨by simp, legal⟩

/-- A step that completes one token. -/
theorem legalStep_one {state : LexState} {token : Token} (made : token.MadeOf (LegalAttributes Plain) Plain)
    (legal : state.Legal Plain) : LegalStep Plain ([token], state) :=
  ⟨List.forall_mem_singleton.mpr made, legal⟩

/-- Characters are plain tokens. -/
theorem madeOf_chars {text : Text} (chars : ∀ c ∈ text, Plain c) :
    ∀ token ∈ Lexer.chars text, token.MadeOf (LegalAttributes Plain) Plain := by
  intro token member
  obtain ⟨c, inside, rfl⟩ := List.mem_map.mp member
  exact chars c inside

/-- The tokens of a decoded reference. -/
theorem madeOf_referenceTokens {decoded : Decoded} (chars : ∀ c ∈ decoded.chars, Plain c) :
    ∀ token ∈ Lexer.referenceTokens decoded, token.MadeOf (LegalAttributes Plain) Plain := by
  intro token member
  rcases List.mem_append.mp member with fault | char
  · split at fault
    · rw [List.mem_singleton.mp fault]
      trivial
    · simp at fault
  · exact madeOf_chars chars token char

/-- One of two steps. -/
theorem legalStep_ite {condition : Prop} [Decidable condition] {one two : Lexer.Step}
    (first : condition → LegalStep Plain one) (second : ¬condition → LegalStep Plain two) :
    LegalStep Plain (if condition then one else two) := by
  split
  · exact first ‹_›
  · exact second ‹_›

/-! ### Steps between tags -/

section
variable (plain : ∀ c : Char, c.toNat ≠ 0 → Plain c)
include plain

/-- A character that stands for itself. -/
theorem legalStep_char {mode : ContentMode} (other : c.toNat ≠ 0) : LegalStep Plain ([.char c], .content mode) :=
  legalStep_one (plain c other) trivial

/-- A character that stands for itself, but for NUL. -/
theorem legalStep_withoutNul {mode : ContentMode} (c : Char) :
    LegalStep Plain ([.char (withoutNul c)], .content mode) :=
  legalStep_one (plain _ (toNat_withoutNul c)) trivial

/-- A character in a script outside comments. -/
theorem legalStep_scriptPlain (c : Char) : LegalStep Plain (Lexer.scriptPlain c) :=
  legalStep_ite (fun _ => legalStep_silent trivial) fun _ => legalStep_withoutNul plain c

/-- A character in a comment of a script. -/
theorem legalStep_scriptEscaped (dashes : Nat) (c : Char) : LegalStep Plain (Lexer.scriptEscaped dashes c) := by
  refine legalStep_ite (fun dash => legalStep_char plain (dash ▸ by decide)) fun _ => ?_
  refine legalStep_ite (fun _ => legalStep_silent trivial) fun _ => ?_
  exact legalStep_ite (fun closing => legalStep_char plain (closing.1 ▸ by decide)) fun _ => legalStep_withoutNul plain c

/-- A character in a script in a comment of a script. -/
theorem legalStep_scriptDoubled (dashes : Nat) (c : Char) : LegalStep Plain (Lexer.scriptDoubled dashes c) := by
  refine legalStep_ite (fun dash => legalStep_char plain (dash ▸ by decide)) fun _ => ?_
  refine legalStep_ite (fun less => legalStep_char plain (less ▸ by decide)) fun _ => ?_
  exact legalStep_ite (fun closing => legalStep_char plain (closing.1 ▸ by decide)) fun _ => legalStep_withoutNul plain c

/-- A character after the start of a tag in a comment. -/
theorem legalStep_scriptDoubleStart (seen : Text) (c : Char) : LegalStep Plain (Lexer.scriptDoubleStart seen c) := by
  refine legalStep_ite (fun ends => legalStep_char plain (toNat_ne_zero_of ends (by decide))) fun _ => ?_
  exact legalStep_ite (fun letter => legalStep_char plain (toNat_ne_zero_of letter (by decide))) fun _ =>
    legalStep_scriptEscaped plain 0 c

/-- A character in a script. -/
theorem legalStep_scriptStep (phase : ScriptPhase) (c : Char) : LegalStep Plain (Lexer.scriptStep phase c) := by
  cases phase with
  | plain => exact legalStep_scriptPlain plain c
  | escapeStart =>
    exact legalStep_ite (fun dash => legalStep_char plain (dash ▸ by decide)) fun _ => legalStep_scriptPlain plain c
  | escapeStartDash =>
    exact legalStep_ite (fun dash => legalStep_char plain (dash ▸ by decide)) fun _ => legalStep_scriptPlain plain c
  | escaped dashes => exact legalStep_scriptEscaped plain dashes c
  | doubled dashes => exact legalStep_scriptDoubled plain dashes c
  | doubledLessThan =>
    exact legalStep_ite (fun slash => legalStep_char plain (slash ▸ by decide)) fun _ =>
      legalStep_scriptDoubled plain 0 c
  | doubleStart seen => exact legalStep_scriptDoubleStart plain seen c
  | doubleEnd seen =>
    refine legalStep_ite (fun ends => legalStep_char plain (toNat_ne_zero_of ends (by decide))) fun _ => ?_
    exact legalStep_ite (fun letter => legalStep_char plain (toNat_ne_zero_of letter (by decide))) fun _ =>
      legalStep_scriptDoubled plain 0 c

/-- A character between tags. -/
theorem legalStep_contentStep (mode : ContentMode) (c : Char) : LegalStep Plain (Lexer.contentStep mode c) := by
  have collects (mode : ContentMode) : LegalStep Plain ([], .textReference mode []) :=
    legalStep_silent fun _ member => absurd member (by simp)
  cases mode with
  | data =>
    refine legalStep_ite (fun _ => collects .data) fun _ => ?_
    refine legalStep_ite (fun _ => legalStep_silent trivial) fun _ => ?_
    exact legalStep_ite (fun _ => legalStep_one trivial trivial) fun other => legalStep_char plain other
  | escapableText =>
    refine legalStep_ite (fun _ => collects .escapableText) fun _ => ?_
    exact legalStep_ite (fun _ => legalStep_silent trivial) fun _ => legalStep_withoutNul plain c
  | rawText => exact legalStep_ite (fun _ => legalStep_silent trivial) fun _ => legalStep_withoutNul plain c
  | script phase => exact legalStep_scriptStep plain phase c
  | plainText => exact legalStep_withoutNul plain c

omit plain in
/-- Characters in front of a step. -/
theorem LegalStep.chars_append {text : Text} (chars : ∀ c ∈ text, Plain c) {step : Lexer.Step}
    (legal : LegalStep Plain step) : LegalStep Plain (Lexer.chars text ++ step.1, step.2) := by
  exact ⟨List.forall_mem_append.mpr ⟨madeOf_chars chars, legal.1⟩, legal.2⟩

/-- Characters that turned out to be text. -/
theorem legalStep_asText {text : Text} (chars : ∀ c ∈ text, Plain c) (mode : ContentMode) (c : Char) :
    LegalStep Plain (Lexer.asText text mode c) :=
  (legalStep_contentStep plain mode c).chars_append chars

end

/-! ### Steps in tags -/

section
variable (legal : LegalAttributes Plain draft.attributes)
include legal

/-- The end of a tag. -/
theorem legalStep_token : LegalStep Plain ([draft.token], Lexer.dataState) :=
  legalStep_one legal.token trivial

/-- A character where an attribute may start. -/
theorem legalStep_beforeAttributeStep (return_ : c ≠ '\r') : LegalStep Plain (Lexer.beforeAttributeStep draft c) := by
  refine legalStep_ite (fun _ => legalStep_silent legal) fun other => ?_
  rw [not_or, Bool.not_eq_true] at other
  refine legalStep_ite (fun _ => legalStep_token legal) fun closing => ?_
  refine legalStep_silent ⟨legal, ?_⟩
  by_cases equals : c = '='
  · subst equals
    decide
  · simp [isAttributeName, isNameChar_nameChar other.1 other.2 equals closing return_]

/-- A character in the name of a tag. -/
theorem legalStep_tagNameStep (c : Char) : LegalStep Plain (Lexer.tagNameStep draft c) := by
  refine legalStep_ite (fun _ => legalStep_silent legal) fun _ => ?_
  exact legalStep_ite (fun _ => legalStep_token legal) fun _ => legalStep_silent legal

variable (named : isAttributeName name.reverse = true)
include named

/-- A character in the name of an attribute. -/
theorem legalStep_attributeNameStep (return_ : c ≠ '\r') :
    LegalStep Plain (Lexer.attributeNameStep draft name c) := by
  have added : LegalAttributes Plain (draft.addAttribute name []).attributes := legal.addAttribute named (by simp)
  refine legalStep_ite (fun _ => legalStep_silent ⟨legal, named⟩) fun blank => ?_
  refine legalStep_ite (fun _ => legalStep_silent added) fun slash => ?_
  refine legalStep_ite (fun _ => legalStep_silent ⟨legal, named⟩) fun equals => ?_
  refine legalStep_ite (fun _ => legalStep_token added) fun closing => ?_
  refine legalStep_silent ⟨legal, isAttributeName_append named ?_⟩
  exact isNameChar_nameChar (Bool.not_eq_true _ ▸ blank) slash equals closing return_

/-- A character behind the name of an attribute. -/
theorem legalStep_afterAttributeNameStep (return_ : c ≠ '\r') :
    LegalStep Plain (Lexer.afterAttributeNameStep draft name c) := by
  have added : LegalAttributes Plain (draft.addAttribute name []).attributes := legal.addAttribute named (by simp)
  refine legalStep_ite (fun _ => legalStep_silent ⟨legal, named⟩) fun blank => ?_
  refine legalStep_ite (fun _ => legalStep_silent added) fun slash => ?_
  refine legalStep_ite (fun _ => legalStep_silent ⟨legal, named⟩) fun equals => ?_
  refine legalStep_ite (fun _ => legalStep_token added) fun closing => ?_
  refine legalStep_silent ⟨added, ?_⟩
  simp [isAttributeName, isNameChar_nameChar (Bool.not_eq_true _ ▸ blank) slash equals closing return_]

variable (plain : ∀ c : Char, c.toNat ≠ 0 → Plain c) (chars : ∀ c ∈ value, Plain c)
include plain chars

omit legal named in
/-- A value goes on. -/
theorem plain_value (c : Char) : ∀ d ∈ withoutNul c :: value, Plain d :=
  List.forall_mem_cons.mpr ⟨plain _ (toNat_withoutNul c), chars⟩

/-- A character in a value. -/
theorem legalStep_valueStep (quote : Option Char) (c : Char) :
    LegalStep Plain (Lexer.valueStep draft name quote value c) := by
  have added := legal.addAttribute named chars
  have longer := plain_value plain chars c
  cases quote with
  | some q =>
    refine legalStep_ite (fun _ => legalStep_silent added) fun _ => ?_
    exact legalStep_ite (fun _ => legalStep_silent ⟨legal, named, chars, by simp⟩) fun _ =>
      legalStep_silent ⟨legal, named, longer⟩
  | none =>
    refine legalStep_ite (fun _ => legalStep_silent added) fun _ => ?_
    refine legalStep_ite (fun _ => legalStep_silent ⟨legal, named, chars, by simp⟩) fun _ => ?_
    exact legalStep_ite (fun _ => legalStep_token added) fun _ => legalStep_silent ⟨legal, named, longer⟩

omit chars in
/-- A character after an equals sign. -/
theorem legalStep_beforeValueStep (c : Char) : LegalStep Plain (Lexer.beforeValueStep draft name c) := by
  have empty : ∀ d ∈ ([] : Text), Plain d := by simp
  refine legalStep_ite (fun _ => legalStep_silent ⟨legal, named⟩) fun _ => ?_
  refine legalStep_ite (fun _ => legalStep_silent ⟨legal, named, empty⟩) fun _ => ?_
  exact legalStep_ite (fun _ => legalStep_token (legal.addAttribute named empty)) fun _ =>
    legalStep_valueStep legal named plain empty none c

end

/-! ### The whole -/

/-- A character in any state. -/
theorem legalStep_stepState (plain : ∀ c : Char, c.toNat ≠ 0 → Plain c) (table : PlainTable Plain names)
    {state : LexState} (legal : state.Legal Plain) (lastStart : Text) (return_ : c ≠ '\r') :
    LegalStep Plain (Lexer.stepState names lastStart state c) := by
  have bogus (seen : Text) : LegalStep Plain (Lexer.bogusCommentStep seen c) :=
    legalStep_ite (fun _ => legalStep_one trivial trivial) fun _ => legalStep_silent trivial
  have less : ∀ c ∈ ['<'], Plain c := List.forall_mem_singleton.mpr (plain '<' (by decide))
  have closing : ∀ c ∈ ['<', '/'], Plain c := List.forall_mem_cons.mpr ⟨plain '<' (by decide),
    List.forall_mem_singleton.mpr (plain '/' (by decide))⟩
  have declared : ∀ c ∈ ['<', '!'], Plain c := List.forall_mem_cons.mpr ⟨plain '<' (by decide),
    List.forall_mem_singleton.mpr (plain '!' (by decide))⟩
  cases state with
  | content mode => exact legalStep_contentStep plain mode c
  | tagOpen =>
    refine legalStep_ite (fun _ => legalStep_silent trivial) fun _ => ?_
    refine legalStep_ite (fun _ => legalStep_silent trivial) fun _ => ?_
    refine legalStep_ite (fun _ => legalStep_silent trivial) fun _ => ?_
    exact legalStep_ite (fun _ => legalStep_silent legalAttributes_nil) fun _ => legalStep_asText plain less _ c
  | endTagOpen =>
    refine legalStep_ite (fun _ => legalStep_one trivial trivial) fun _ => ?_
    exact legalStep_ite (fun _ => legalStep_silent legalAttributes_nil) fun _ => bogus []
  | tagName draft => exact legalStep_tagNameStep legal c
  | beforeAttribute draft => exact legalStep_beforeAttributeStep legal return_
  | attributeName draft name => exact legalStep_attributeNameStep legal.1 legal.2 return_
  | afterAttributeName draft name => exact legalStep_afterAttributeNameStep legal.1 legal.2 return_
  | beforeValue draft name => exact legalStep_beforeValueStep legal.1 legal.2 plain c
  | quotedValue draft name quote value =>
    exact legalStep_valueStep legal.1 legal.2.1 plain legal.2.2 (some quote) c
  | bareValue draft name value => exact legalStep_valueStep legal.1 legal.2.1 plain legal.2.2 none c
  | declaration seen =>
    refine legalStep_ite (fun _ => legalStep_silent trivial) fun _ => ?_
    refine legalStep_ite (fun _ => legalStep_silent trivial) fun _ => ?_
    exact legalStep_ite (fun _ => legalStep_silent trivial) fun _ => bogus seen
  | comment seen => exact legalStep_ite (fun _ => legalStep_one trivial trivial) fun _ => legalStep_silent trivial
  | bogusComment seen => exact bogus seen
  | doctype => exact legalStep_ite (fun _ => legalStep_one trivial trivial) fun _ => legalStep_silent trivial
  | rawLessThan mode =>
    refine legalStep_ite (fun _ => legalStep_silent trivial) fun _ => ?_
    refine legalStep_ite (fun _ => ⟨madeOf_chars declared, trivial⟩) fun _ => ?_
    exact legalStep_ite (fun _ => (legalStep_scriptDoubleStart plain [] c).chars_append less) fun _ =>
      legalStep_asText plain less mode c
  | rawEndTagOpen mode =>
    refine legalStep_ite (fun letter => legalStep_silent ?_) fun _ => legalStep_asText plain closing mode c
    exact List.forall_mem_singleton.mpr (plain c (toNat_ne_zero_of letter (by decide)))
  | rawEndTagName mode seen =>
    refine legalStep_ite (fun _ => legalStep_silent legalAttributes_nil) fun _ => ?_
    refine legalStep_ite (fun _ => legalStep_one trivial trivial) fun _ => ?_
    refine legalStep_ite (fun letter => legalStep_silent ?_) fun _ => legalStep_asText plain ?_ mode c
    · exact List.forall_mem_cons.mpr ⟨plain c (toNat_ne_zero_of letter (by decide)), legal⟩
    · exact List.forall_mem_append.mpr ⟨closing, fun c member => legal c (List.mem_reverse.mp member)⟩
  | textReference mode seen =>
    have collected : ∀ c ∈ seen.reverse, Plain c := fun c member => legal c (List.mem_reverse.mp member)
    refine legalStep_ite (fun continues => legalStep_silent ?_) fun _ => ?_
    · exact List.forall_mem_cons.mpr ⟨plain_of_continuesReference plain table continues, legal⟩
    · obtain ⟨tokens, next⟩ := legalStep_contentStep plain mode c
      have decoded := plain_decodeReference plain table collected false (some c)
      exact ⟨List.forall_mem_append.mpr ⟨madeOf_referenceTokens decoded, tokens⟩, next⟩
  | valueReference draft name quote value seen =>
    obtain ⟨attributes, named, chars, inside⟩ := legal
    have collected : ∀ c ∈ seen.reverse, Plain c := fun c member => inside c (List.mem_reverse.mp member)
    refine legalStep_ite (fun continues => legalStep_silent ⟨attributes, named, chars, ?_⟩) fun _ => ?_
    · exact List.forall_mem_cons.mpr ⟨plain_of_continuesReference plain table continues, inside⟩
    · apply legalStep_valueStep attributes named plain
      have decoded := plain_decodeReference plain table collected true (some c)
      exact List.forall_mem_append.mpr ⟨fun d member => decoded d (List.mem_reverse.mp member), chars⟩

/-- The tokens that the end of the text completes. -/
theorem madeOf_finish (plain : ∀ c : Char, c.toNat ≠ 0 → Plain c) (table : PlainTable Plain names) {lexer : Lexer}
    (legal : lexer.state.Legal Plain) :
    ∀ token ∈ lexer.finish names, token.MadeOf (LegalAttributes Plain) Plain := by
  have less := plain '<' (by decide)
  have slash := plain '/' (by decide)
  obtain ⟨state, lastStart⟩ := lexer
  cases state with
  | tagOpen => exact madeOf_chars (List.forall_mem_singleton.mpr less)
  | endTagOpen => exact madeOf_chars (List.forall_mem_cons.mpr ⟨less, List.forall_mem_singleton.mpr slash⟩)
  | declaration seen => exact List.forall_mem_singleton.mpr trivial
  | comment seen => exact List.forall_mem_singleton.mpr trivial
  | bogusComment seen => exact List.forall_mem_singleton.mpr trivial
  | doctype => exact List.forall_mem_singleton.mpr trivial
  | rawLessThan mode => exact madeOf_chars (List.forall_mem_singleton.mpr less)
  | rawEndTagOpen mode => exact madeOf_chars (List.forall_mem_cons.mpr ⟨less, List.forall_mem_singleton.mpr slash⟩)
  | rawEndTagName mode seen =>
    exact madeOf_chars (List.forall_mem_cons.mpr ⟨less, List.forall_mem_cons.mpr ⟨slash, fun c member =>
      legal c (List.mem_reverse.mp member)⟩⟩)
  | textReference mode seen =>
    exact madeOf_referenceTokens (plain_decodeReference plain table
      (fun c member => legal c (List.mem_reverse.mp member)) false none)
  | _ => exact fun token member => absurd member (by simp [Lexer.finish])

/-! ### Fragments -/

/-- What the lexer and the builder hold while a fragment is read. -/
structure Parser.Legal (Plain : Char → Prop) (p : Parser) : Prop where
  lexer : p.lexer.state.Legal Plain
  builder : p.builder.MadeOf (LegalAttributes Plain) Plain

/-- A token is dealt with. -/
theorem Parser.Legal.accept {p : Parser} (legal : p.Legal Plain) {token : Token}
    (made : token.MadeOf (LegalAttributes Plain) Plain) : (p.accept token).Legal Plain := by
  have after := legal.builder.accept legalAttributes_nil made
  rw [Parser.accept]
  split
  · rename_i builder same
    rw [same] at after
    exact ⟨legal.lexer, after⟩
  · rename_i builder mode same
    rw [same] at after
    exact ⟨trivial, after⟩

/-- Tokens are dealt with one after the other. -/
theorem Parser.Legal.acceptAll {p : Parser} (legal : p.Legal Plain) {given : List Token}
    (made : ∀ token ∈ given, token.MadeOf (LegalAttributes Plain) Plain) :
    (given.foldl Parser.accept p).Legal Plain := by
  induction given generalizing p with
  | nil => exact legal
  | cons token rest inductionHypothesis =>
    exact inductionHypothesis (legal.accept (made token (by simp))) fun other member => made other (by simp [member])

/-- A character is read. -/
theorem Parser.Legal.feed (plain : ∀ c : Char, c.toNat ≠ 0 → Plain c) (table : PlainTable Plain names) {p : Parser}
    (legal : p.Legal Plain) (return_ : c ≠ '\r') : (p.feed names c).Legal Plain := by
  obtain ⟨made, next⟩ := legalStep_stepState plain table legal.lexer p.lexer.lastStart return_
  have after : Parser.Legal Plain { p with lexer := (p.lexer.step names c).2 } := ⟨next, legal.builder⟩
  exact after.acceptAll made

/-- A text with normal line ends is read. -/
theorem Parser.Legal.feedAll (plain : ∀ c : Char, c.toNat ≠ 0 → Plain c) (table : PlainTable Plain names)
    {p : Parser} (legal : p.Legal Plain) {text : Text} (absent : '\r' ∉ text) :
    (text.foldl (Parser.feed names) p).Legal Plain := by
  induction text generalizing p with
  | nil => exact legal
  | cons c rest inductionHypothesis =>
    rw [List.mem_cons, not_or] at absent
    exact inductionHypothesis (legal.feed plain table (Ne.symm absent.1)) absent.2

/-- Normal text has no carriage returns. -/
theorem return_not_mem_normalizeLines (text : Text) : '\r' ∉ normalizeLines text := by
  fun_induction normalizeLines text with
  | case1 => simp
  | case2 rest inductionHypothesis => simpa using inductionHypothesis
  | case3 rest unpaired inductionHypothesis => simpa using inductionHypothesis
  | case4 c rest paired unpaired inductionHypothesis =>
    rw [List.mem_cons, not_or]
    exact ⟨fun same => unpaired same.symm, inductionHypothesis⟩

/-- The attributes in a fragment have names as tags give them, and its texts and values are plain. -/
theorem madeOf_parseFragmentWith (plain : ∀ c : Char, c.toNat ≠ 0 → Plain c) (table : PlainTable Plain names)
    (markup : Text) : ∀ node ∈ parseFragmentWith names markup, node.MadeOf (LegalAttributes Plain) Plain := by
  have start : Parser.initial.Legal Plain := ⟨trivial, Builder.madeOf_initial legalAttributes_nil⟩
  have ended := start.feedAll plain table (return_not_mem_normalizeLines (withoutMark markup))
  have finished := ended.acceptAll (madeOf_finish plain table ended.lexer)
  exact (finished.builder.finish legalAttributes_nil).forest.childTrees 0

end
end MapEmbed.Html
