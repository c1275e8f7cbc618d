import MapEmbed.Proofs.Html.Accepting
import MapEmbed.Proofs.Page.Templates

/-!
# The element of a marker, cleaned

The element of a marker is made of a template, and cleaning keeps what a list allows. The two agree: every element and
every attribute of the template is allowed. A reader finds the one element with its number and its position, whatever
the texts of the marker are, and cleaning writes this element again with the texts as they were read.
-/

namespace MapEmbed.Page

open Html (ReferenceTable Sound AttributesRead ValueRead Token Lexer tokens normalAttribute normalizeLines Builder Child
  Forest Node)

/-- What a reader gets of the texts of a marker. -/
structure MarkerTexts where
  address : Text
  icon : Text
  popup : Text
  /-- The position as it is shown. -/
  summary : Text

/-- The characters that are shown of tokens. -/
def shownText (given : List Token) : Text :=
  given.filterMap fun
    | .char c => some c
    | _ => none

/-- The texts are those that are read of a marker's element. -/
structure MarkerTexts.ReadFrom (names : ReferenceTable) (m : Marker) (popup : Text) (texts : MarkerTexts) : Prop where
  address : ValueRead names (normalizeLines (Text.escape m.address)) texts.address
  icon : ValueRead names (normalizeLines (Text.escape m.icon)) texts.icon
  popup : ValueRead names (normalizeLines (Text.escape popup)) texts.popup
  summary : texts.summary = shownText (Lexer.initial.readAll names (normalizeLines (Text.escape m.summary)))

/-- The name of the element for the number of a marker. -/
def spanName : Text := "span".toList

/-- Its attributes. -/
def numberAttributes : List (Text × Text) :=
  [constant "class" "marker_number".toList]

/-- The attributes of a marker's element as they are read. -/
def readAttributes (m : Marker) (texts : MarkerTexts) : List (Text × Text) :=
  [constant "class" "marker_element".toList,
    constant "data-marker-source" m.source.name,
    constant "data-marker-address" texts.address,
    constant "data-marker-latitude" (m.latitude.fixed 6),
    constant "data-marker-longitude" (m.longitude.fixed 6),
    constant "data-marker-icon" texts.icon,
    constant "data-marker-color" m.color.name,
    constant "data-marker-text" texts.popup]

/-- The same attributes in the order of their names. -/
def orderedAttributes (m : Marker) (texts : MarkerTexts) : List (Text × Text) :=
  [constant "class" "marker_element".toList,
    constant "data-marker-address" texts.address,
    constant "data-marker-color" m.color.name,
    constant "data-marker-icon" texts.icon,
    constant "data-marker-latitude" (m.latitude.fixed 6),
    constant "data-marker-longitude" (m.longitude.fixed 6),
    constant "data-marker-source" m.source.name,
    constant "data-marker-text" texts.popup]

/-- The node of a marker: one element with its number and its position. -/
def markerNode (m : Marker) (texts : MarkerTexts) : Node :=
  .element divName (readAttributes m texts)
    [.text "Marker ".toList, .element spanName numberAttributes [], .text (" (".toList ++ texts.summary ++ [')'])]

/-- The clean element of a marker. -/
def cleanMarker (m : Marker) (texts : MarkerTexts) : Text :=
  Html.startTag divName ((orderedAttributes m texts).map fun entry => (entry.1, Text.encode entry.2)) ++
    "Marker ".toList ++ Html.startTag spanName numberAttributes ++ Html.endTag spanName ++ " (".toList ++
    Text.encode texts.summary ++ [')'] ++ Html.endTag divName

/-- The tokens of a marker's element, around those of its position. -/
def markerTokens (read : List (Text × Text)) (position : List Token) : List Token :=
  .startTag ⟨divName, read⟩ :: (Lexer.chars "Marker ".toList ++
    ([.startTag ⟨spanName, numberAttributes⟩, .endTag spanName] ++
      ((Lexer.chars " (".toList ++ position ++ [.char ')']) ++ [.endTag divName])))

/-- The builder inside the element of a marker, with some of the children of the element, the last one first. The number
may be among them. -/
def insideMarker (read : List (Text × Text)) (children : List Child) (numbered : Bool) : Builder :=
  { Builder.initial with
    forest := ⟨if numbered then
        #[⟨Builder.rootName, [], none, [.element 1]⟩, ⟨divName, read, some 0, children⟩,
          ⟨spanName, numberAttributes, some 1, []⟩]
      else #[⟨Builder.rootName, [], none, [.element 1]⟩, ⟨divName, read, some 0, children⟩]⟩
    stack := [⟨1, divName⟩, ⟨0, Builder.rootName⟩] }

/-- The builder behind the element of a marker. -/
def behindMarker (read : List (Text × Text)) (children : List Child) : Builder :=
  { insideMarker read children true with stack := [⟨0, Builder.rootName⟩] }

section
variable {names : ReferenceTable} {read : List (Text × Text)} {children : List Child} {numbered : Bool} {m : Marker}
  {popup : Text} {texts : MarkerTexts}

/-! ### What is read -/

/-- The tokens of a marker's element are those of the template, and in it those of its position on its own. -/
theorem exists_tokens_markerElement (sound : Sound names) (m : Marker) (popup : Text) :
    ∃ read, AttributesRead names ((markerAttributes m popup).map normalAttribute) read ∧
      (∀ token ∈ Lexer.initial.readAll names (normalizeLines (Text.escape m.summary)), token.isText = true) ∧
      tokens names (markerElement m popup) =
        markerTokens read (Lexer.initial.readAll names (normalizeLines (Text.escape m.summary))) := by
  obtain ⟨read, attributes, -, element⟩ := exists_tokens_startTag sound (keys_markerAttributes m popup)
    (quote_not_mem_markerAttributes m popup)
  have absent : '<' ∉ normalizeLines (Text.escape m.summary) := by
    intro member
    rcases Html.mem_normalizeLines member with new | inside
    · exact absurd new (by decide)
    · rcases Text.mem_escape inside with ampersand | ⟨plain, -⟩
      · exact absurd ampersand (by decide)
      · exact absurd plain (by decide)
  obtain ⟨summary, alone, texts⟩ := @Html.InText.readAll names _ .data _ absent
  have closes := @Html.closes_of_not_mem names _ absent ')' (by decide) (by decide)
    fun seen => Html.continuesReference_of_outside sound seen (by decide)
  have ending := closes.append (Html.closes_endTag (by decide : Html.isMarkupName divName = true))
  obtain ⟨last, all⟩ := element (Text.escape m.summary ++ ([')'] ++ Html.endTag divName)) (by decide)
    closes_markerFrame
  have normal : normalizeLines (Text.escape m.summary ++ ([')'] ++ Html.endTag divName)) =
      normalizeLines (Text.escape m.summary) ++ [')'] ++ Html.endTag divName := by
    rw [Html.normalizeLines_append _ (by decide), List.append_assoc]
    rfl
  refine ⟨read, attributes, ?_, ?_⟩
  · rw [Lexer.initial, alone]
    exact texts
  · rw [normal, ending.yields.readAll_eq] at all
    rw [markerElement_eq, all]
    simp [markerTokens, Html.charToken, spanName, numberAttributes, constant]

/-- A value that means nothing else is read as it is written. -/
theorem eq_of_valueRead_plain {written value : Text} (plain : ∀ c ∈ written, Html.isPlainInValue c = true ∧ c ≠ '\r')
    (here : ValueRead names (normalizeLines written) value) : value = written := by
  have absent : '\r' ∉ written := fun member => (plain '\r' member).2 rfl
  rw [Html.normalizeLines_eq_self absent] at here
  exact Html.valueRead_unique here (Html.valueRead_plain fun c member => (plain c member).1)

/-- A word of a template is read as it is written. -/
theorem eq_of_valueRead_word {written value : Text}
    (plain : (written.all fun c => Html.isPlainInValue c && c != '\r') = true)
    (here : ValueRead names (normalizeLines written) value) : value = written := by
  refine eq_of_valueRead_plain (fun c member => ?_) here
  simpa using List.all_eq_true.mp plain c member

/-- A position is read as it is written. -/
theorem eq_of_valueRead_fixed {x : Binary64} {value : Text}
    (here : ValueRead names (normalizeLines (x.fixed 6)) value) : value = x.fixed 6 := by
  refine eq_of_valueRead_plain (fun c member => ?_) here
  have inside := Binary64.isNumberChar_of_mem_fixed member
  have other {d : Char} (outside : isNumberChar d = false) : c ≠ d := by
    rintro rfl
    simp [outside] at inside
  simp [Html.isPlainInValue, @other '"' (by decide), @other '&' (by decide), @other (Char.ofNat 0) (by decide),
    @other '\r' (by decide)]

/-- The attributes of a marker are read as what its texts are read as. -/
theorem exists_readFrom (attributes : AttributesRead names ((markerAttributes m popup).map normalAttribute) read) :
    ∃ texts : MarkerTexts, texts.ReadFrom names m popup ∧ read = readAttributes m texts := by
  have source : (m.source.name.all fun c => Html.isPlainInValue c && c != '\r') = true := by
    cases m.source <;> decide
  have color : (m.color.name.all fun c => Html.isPlainInValue c && c != '\r') = true := by
    cases m.color <;> decide
  cases attributes with | cons kind attributes =>
  cases attributes with | cons sourceRead attributes =>
  cases attributes with | cons address attributes =>
  cases attributes with | cons latitude attributes =>
  cases attributes with | cons longitude attributes =>
  cases attributes with | cons icon attributes =>
  cases attributes with | cons colorRead attributes =>
  cases attributes with | cons text attributes =>
  cases attributes
  obtain rfl := eq_of_valueRead_word (by decide) kind
  obtain rfl := eq_of_valueRead_word source sourceRead
  obtain rfl := eq_of_valueRead_fixed latitude
  obtain rfl := eq_of_valueRead_fixed longitude
  obtain rfl := eq_of_valueRead_word color colorRead
  exact ⟨⟨_, _, _, _⟩, ⟨address, icon, text, rfl⟩, rfl⟩

/-! ### What is built -/

/-- The element of a marker is opened. -/
theorem accept_open : Builder.initial.accept (.startTag ⟨divName, read⟩) = (insideMarker read [] false, none) :=
  rfl

/-- A character is put into it. -/
theorem accept_char (c : Char) : (insideMarker read children numbered).accept (.char c) =
    (insideMarker read (.char c :: children) numbered, none) := by
  cases numbered <;> rfl

/-- A NUL character is passed over. -/
theorem accept_nul :
    (insideMarker read children numbered).accept .nul = (insideMarker read children numbered, none) := by
  cases numbered <;> rfl

/-- So is a fault of the markup. -/
theorem accept_fault :
    (insideMarker read children numbered).accept .fault = (insideMarker read children numbered, none) := by
  cases numbered <;> rfl

/-- The element for the number is put into it. -/
theorem accepts_number : (insideMarker read children false).Accepts
    [.startTag ⟨spanName, numberAttributes⟩, .endTag spanName] (insideMarker read (.element 2 :: children) true) := by
  have opened : ((insideMarker read children false).accept (.startTag ⟨spanName, numberAttributes⟩)).2 = none := rfl
  exact .cons (Prod.ext rfl opened) (Builder.accepts_singleton rfl)

/-- The element of the marker is closed. -/
theorem accept_close :
    (insideMarker read children true).accept (.endTag divName) = (behindMarker read children, none) :=
  rfl

/-- Texts are put into the element character by character. -/
theorem accepts_texts {given : List Token} (texts : ∀ token ∈ given, token.isText = true) :
    (insideMarker read children numbered).Accepts given
      (insideMarker read ((shownText given).reverse.map .char ++ children) numbered) := by
  induction given generalizing children with
  | nil => exact .nil _
  | cons token rest inductionHypothesis =>
    obtain ⟨here, later⟩ := List.forall_mem_cons.mp texts
    cases token with
    | char c =>
      refine .cons (accept_char c) ?_
      simpa [shownText] using @inductionHypothesis (.char c :: children) later
    | nul => exact .cons accept_nul (inductionHypothesis later)
    | fault => exact .cons accept_fault (inductionHypothesis later)
    | startTag tag => cases here
    | endTag name => cases here
    | comment content => cases here

/-- Characters are shown. -/
theorem shownText_chars (text : Text) : shownText (Lexer.chars text) = text := by
  induction text with
  | nil => rfl
  | cons c rest inductionHypothesis => exact congrArg (c :: ·) inductionHypothesis

/-- Characters are texts. -/
theorem isText_chars (text : Text) : ∀ token ∈ Lexer.chars text, token.isText = true := by
  intro token member
  obtain ⟨c, -, rfl⟩ := List.mem_map.mp member
  rfl

/-- The children of a marker's element, the last one first. -/
def markerChildren (summary : Text) : List Child :=
  (" (".toList ++ summary ++ [')']).reverse.map .char ++ .element 2 :: "Marker ".toList.reverse.map .char

/-- The tokens of a marker's element build it. -/
theorem accepts_markerTokens {position : List Token} (texts : ∀ token ∈ position, token.isText = true) :
    Builder.initial.Accepts (markerTokens read position) (behindMarker read (markerChildren (shownText position))) := by
  have label : (insideMarker read [] false).Accepts (Lexer.chars "Marker ".toList)
      (insideMarker read ("Marker ".toList.reverse.map .char) false) := by
    simpa [shownText_chars] using @accepts_texts read [] false _ (isText_chars "Marker ".toList)
  have inBrackets : ∀ token ∈ Lexer.chars " (".toList ++ position ++ [.char ')'], token.isText = true := by
    intro token member
    rw [List.append_assoc, List.mem_append, List.mem_append, List.mem_singleton] at member
    rcases member with front | inside | rfl
    · exact isText_chars _ token front
    · exact texts token inside
    · rfl
  have shown : shownText (Lexer.chars " (".toList ++ position ++ [.char ')']) =
      " (".toList ++ shownText position ++ [')'] := by
    rw [shownText, List.filterMap_append, List.filterMap_append]
    rfl
  have brackets := @accepts_texts read (.element 2 :: "Marker ".toList.reverse.map .char) true _ inBrackets
  rw [shown] at brackets
  refine .cons accept_open (Builder.accepts_append.mpr ⟨_, label, ?_⟩)
  refine Builder.accepts_append.mpr ⟨_, accepts_number, ?_⟩
  exact Builder.accepts_append.mpr ⟨_, brackets, Builder.accepts_singleton accept_close⟩

/-! ### The tree -/

/-- Characters in a row are a text of their own, in front of an element or of nothing. -/
theorem foldr_consChar {text : Text} (some_ : text ≠ []) {behind : List Node}
    (apart : ∀ content rest, behind ≠ .text content :: rest) :
    text.foldr Forest.consChar behind = .text text :: behind := by
  induction text with
  | nil => exact absurd rfl some_
  | cons c rest inductionHypothesis =>
    cases rest with
    | nil =>
      cases behind with
      | nil => rfl
      | cons node others =>
        cases node with
        | text content => exact absurd rfl (apart content others)
        | comment content => rfl
        | element name attributes children => rfl
    | cons d others => rw [List.foldr_cons, inductionHypothesis (List.cons_ne_nil d others), Forest.consChar]

/-- Such children are made into the text. -/
theorem foldl_consChild_chars (treeOf : Nat → Node) (text : Text) (behind : List Node) :
    (text.reverse.map Child.char).foldl (Forest.consChild treeOf) behind = text.foldr Forest.consChar behind := by
  rw [List.foldl_map, List.foldl_reverse]
  rfl

/-- The children are made into the content of a marker's node. -/
theorem foldl_markerChildren {treeOf : Nat → Node} (number : treeOf 2 = .element spanName numberAttributes [])
    (summary : Text) : (markerChildren summary).foldl (Forest.consChild treeOf) [] =
      [.text "Marker ".toList, .element spanName numberAttributes [], .text (" (".toList ++ summary ++ [')'])] := by
  have position : (" (".toList ++ summary ++ [')']).foldr Forest.consChar [] =
      [.text (" (".toList ++ summary ++ [')'])] := foldr_consChar (by simp) (by simp)
  rw [markerChildren, List.foldl_append, foldl_consChild_chars, position, List.foldl_cons, Forest.consChild, number,
    foldl_consChild_chars]
  exact foldr_consChar (by decide) (by simp)

/-- The tree behind the element of a marker. -/
theorem childTrees_behindMarker (summary : Text) :
    (behindMarker read (markerChildren summary)).finish.forest.childTrees 0 =
      [.element divName read
        [.text "Marker ".toList, .element spanName numberAttributes [], .text (" (".toList ++ summary ++ [')'])]] := by
  rw [← @foldl_markerChildren ((behindMarker read (markerChildren summary)).forest.tree 2) rfl summary]
  rfl

/-! ### What is written -/

/-- All attributes of a marker are kept, in the order of their names. -/
theorem keptAttributes_readAttributes (m : Marker) (texts : MarkerTexts) :
    Html.keptAttributes [] (readAttributes m texts) =
      (orderedAttributes m texts).map fun entry => (entry.1, Text.encode entry.2) :=
  rfl

/-- The attribute of the number is kept. -/
theorem keptAttributes_numberAttributes : Html.keptAttributes [] numberAttributes = numberAttributes := by
  decide

/-- An element with content that may be written is written around its content. -/
theorem cleanNode_full {name : Text} {own : List Text} (kept : name ∉ Html.droppedElements)
    (allowed : Html.ownAttributes? name = some own) (full : name ∉ Html.voidElements)
    (attributes : List (Text × Text)) (children : List Node) : Html.cleanNode (.element name attributes children) =
      Html.startTag name (Html.keptAttributes own attributes) ++ Html.cleanNodes children ++ Html.endTag name := by
  rw [Html.cleanNode, if_neg (by simpa using kept), allowed]
  exact if_neg (by simpa using full)

/-- Everything in the element of a marker is kept. -/
theorem cleanNodes_markerNode (m : Marker) (texts : MarkerTexts) :
    Html.cleanNodes [markerNode m texts] = cleanMarker m texts := by
  have label : Text.encode "Marker ".toList = "Marker ".toList := by decide
  have position : Text.encode (" (".toList ++ texts.summary ++ [')']) =
      " (".toList ++ Text.encode texts.summary ++ [')'] := by
    rw [Text.encode_append, Text.encode_append]
    rfl
  have number : Html.cleanNode (.element spanName numberAttributes []) =
      Html.startTag spanName numberAttributes ++ Html.endTag spanName := by
    rw [cleanNode_full (by decide) (by decide : _ = some []) (by decide), keptAttributes_numberAttributes,
      Html.cleanNodes, List.append_nil]
  have written (content : Text) : Html.cleanNode (.text content) = Text.encode content := by
    rw [Html.cleanNode]
  rw [markerNode, Html.cleanNodes, cleanNode_full (by decide) (by decide : _ = some []) (by decide),
    keptAttributes_readAttributes]
  simp only [Html.cleanNodes, number, written, label, position]
  simp only [cleanMarker, List.append_assoc, List.append_nil]

/-- The element of a marker survives cleaning, whatever its texts are: a reader finds one element with the attributes of
the marker, its number and its position, and the clean markup is this element with every text encoded as it was read and
the attributes in the order of their names. -/
theorem sanitizeWith_markerElement (sound : Sound names) (m : Marker) (popup : Text) :
    ∃ texts : MarkerTexts, texts.ReadFrom names m popup ∧
      Html.parseFragmentWith names (markerElement m popup) = [markerNode m texts] ∧
      Html.sanitizeWith names (markerElement m popup) = cleanMarker m texts := by
  obtain ⟨read, attributes, position, all⟩ := exists_tokens_markerElement sound m popup
  obtain ⟨texts, readFrom, rfl⟩ := exists_readFrom attributes
  have accepts := @accepts_markerTokens (readAttributes m texts) _ position
  rw [← all] at accepts
  have parsed : Html.parseFragmentWith names (markerElement m popup) = [markerNode m texts] := by
    rw [Html.parseFragmentWith_of_accepts accepts, childTrees_behindMarker, ← readFrom.summary]
    rfl
  refine ⟨texts, readFrom, parsed, ?_⟩
  rw [Html.sanitizeWith, parsed, cleanNodes_markerNode]

/-- The texts of a marker are read in one way. -/
theorem MarkerTexts.ReadFrom.unique {other : MarkerTexts} (one : texts.ReadFrom names m popup)
    (two : other.ReadFrom names m popup) : texts = other := by
  obtain ⟨address, icon, popup, summary⟩ := texts
  obtain ⟨otherAddress, otherIcon, otherPopup, otherSummary⟩ := other
  obtain rfl := Html.valueRead_unique one.address two.address
  obtain rfl := Html.valueRead_unique one.icon two.icon
  obtain rfl := Html.valueRead_unique one.popup two.popup
  obtain rfl : summary = otherSummary := one.summary.trans two.summary.symm
  rfl

/-- A marker whose address is made to break out of its attribute, with a reference in it. -/
def scriptMarker : Marker :=
  { Marker.ofAttributes OrderedMap.empty with address := "\"><script>&lt;".toList }

/-- The reference is decoded by the reader and written again, and so are the reserved characters. -/
theorem sanitizeWith_scriptMarker : Sound Html.namedReferences ∧
    Html.sanitizeWith Html.namedReferences (markerElement scriptMarker "a\r\nb".toList) =
      cleanMarker scriptMarker ⟨"\"><script><".toList, [], "a\nb".toList, "\"><script><".toList⟩ := by
  obtain ⟨texts, readFrom, -, clean⟩ :=
    sanitizeWith_markerElement Html.sound_namedReferences scriptMarker "a\r\nb".toList
  have expected : MarkerTexts.ReadFrom Html.namedReferences scriptMarker "a\r\nb".toList
      ⟨"\"><script><".toList, [], "a\nb".toList, "\"><script><".toList⟩ := by
    constructor
    · intro lastStart draft name
      rfl
    · intro lastStart draft name
      rfl
    · intro lastStart draft name
      rfl
    · rfl
  obtain rfl := readFrom.unique expected
  exact ⟨Html.sound_namedReferences, clean⟩

end
end MapEmbed.Page
