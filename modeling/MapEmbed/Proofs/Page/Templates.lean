import MapEmbed.Proofs.Html.Clean
import MapEmbed.Proofs.Page.MarkerData

/-!
# What readers get of the elements of maps and markers

The element of a map is one start tag with the attributes of the map, the container, and the wrapper with the content
of the map as it was given; that of a marker is one start tag with its attributes, and its number and its position as
readers see it. No text that an author chose ends a value or opens a tag.
-/

namespace MapEmbed.Page

open Html (ReferenceTable Sound AttributesRead ValueRead Token Lexer tokens normalAttribute normalizeLines)

/-- The attributes of the container of a map. -/
def containerAttributes (b : MapBlock) : List (Text × Text) :=
  [("class".toList, "sbs_openstreetmap_container".toList),
    ("style".toList, "padding-bottom: ".toList ++ Text.ofInt b.height ++ ['%'])]

/-- The attributes of the wrapper around the content of a map. -/
def wrapperAttributes : List (Text × Text) :=
  [("class".toList, "marker_list".toList)]

/-- The end of a map's element, behind its content. -/
def closings : Text := "</div></div>".toList

/-- The names of the attributes of a marker's element, in the order in which they are written. -/
def markerKeys : List Text :=
  ["class".toList, "data-marker-source".toList, "data-marker-address".toList, "data-marker-latitude".toList,
    "data-marker-longitude".toList, "data-marker-icon".toList, "data-marker-color".toList, "data-marker-text".toList]

variable {names : ReferenceTable}

/-! ### Values -/

/-- The attributes of a marker have distinct names, written with small letters and dashes. -/
theorem keys_markerAttributes (m : Marker) (popup : Text) :
    (∀ entry ∈ markerAttributes m popup, Html.isMarkupName entry.1 = true) ∧
      ((markerAttributes m popup).map Prod.fst).Nodup := by
  have listed : (markerAttributes m popup).map Prod.fst = markerKeys := rfl
  exact ⟨isMarkupName_of_keys listed (by decide), listed ▸ (by decide)⟩

/-- No value of an attribute of a marker holds a double quote. -/
theorem quote_not_mem_markerAttributes (m : Marker) (popup : Text) :
    ∀ entry ∈ markerAttributes m popup, '"' ∉ entry.2 := by
  have source : '"' ∉ m.source.name := by
    cases m.source <;> decide
  have color : '"' ∉ m.color.name := by
    cases m.color <;> decide
  simp only [markerAttributes, List.forall_mem_cons, authored, constant]
  exact ⟨by decide, source, Text.quote_not_mem_escape _, quote_not_mem_fixed _, quote_not_mem_fixed _,
    Text.quote_not_mem_escape _, color, Text.quote_not_mem_escape _, by simp⟩

/-- The attributes of the container are read as they are written. -/
theorem containerAttributes_read (b : MapBlock) :
    AttributesRead names (containerAttributes b) (containerAttributes b) := by
  refine .cons (Html.valueRead_plain ?_) (.cons (Html.valueRead_plain ?_) .nil)
  · exact List.all_eq_true.mp (by decide)
  · intro c member
    simp only [List.mem_append, List.mem_singleton] at member
    rcases member with (label | number) | rfl
    · exact List.all_eq_true.mp (by decide : "padding-bottom: ".toList.all Html.isPlainInValue = true) c label
    · have inside := Text.isNumberChar_of_mem_ofInt number
      have other {d : Char} (outside : isNumberChar d = false) : c ≠ d := by
        rintro rfl
        simp [outside] at inside
      simp [Html.isPlainInValue, @other '"' (by decide), @other '&' (by decide), @other (Char.ofNat 0) (by decide)]
    · decide

/-- The wrapper's attribute is read as it is written. -/
theorem wrapperAttributes_read : AttributesRead names wrapperAttributes wrapperAttributes :=
  .cons (Html.valueRead_plain (List.all_eq_true.mp (by decide))) .nil

/-- The element of a map around its content. -/
theorem mapElement_eq (b : MapBlock) (inner : Text) : mapElement b inner =
    Html.startTag divName (mapAttributes b) ++ (Html.startTag divName (containerAttributes b) ++ Html.endTag divName ++
      Html.startTag divName wrapperAttributes ++ (inner ++ closings)) := by
  simp only [mapElement, List.append_assoc]
  rfl

/-- What stands between the attributes of a map and its content. -/
def mapFrame (b : MapBlock) : Text :=
  Html.startTag divName (containerAttributes b) ++ Html.endTag divName ++ Html.startTag divName wrapperAttributes

/-- What stands between the attributes of a marker and its position. -/
def markerFrame : Text :=
  "Marker ".toList ++ Html.startTag "span".toList [("class".toList, "marker_number".toList)] ++
    Html.endTag "span".toList ++ " (".toList

/-- The element of a marker around its position. -/
theorem markerElement_eq (m : Marker) (popup : Text) : markerElement m popup =
    Html.startTag divName (markerAttributes m popup) ++
      (markerFrame ++ (Text.escape m.summary ++ ([')'] ++ Html.endTag divName))) := by
  unfold markerElement markerFrame constant
  simp only [List.append_assoc]

/-- The frame of a map has no line ends. -/
theorem return_not_mem_mapFrame (b : MapBlock) : '\r' ∉ mapFrame b := by
  have number : '\r' ∉ Text.ofInt b.height := by
    intro member
    exact absurd (Text.isNumberChar_of_mem_ofInt member) (by decide)
  have written : mapFrame b =
      "<div class=\"sbs_openstreetmap_container\" style=\"padding-bottom: ".toList ++ (Text.ofInt b.height ++
        "%\"></div><div class=\"marker_list\">".toList) := by
    simp [mapFrame, containerAttributes, wrapperAttributes, Html.startTag, Html.endTag, divName]
  rw [written, List.mem_append, List.mem_append, not_or, not_or]
  exact ⟨by decide, number, by decide⟩

/-- The frame of a map is read as it is written. -/
theorem closes_mapFrame (b : MapBlock) : Html.Closes names (mapFrame b)
    [.startTag ⟨divName, containerAttributes b⟩, .endTag divName, .startTag ⟨divName, wrapperAttributes⟩] := by
  have containerKeys : (containerAttributes b).map Prod.fst = ["class".toList, "style".toList] := rfl
  have container : Html.Closes names (Html.startTag divName (containerAttributes b))
      [.startTag ⟨divName, containerAttributes b⟩] :=
    Html.closes_startTag (by decide) (isMarkupName_of_keys containerKeys (by decide)) (containerKeys ▸ by decide)
      (containerAttributes_read b)
  have wrapper : Html.Closes names (Html.startTag divName wrapperAttributes) [.startTag ⟨divName, wrapperAttributes⟩] :=
    Html.closes_startTag (by decide) (isMarkupName_of_keys rfl (by decide)) (by decide) wrapperAttributes_read
  exact (container.append (Html.closes_endTag (by decide))).append wrapper

/-- The frame of a marker is read as it is written. -/
theorem closes_markerFrame : Html.Closes names markerFrame (Lexer.chars "Marker ".toList ++
    [.startTag ⟨"span".toList, [("class".toList, "marker_number".toList)]⟩, .endTag "span".toList] ++
    Lexer.chars " (".toList) := by
  have label : Html.Closes names "Marker ".toList (Lexer.chars "Marker ".toList) :=
    Html.closes_plainText (by decide) (by decide)
  have bracket : Html.Closes names " (".toList (Lexer.chars " (".toList) :=
    Html.closes_plainText (by decide) (by decide)
  have number : Html.Closes names (Html.startTag "span".toList [("class".toList, "marker_number".toList)])
      [.startTag ⟨"span".toList, [("class".toList, "marker_number".toList)]⟩] := by
    apply Html.closes_startTag (by decide) (isMarkupName_of_keys rfl (by decide)) (by decide)
    exact .cons (Html.valueRead_plain (List.all_eq_true.mp (by decide))) .nil
  have ended : Html.Closes names (Html.endTag "span".toList) [.endTag "span".toList] := Html.closes_endTag (by decide)
  have all := (label.append (number.append ended)).append bracket
  rw [← List.append_assoc "Marker ".toList] at all
  exact all

/-! ### Elements -/

/-- The start tag of a map or a marker is read as one tag with its attributes, and what follows it on its own. -/
theorem exists_tokens_startTag (sound : Sound names) {attributes : List (Text × Text)}
    (keys : (∀ entry ∈ attributes, Html.isMarkupName entry.1 = true) ∧ (attributes.map Prod.fst).Nodup)
    (absent : ∀ entry ∈ attributes, '"' ∉ entry.2) :
    ∃ got, AttributesRead names (attributes.map normalAttribute) got ∧ got.map Prod.fst = attributes.map Prod.fst ∧
      ∀ (back : Text) {front : Text} {given : List Token}, '\r' ∉ front → Html.Closes names front given →
        ∃ last, tokens names (Html.startTag divName attributes ++ (front ++ back)) =
          .startTag ⟨divName, got⟩ :: given ++ Lexer.readAll names ⟨Lexer.dataState, last⟩ (normalizeLines back) := by
  obtain ⟨named, distinct⟩ := keys
  obtain ⟨got, read, closes⟩ := @Html.exists_closes_startTag names sound divName attributes (by decide) named distinct
    absent
  refine ⟨got, read, ?_, ?_⟩
  · rw [read.keys, Html.keys_normalAttribute]
  · intro back front given plain frame
    have unmarked : Html.withoutMark (Html.startTag divName attributes ++ (front ++ back)) =
        Html.startTag divName attributes ++ (front ++ back) := rfl
    obtain ⟨last, all⟩ := (closes.append frame).readAll_append [] (normalizeLines back)
    refine ⟨last, ?_⟩
    rw [tokens, unmarked, Html.normalizeLines_startTag (by decide) named, Html.normalizeLines_append_plain plain,
      ← List.append_assoc]
    exact all

/-- No text of a map's element that an author chose ends a value or opens a tag, nor does one of a marker's element:
the element of a map is read as a start tag with the attributes of the map, the container, and the wrapper around the
content as it was given; that of a marker as a start tag with its attributes, its number, and texts. Coordinates are
finite and indices are positions or absent, by the types of maps and markers. -/
theorem tokens_elements (sound : Sound names) :
    (∀ b inner, ∃ got last,
      AttributesRead names ((mapAttributes b).map normalAttribute) got ∧ got.map Prod.fst = mapKeys ∧
      mapElement b inner = Html.startTag divName (mapAttributes b) ++ (Html.startTag divName (containerAttributes b) ++
        Html.endTag divName ++ Html.startTag divName wrapperAttributes ++ (inner ++ closings)) ∧
      tokens names (mapElement b inner) =
        [.startTag ⟨divName, got⟩, .startTag ⟨divName, containerAttributes b⟩, .endTag divName,
          .startTag ⟨divName, wrapperAttributes⟩] ++
        Lexer.readAll names ⟨Lexer.dataState, last⟩ (normalizeLines (inner ++ closings))) ∧
    ∀ m popup, ∃ got summary,
      AttributesRead names ((markerAttributes m popup).map normalAttribute) got ∧ got.map Prod.fst = markerKeys ∧
      '<' ∉ Text.escape m.summary ∧ (∀ token ∈ summary, token.isText = true) ∧
      tokens names (markerElement m popup) =
        [.startTag ⟨divName, got⟩] ++ Lexer.chars "Marker ".toList ++
        [.startTag ⟨"span".toList, [("class".toList, "marker_number".toList)]⟩, .endTag "span".toList] ++
        Lexer.chars " (".toList ++ summary ++ [.endTag divName] := by
  constructor
  · intro b inner
    obtain ⟨got, read, keys, element⟩ := exists_tokens_startTag sound (keys_mapAttributes b)
      (quote_not_mem_mapAttributes b)
    obtain ⟨last, all⟩ := element (inner ++ closings) (return_not_mem_mapFrame b) (closes_mapFrame b)
    refine ⟨got, last, read, keys, mapElement_eq b inner, ?_⟩
    rw [mapElement_eq]
    exact all
  · intro m popup
    obtain ⟨got, read, keys, element⟩ := exists_tokens_startTag sound (keys_markerAttributes m popup)
      (quote_not_mem_markerAttributes m popup)
    have absent : '<' ∉ Text.escape m.summary := by
      intro member
      rcases Text.mem_escape member with ampersand | ⟨plain, -⟩
      · exact absurd ampersand (by decide)
      · exact absurd plain (by decide)
    have absent' : '<' ∉ normalizeLines (Text.escape m.summary) := by
      intro member
      rcases Html.mem_normalizeLines member with new | inside
      · exact absurd new (by decide)
      · exact absent inside
    obtain ⟨summary, closes, texts⟩ := @Html.exists_closes_of_not_mem names _ absent' ')' (by decide) (by decide)
      fun seen => Html.continuesReference_of_outside sound seen (by decide)
    have ending : Html.Closes names (normalizeLines (Text.escape m.summary) ++ [')'] ++ Html.endTag divName)
        (summary ++ [.endTag divName]) := closes.append (Html.closes_endTag (by decide))
    obtain ⟨last, all⟩ := element (Text.escape m.summary ++ ([')'] ++ Html.endTag divName))
      (by decide) closes_markerFrame
    have normal : normalizeLines (Text.escape m.summary ++ ([')'] ++ Html.endTag divName)) =
        normalizeLines (Text.escape m.summary) ++ [')'] ++ Html.endTag divName := by
      rw [Html.normalizeLines_append _ (by decide), List.append_assoc]
      rfl
    rw [normal, ending.yields.readAll_eq] at all
    refine ⟨got, summary, read, keys, absent, texts, ?_⟩
    rw [markerElement_eq, all]
    simp

/-- Around clean content the element of a map is closed by its own end tags: the content is allowed markup, and what
follows it are the two end tags of the element. -/
theorem tokens_mapElement_clean (sound : Sound names) (b : MapBlock) {nodes : List Html.Node}
    (named : ∀ node ∈ nodes, node.Named) : ∃ got given, got.map Prod.fst = mapKeys ∧ Html.AllowedMarkup given ∧
      tokens names (mapElement b (Html.cleanNodes nodes)) =
        [.startTag ⟨divName, got⟩, .startTag ⟨divName, containerAttributes b⟩, .endTag divName,
          .startTag ⟨divName, wrapperAttributes⟩] ++ given ++ [.endTag divName, .endTag divName] := by
  obtain ⟨got, read, keys, element⟩ := exists_tokens_startTag sound (keys_mapAttributes b)
    (quote_not_mem_mapAttributes b)
  obtain ⟨last, all⟩ := element (Html.cleanNodes nodes ++ closings) (return_not_mem_mapFrame b) (closes_mapFrame b)
  let given := (Html.normalTokens (Html.emittedNodes nodes)).map Token.reread
  have writable : ∀ token ∈ Html.normalTokens (Html.emittedNodes nodes), token.Writable := by
    intro token member
    obtain ⟨old, listed, rfl⟩ := Html.exists_of_mem_normalTokens member
    exact (Html.writable_emittedNodes nodes named old listed).normal
  have content : Html.Yields names (normalizeLines (Html.cleanNodes nodes)) given := by
    rw [← Html.writeTokens_emittedNodes, Html.normalizeLines_writeTokens (Html.writable_emittedNodes nodes named)]
    exact Html.yields_writeTokens sound writable
  have one : Html.Closes names (Html.endTag divName) [.endTag divName] := Html.closes_endTag (by decide)
  have ended : Html.Closes names closings [.endTag divName, .endTag divName] := one.append one
  have normal : normalizeLines (Html.cleanNodes nodes ++ closings) = normalizeLines (Html.cleanNodes nodes) ++ closings := by
    rw [Html.normalizeLines_append _ (by decide)]
    rfl
  refine ⟨got, given, keys, (Html.allowedMarkup_emittedNodes nodes).normalTokens.reread, ?_⟩
  rw [normal, (content.append_closes ended).yields.readAll_eq] at all
  rw [mapElement_eq]
  simpa [mapFrame] using all

/-- An address with a quote and a script in it stays in the values of the element's first tag. -/
theorem tokens_mapElement_script : ∃ got rest,
    tokens Html.namedReferences (mapElement (blockAt "\"><script>".toList) "text".toList) =
      .startTag ⟨divName, got⟩ :: rest ∧ got.map Prod.fst = mapKeys := by
  obtain ⟨got, last, -, keys, -, all⟩ :=
    (tokens_elements Html.sound_namedReferences).1 (blockAt "\"><script>".toList) "text".toList
  exact ⟨got, _, all, keys⟩

end MapEmbed.Page
