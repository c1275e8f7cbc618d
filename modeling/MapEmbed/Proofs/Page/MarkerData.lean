import MapEmbed.Page.Element
import MapEmbed.Proofs.Html.StartTags
import MapEmbed.Proofs.Json.Strings

/-!
# The marker list on its way through an attribute

A map's element carries its markers as data in an attribute. The data is escaped as an author's text is, which
leaves the character references in it alone, although every ampersand of data is an ampersand. So who reads the
attribute gets the same data exactly when no text of a marker holds a reference that readers decode.
-/

namespace MapEmbed.Page

open Html (ReferenceTable Sound HoldsReference RereadAs attributeValue?)

/-- The name of the attribute with the markers. -/
def markerListName : Text := "data-marker-list".toList

/-- The texts of a marker that authors are free to choose. -/
def freeTexts (m : Marker) : List Text :=
  [m.address, m.icon] ++ m.text.toList

variable {names : ReferenceTable}

/-! ### The attributes of a map's element -/

/-- The names of the attributes of a map's element, in the order in which they are written. -/
def mapKeys : List Text :=
  ["id".toList, "class".toList, "data-map-style".toList, "data-map-style-key".toList, "data-zoom".toList,
    "data-ctrl-mouse-zoom".toList, "data-latitude".toList, "data-longitude".toList, "data-routing".toList,
    "data-destination-marker".toList, "data-router".toList, "data-router-key".toList, "data-show-attribution".toList,
    "data-geocoder".toList, "data-geocoder-key".toList, "data-center-marker".toList, "data-marker-list".toList]

/-- Attributes whose names are listed, each written as names are, have names that are written so. -/
theorem isMarkupName_of_keys {attributes : List (Text × Text)} {keys : List Text}
    (listed : attributes.map Prod.fst = keys) (named : keys.all Html.isMarkupName = true) :
    ∀ entry ∈ attributes, Html.isMarkupName entry.1 = true := by
  intro entry member
  have known : entry.1 ∈ keys := listed ▸ List.mem_map.mpr ⟨entry, member, rfl⟩
  exact List.all_eq_true.mp named entry.1 known

/-- All maps have the same attributes. -/
theorem fst_mapAttributes (b : MapBlock) : (mapAttributes b).map Prod.fst = mapKeys :=
  rfl

/-- The attributes have distinct names, written with small letters and dashes. -/
theorem keys_mapAttributes (b : MapBlock) : (∀ entry ∈ mapAttributes b, Html.isMarkupName entry.1 = true) ∧
    ((mapAttributes b).map Prod.fst).Nodup :=
  ⟨isMarkupName_of_keys (fst_mapAttributes b) (by decide), fst_mapAttributes b ▸ (by decide)⟩

/-- No number holds a double quote. -/
theorem quote_not_mem_number {text : Text} (all : ∀ c ∈ text, isNumberChar c = true) : '"' ∉ text := by
  intro member
  exact absurd (all '"' member) (by decide)

/-- Nor does a position. -/
theorem quote_not_mem_fixed (x : Binary64) : '"' ∉ x.fixed 6 :=
  quote_not_mem_number fun _ member => Binary64.isNumberChar_of_mem_fixed member

/-- No value of an attribute holds a double quote. -/
theorem quote_not_mem_mapAttributes (b : MapBlock) : ∀ entry ∈ mapAttributes b, '"' ∉ entry.2 := by
  have integer (value : Int) : '"' ∉ Text.ofInt value :=
    quote_not_mem_number fun _ member => Text.isNumberChar_of_mem_ofInt member
  have truth (value : Bool) : '"' ∉ Text.ofBool value := by
    cases value <;> decide
  simp only [mapAttributes, List.forall_mem_cons, authored, constant]
  exact ⟨Text.quote_not_mem_escape _, by decide, Text.quote_not_mem_escape _, Text.quote_not_mem_escape _,
    integer _, truth _, quote_not_mem_fixed _, quote_not_mem_fixed _, truth _, integer _, Text.quote_not_mem_escape _,
    Text.quote_not_mem_escape _, truth _, Text.quote_not_mem_escape _, Text.quote_not_mem_escape _, integer _,
    Text.quote_not_mem_escape _, by simp⟩

/-- Written attributes of the same names show their values, where these hold no double quote. -/
theorem eq_of_writtenAttributes {first second : List (Text × Text)} {rest later : Text}
    (named : first.map Prod.fst = second.map Prod.fst) (unquoted : ∀ entry ∈ first, '"' ∉ entry.2)
    (others : ∀ entry ∈ second, '"' ∉ entry.2)
    (same : first.flatMap Html.writtenAttribute ++ rest = second.flatMap Html.writtenAttribute ++ later) :
    first = second := by
  induction first generalizing second with
  | nil => exact (List.map_eq_nil_iff.mp named.symm).symm
  | cons entry entries inductionHypothesis =>
    obtain ⟨key, value⟩ := entry
    obtain ⟨⟨other, changed⟩, entries', rfl, rfl, tails⟩ := List.map_eq_cons_iff.mp named.symm
    simp only [List.forall_mem_cons] at unquoted others
    simp only [List.flatMap_cons, Html.writtenAttribute, List.append_assoc, List.cons_append, List.nil_append,
      List.cons.injEq, true_and, List.append_cancel_left_eq] at same
    -- The value runs to the first double quote.
    have values : value = changed := by
      rw [← Text.takeWhile_ne_append unquoted.1 (entries.flatMap Html.writtenAttribute ++ rest), same,
        Text.takeWhile_ne_append others.1]
    subst values
    rw [List.append_cancel_left_eq, List.cons.injEq] at same
    rw [inductionHypothesis tails.symm unquoted.2 others.2 same.2]

/-- The elements of two maps are the same only if their attributes are. -/
theorem mapAttributes_of_mapElement_eq {first second : MapBlock} {inner other : Text}
    (same : mapElement first inner = mapElement second other) : mapAttributes first = mapAttributes second := by
  simp only [mapElement, Html.startTag_eq divName (mapAttributes _), List.append_assoc, List.cons_append,
    List.cons.injEq, true_and, List.append_cancel_left_eq] at same
  exact eq_of_writtenAttributes ((fst_mapAttributes first).trans (fst_mapAttributes second).symm)
    (quote_not_mem_mapAttributes first) (quote_not_mem_mapAttributes second) same

/-! ### The data -/

/-- The strings of a marker's data are the texts that its author chose, and words without ampersands. -/
theorem strings_marker (m : Marker) : (∀ text ∈ freeTexts m, text ∈ m.toJson.strings) ∧
    ∀ text ∈ m.toJson.strings, text ∈ freeTexts m ∨ '&' ∉ text := by
  have source : '&' ∉ m.source.name := by
    cases m.source <;> decide
  have color : '&' ∉ m.color.name := by
    cases m.color <;> decide
  have shown : m.toJson.strings = ["marker_source".toList, m.source.name, "marker_address".toList, m.address,
      "marker_latitude".toList, "marker_longitude".toList, "marker_center".toList, "marker_icon".toList, m.icon,
      "marker_color".toList, m.color.name] ++ (m.text.map fun text => ["marker_text".toList, text]).getD [] := by
    cases text : m.text <;> simp [Marker.toJson, Json.record, Json.strings, Json.fieldStrings, text]
  rw [shown]
  constructor
  · intro text member
    rcases List.mem_append.mp member with always | popup
    · rcases List.mem_cons.mp always with rfl | later
      · exact List.mem_append_left _ (List.mem_of_getElem? (i := 3) rfl)
      · rw [List.mem_singleton.mp later]
        exact List.mem_append_left _ (List.mem_of_getElem? (i := 8) rfl)
    · rw [Option.mem_toList] at popup
      apply List.mem_append_right
      simp [Option.mem_def.mp popup]
  · have always : ∀ text ∈ ["marker_source".toList, m.source.name, "marker_address".toList, m.address,
        "marker_latitude".toList, "marker_longitude".toList, "marker_center".toList, "marker_icon".toList, m.icon,
        "marker_color".toList, m.color.name], text ∈ freeTexts m ∨ '&' ∉ text := by
      simp only [List.forall_mem_cons]
      exact ⟨Or.inr (by decide), Or.inr source, Or.inr (by decide), Or.inl (by simp [freeTexts]),
        Or.inr (by decide), Or.inr (by decide), Or.inr (by decide), Or.inr (by decide), Or.inl (by simp [freeTexts]),
        Or.inr (by decide), Or.inr color, by simp⟩
    intro text member
    rcases List.mem_append.mp member with first | popup
    · exact always text first
    · cases chosen : m.text with
      | none => simp [chosen] at popup
      | some word =>
        simp only [chosen, Option.map_some, Option.getD_some, List.mem_cons, List.not_mem_nil, or_false] at popup
        rcases popup with rfl | rfl
        · exact Or.inr (by decide)
        · exact Or.inl (by simp [freeTexts, chosen])

/-- The data of markers holds a reference exactly if a text of a marker does that its author chose. -/
theorem holdsReference_markerData_iff (markers : List Marker) :
    HoldsReference names (markerData markers) ↔ ∃ m ∈ markers, ∃ text ∈ freeTexts m, HoldsReference names text := by
  rw [markerData, Json.holdsReference_compact_iff, Json.strings]
  simp only [Json.mem_itemStrings, List.mem_map]
  constructor
  · rintro ⟨text, ⟨item, ⟨m, member, rfl⟩, inside⟩, holds⟩
    rcases (strings_marker m).2 text inside with free | absent
    · exact ⟨m, member, text, free, holds⟩
    · exact absurd holds (Html.not_holdsReference_of_not_mem absent)
  · rintro ⟨m, member, text, free, holds⟩
    exact ⟨text, ⟨m.toJson, ⟨m, member, rfl⟩, (strings_marker m).1 text free⟩, holds⟩

/-- Who reads a map's element gets a value for its markers. -/
theorem exists_markerData (sound : Sound names) (b : MapBlock) (inner : Text) :
    ∃ value, attributeValue? names (mapElement b inner) markerListName = some value ∧
      RereadAs names (markerData b.markers) value := by
  obtain ⟨named, distinct⟩ := keys_mapAttributes b
  have printable := Json.printable_compact (.array (b.markers.map Marker.toJson))
  have clean : Char.ofNat 0 ∉ markerData b.markers := by
    intro member
    exact absurd (printable (Char.ofNat 0) member) (by decide)
  have ends : '\r' ∉ markerData b.markers := by
    intro member
    exact absurd (printable '\r' member) (by decide)
  have authored : (markerListName, Text.escape (markerData b.markers)) ∈ mapAttributes b :=
    List.mem_of_getElem? (i := 16) rfl
  obtain ⟨rest, element⟩ : ∃ rest, mapElement b inner = Html.startTag divName (mapAttributes b) ++ rest := by
    simp only [mapElement, List.append_assoc]
    exact ⟨_, rfl⟩
  rw [element]
  exact Html.attributeValue?_startTag sound (by decide) named distinct (quote_not_mem_mapAttributes b) authored clean
    ends rest

/-- Who reads a map's element gets the data of its markers exactly when no text that an author chose for a marker
holds a reference that is decoded. -/
theorem attributeValue?_mapElement_iff (sound : Sound names) (b : MapBlock) (inner : Text) :
    attributeValue? names (mapElement b inner) markerListName = some (markerData b.markers) ↔
      ∀ m ∈ b.markers, ∀ text ∈ freeTexts m, ¬HoldsReference names text := by
  obtain ⟨value, found, reread⟩ := exists_markerData sound b inner
  rw [found, Option.some.injEq, reread.same, holdsReference_markerData_iff]
  simp only [not_exists, not_and]

/-- A block with one marker at the given address. -/
def blockAt (address : Text) : MapBlock :=
  MapBlock.ofAttributes OrderedMap.empty [{ Marker.ofAttributes OrderedMap.empty with address }]

/-- An ampersand that starts no reference is read again. -/
theorem attributeValue?_ampersand :
    attributeValue? Html.namedReferences (mapElement (blockAt "R&D".toList) []) markerListName =
      some (markerData (blockAt "R&D".toList).markers) := by
  apply (attributeValue?_mapElement_iff Html.sound_namedReferences (blockAt "R&D".toList) []).mpr
  intro m member text free
  obtain rfl := List.mem_singleton.mp member
  apply Html.not_holdsReference_of_open
  have semicolons : ∀ text ∈ ["R&D".toList, []], ';' ∉ text := by decide
  exact semicolons text free

/-- The reference of a double quote is read as a double quote. -/
theorem attributeValue?_quoteReference :
    attributeValue? Html.namedReferences (mapElement (blockAt "&quot;".toList) []) markerListName ≠
      some (markerData (blockAt "&quot;".toList).markers) := by
  obtain ⟨value, found, reread⟩ := exists_markerData Html.sound_namedReferences (blockAt "&quot;".toList) []
  rw [found]
  intro same
  have complete : Text.ReferenceWord "quot;".toList :=
    @Text.ReferenceWord.name 'q' ['u', 'o', 't'] (by decide) (List.all_eq_true.mp (by decide))
  have decodes : Html.Decodes Html.namedReferences "quot;".toList := ⟨complete, Or.inr (by decide)⟩
  apply reread.same.mp (Option.some.inj same)
  apply (holdsReference_markerData_iff _).mpr
  exact ⟨_, List.mem_singleton.mpr rfl, "&quot;".toList, by decide, "quot;".toList, decodes, List.infix_refl _⟩

end MapEmbed.Page
