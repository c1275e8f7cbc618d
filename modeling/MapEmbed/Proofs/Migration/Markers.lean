import MapEmbed.Proofs.Migration.Rewriting
import MapEmbed.Proofs.Page.Readers
import MapEmbed.Proofs.Shortcode.Enclosing
import MapEmbed.Style.Builtin

/-!
# The markers of a migrated map

Migration puts the content of an old map into a marker shortcode. Shortcodes do not nest: the new marker ends at the
first closing tag of its name, and what stands before that is its text and no longer read for markers. So the markers
of the new content are the new one and those of what follows that closing tag. The markers of the old content are kept
if and only if they are the markers of that.
-/

namespace MapEmbed.Migration
open Shortcode
open Marker (attributeTexts)

/-! ### A content in a marker -/

/-- What follows the marker into which a content is put. The first closing tag of its name in the content ends the
marker, and the closing tag that the marker was given is left over. -/
def behindMarker (tag content : Text) : Text :=
  match splitAtClosing? .ignoring tag content with
  | none => []
  | some (_, _, after) => (takeBracket ']' after).2 ++ '[' :: '/' :: (tag ++ [']'])

/-- Nothing follows the marker if its name is not closed in the content. -/
theorem behindMarker_of_free {tag content : Text} (named : IsName tag) (free : ¬HoldsClosing .ignoring tag content) :
    behindMarker tag content = [] := by
  rw [behindMarker, (splitAtClosing?_eq_none_iff named).mpr free]

/-- The marker as it is read when its content closes it: it ends at that closing tag, whose name may be in capitals. -/
def closedEarly (tag : Text) (attributes : Attributes) (inner written : Text) (after : Bool) : Occurrence where
  brackets := ⟨false, after⟩
  tag := tag
  rawAttributes := (printed tag attributes inner Brackets.none).rawAttributes
  body := .enclosing inner written

section
variable {tag : Text} {attributes : Attributes}

/-- A marker that is closed by its content stands in front of the rest. -/
theorem stands_closedEarly (listed : tag ∈ markerTags) (printable : Printable tag attributes)
    {inner written rest : Text} {after : Bool} (free : splitAtClosing? .ignoring tag inner = none)
    (closes : CaseMode.ignoring.same tag written = true) (ended : after = false → rest.head? ≠ some ']') :
    (closedEarly tag attributes inner written after).Stands .ignoring markerTags rest := by
  have closed : (printed tag attributes inner ⟨false, after⟩).Stands .ignoring markerTags rest :=
    printable.stands ⟨tag, listed, same_self .ignoring tag⟩ free ended
  exact ⟨closed.listed, closed.apart, closed.closed, fun _ => closed.open_ (by simp [printed]), ⟨free, closes⟩, ended⟩

/-- The written marker is that one, the rest of the content, and the closing tag that is left over. -/
theorem print_closedEarly (inner written : Text) (after : Bool) (rest : Text) :
    print tag attributes
        (inner ++ '[' :: '/' :: (written ++ ']' :: ((if after then [']'] else []) ++ rest))) Brackets.none =
      (closedEarly tag attributes inner written after).source ++ (rest ++ '[' :: '/' :: (tag ++ [']'])) := by
  rw [← source_printed]
  unfold Occurrence.source Occurrence.opening Occurrence.afterOpening Body.source closedEarly Brackets.none
  cases after <;> simp [printed]

/-- The markers of a content that was put into a marker are that marker and those that follow it. -/
theorem attributeTexts_print (listed : tag ∈ markerTags) (printable : Printable tag attributes) (content : Text) :
    attributeTexts (print tag attributes content Brackets.none) =
      (printed tag attributes content Brackets.none).rawAttributes :: attributeTexts (behindMarker tag content) := by
  cases split : splitAtClosing? .ignoring tag content with
  | none =>
    have stands : (printed tag attributes content Brackets.none).Stands .ignoring markerTags [] :=
      printable.stands ⟨tag, listed, same_self .ignoring tag⟩ split (by simp)
    have alone := Marker.attributeTexts_source_append stands rfl
    rw [List.append_nil, source_printed] at alone
    rw [alone, behindMarker, split]
  | some found =>
    obtain ⟨inner, written, after⟩ := found
    obtain ⟨free, closes, rfl⟩ := (splitAtClosing?_eq_some_iff printable.named).mp split
    obtain ⟨extra, rest, taken⟩ : ∃ extra rest, takeBracket ']' after = (extra, rest) := ⟨_, _, rfl⟩
    have bracket := takeBracket_append ']' after
    have ended := @head?_takeBracket ']' after
    rw [behindMarker, split]
    simp only [taken] at bracket ended ⊢
    subst bracket
    -- behind the rest of the content stands a closing tag, so no bracket joins the marker there
    have stands : (closedEarly tag attributes inner written extra).Stands .ignoring markerTags
        (rest ++ '[' :: '/' :: (tag ++ [']'])) :=
      stands_closedEarly listed printable free closes fun plain => by
        cases rest with
        | nil => simp
        | cons c others => simpa using ended plain
    rw [print_closedEarly, Marker.attributeTexts_source_append stands rfl]
    rfl

end

/-! ### An old map -/

/-- A map with a marker among its attributes, which the look at its raw text does not miss. -/
structure HoldsMarker (o : Occurrence) (attributes : Attributes) : Prop where
  visible : o.escaped = false
  read : Attributes.parse o.rawAttributes = .ok attributes
  marker : attributes.keys.any isMarkerKey = true
  written : Text.holds markerStart o.rawAttributes = true

/-- The attribute text of the marker that is taken out of a map. -/
def newMarkerText (attributes : Attributes) : Text :=
  if (markerPart attributes).isEmpty then [] else ' ' :: (markerPart attributes).toText

/-- The name of the marker that is taken out of a map. -/
def newMarkerTag (o : Occurrence) : Text :=
  (markerTagFor? o.tag).getD o.tag

/-- The marker of a map gets a marker tag. -/
theorem newMarkerTag_mem {o : Occurrence} (listed : o.tag ∈ mapTags) : newMarkerTag o ∈ markerTags := by
  have every : ∀ tag ∈ mapTags, (markerTagFor? tag).getD tag ∈ markerTags := by decide
  exact every o.tag listed

section
variable {catalog : Catalog} {o : Occurrence} {attributes : Attributes} {rest : Text}

/-- The passes take the marker out of a map that holds one. -/
theorem moved?_of_holdsMarker (holds : HoldsMarker o attributes) :
    ∃ moved, moved? catalog o = some moved ∧ moved.marker = some (markerPart attributes) := by
  have old : mayBeOld o.rawAttributes = true := by simp [mayBeOld, holds.written]
  refine ⟨⟨(moveCredential? catalog (mapPart attributes)).getD (mapPart attributes), some (markerPart attributes)⟩, ?_,
    rfl⟩
  simp [moved?, holds.visible, old, holds.read, move?, splitMarker?, holds.marker]

/-- The markers of a map that held one are that one and those behind it. -/
theorem attributeTexts_currentOccurrence (stands : o.Stands .exact mapTags rest) (holds : HoldsMarker o attributes) :
    attributeTexts (currentOccurrence catalog o).contentText =
      newMarkerText attributes :: attributeTexts (behindMarker (newMarkerTag o) o.contentText) := by
  obtain ⟨moved, result, taken⟩ := @moved?_of_holdsMarker catalog _ _ holds
  have content : (currentOccurrence catalog o).contentText =
      print (newMarkerTag o) (markerPart attributes) o.contentText Brackets.none := by
    rw [currentOccurrence, result]
    simp [rewritten, printed, Occurrence.contentText, Body.content?, movedContent, taken, newMarkerTag]
  have printable : Printable (newMarkerTag o) (markerPart attributes) := printable_moved_marker stands result _ taken
  rw [content, attributeTexts_print (newMarkerTag_mem (mem_of_stands stands)) printable]
  rfl

/-- What migration makes of a map that holds a marker. -/
structure TakesMarkerOut (catalog : Catalog) (o : Occurrence) (attributes : Attributes) : Prop where
  /-- The map is rewritten. -/
  rewritten : migrateOccurrence? catalog o = some (currentOccurrence catalog o).source
  /-- What is written is one map, with the content that it was given. -/
  found : Segmentation.ofText .exact mapTags (currentOccurrence catalog o).source =
    ⟨[([], currentOccurrence catalog o)], []⟩
  /-- First comes the new marker, and behind it the markers of what its closing tag leaves of the old content. -/
  markers : attributeTexts (currentOccurrence catalog o).contentText =
    newMarkerText attributes :: attributeTexts (behindMarker (newMarkerTag o) o.contentText)
  /-- The markers of the old content are kept if and only if they are those. -/
  kept : attributeTexts (currentOccurrence catalog o).contentText =
      newMarkerText attributes :: attributeTexts o.contentText ↔
    attributeTexts (behindMarker (newMarkerTag o) o.contentText) = attributeTexts o.contentText
  /-- If nothing in the old content closes the new marker, it is the only one. -/
  alone : ¬HoldsClosing .ignoring (newMarkerTag o) o.contentText →
    attributeTexts (currentOccurrence catalog o).contentText = [newMarkerText attributes]

/-- Migration takes the marker out of every map that holds one and puts it before the markers that follow it. -/
theorem takesMarkerOut (catalog : Catalog) (stands : o.Stands .exact mapTags rest) (holds : HoldsMarker o attributes) :
    TakesMarkerOut catalog o attributes := by
  obtain ⟨moved, result, taken⟩ := @moved?_of_holdsMarker catalog _ _ holds
  have markers := @attributeTexts_currentOccurrence catalog _ _ _ stands holds
  have current : currentOccurrence catalog o = Migration.rewritten o moved := by rw [currentOccurrence, result]; rfl
  refine ⟨?_, ?_, markers, ?_, fun free => ?_⟩
  · rw [migrateOccurrence?_eq, result, current]
    rfl
  · rw [current]
    exact ofText_source isName_of_mem_mapTags (rewritten_stands stands result (by simp))
  · rw [markers, List.cons.injEq]
    exact and_iff_right rfl
  · have named := isName_of_mem_markerTags _ (newMarkerTag_mem (mem_of_stands stands))
    rw [markers, behindMarker_of_free named free]
    rfl

end

/-- An old map with nothing but an address. -/
def addressMap (content : Text) : Occurrence :=
  enclosing TagFamily.plain.mapTag "marker_address=B".toList content

/-- Its attributes. -/
def addressOnly : Attributes :=
  Attributes.parseLenient " marker_address=B".toList

/-- It holds a marker, whatever its content is. -/
theorem holdsMarker_addressMap (content : Text) : HoldsMarker (addressMap content) addressOnly := by
  have wellFormed : ∀ token ∈ AttributeToken.ofText " marker_address=B".toList, token.malformed? = none := by
    decide
  have entries : addressOnly.entries = [("marker_address".toList, "B".toList)] := by decide
  have some_ : addressOnly.entries ≠ [] := by simp [entries]
  have read := Attributes.parse_eq_ok_iff.mpr ⟨wellFormed, rfl, some_⟩
  have marker : addressOnly.keys.any isMarkerKey = true := by
    rw [OrderedMap.keys, entries]
    decide
  exact ⟨rfl, read, marker, (by decide : Text.holds markerStart " marker_address=B".toList = true)⟩

/-- It stands alone if nothing closes it in its content. -/
theorem stands_addressMap {content : Text} (free : splitAtClosing? .exact TagFamily.plain.mapTag content = none) :
    (addressMap content).Stands .exact mapTags [] :=
  stands_enclosing (by decide) (by decide) (by decide) free (by simp)

/-- Two markers. -/
def twoInside : Text := "[sbs_marker marker_color=red]x[/sbs_marker] [sbs_marker marker_address=A]y[/sbs_marker]".toList

/-- The new marker takes up the first of them, and the second one stays. -/
theorem takesMarkerOut_twoInside :
    (addressMap twoInside).Stands .exact mapTags [] ∧ HoldsMarker (addressMap twoInside) addressOnly ∧
      TakesMarkerOut Catalog.builtin (addressMap twoInside) addressOnly ∧
      attributeTexts (currentOccurrence Catalog.builtin (addressMap twoInside)).contentText =
        [" marker_address=\"B\"".toList, " marker_address=A".toList] := by
  have stands := @stands_addressMap twoInside (by decide)
  have holds := holdsMarker_addressMap twoInside
  have result := takesMarkerOut Catalog.builtin stands holds
  refine ⟨stands, holds, result, ?_⟩
  rw [result.markers]
  decide

/-- One marker. -/
def oneInside : Text := "[sbs_marker marker_address=A]x[/sbs_marker]".toList

/-- The new marker takes it up, and it is no marker any more. -/
theorem not_kept_oneInside :
    ¬∀ (catalog : Catalog) (o : Occurrence) (rest : Text) (attributes : Attributes), o.Stands .exact mapTags rest →
      HoldsMarker o attributes → attributeTexts (currentOccurrence catalog o).contentText =
        newMarkerText attributes :: attributeTexts o.contentText := by
  intro kept
  have stands := @stands_addressMap oneInside (by decide)
  have holds := holdsMarker_addressMap oneInside
  have same := (attributeTexts_currentOccurrence stands holds).symm.trans (kept Catalog.builtin _ [] _ stands holds)
  have inside : attributeTexts (addressMap oneInside).contentText = [" marker_address=A".toList] := by decide
  have behind : behindMarker (newMarkerTag (addressMap oneInside)) (addressMap oneInside).contentText =
      "[/sbs_marker]".toList := by decide
  have nothing : attributeTexts "[/sbs_marker]".toList = [] := by decide
  rw [behind, nothing, inside] at same
  simp at same

end MapEmbed.Migration
