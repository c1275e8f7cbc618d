import MapEmbed.Proofs.Migration.Structure
import MapEmbed.Proofs.Shortcode.Enclosing
import MapEmbed.Page.Document

/-!
# Documents of one map

A document that starts with a map and has no other, and a content that is one marker: what is rendered is the element of
the map in its current form, and in it the element of the marker.
-/

namespace MapEmbed.Page
open Shortcode Migration

/-! ### A marker as a content -/

section
variable {family : TagFamily} {raw content : Text}

/-- A marker around a text stands where markers are looked for. -/
theorem stands_marker (family : TagFamily) (mode : CaseMode) (closed : ']' ∉ raw) (open_ : raw.getLast? ≠ some '/')
    (plain : '[' ∉ content) : (enclosing family.markerTag raw content).Stands mode markerTags [] := by
  apply stands_enclosing _ closed open_ (splitAtClosing?_of_not_mem (by decide) plain) (by simp)
  cases family <;> decide

/-- A content that is one marker is rendered as its element. -/
theorem expandMarkers_enclosed (closed : ']' ∉ raw) (open_ : raw.getLast? ≠ some '/') (plain : '[' ∉ content) :
    expandMarkers (enclosed family.markerTag raw content) =
      markerElement (Marker.ofAttributes (Attributes.parseLenient raw)) content := by
  have cut := ofText_source isName_of_mem_markerTags (stands_marker family .exact closed open_ plain)
  rw [source_enclosing] at cut
  rw [expandMarkers, cut, ← Attributes.parseLenient_space]
  simp [Segmentation.replace, Segmentation.replaceFrom, renderMarker, enclosing, Occurrence.escaped, Brackets.escaped,
    Brackets.none, Brackets.wrap, Occurrence.contentText, Body.content?]

/-- A content that is one marker has that marker. -/
theorem listing_enclosed (closed : ']' ∉ raw) (open_ : raw.getLast? ≠ some '/') (plain : '[' ∉ content) :
    Marker.listing (enclosed family.markerTag raw content) =
      [{ Marker.ofAttributes (Attributes.parseLenient raw) with
        text := if content.isEmpty then none else some content }] := by
  have cut := ofText_source isName_of_mem_markerTags (stands_marker family .ignoring closed open_ plain)
  rw [source_enclosing] at cut
  have text : Marker.textAfter (enclosing family.markerTag raw content) [] = content := by
    have before := Text.takeWhile_ne_append plain ('/' :: (family.markerTag ++ [']']))
    simpa [Marker.textAfter, Occurrence.afterOpening, enclosing, Body.source, Brackets.none] using before
  have visible : (enclosing family.markerTag raw content).escaped = false := rfl
  simp only [Marker.listing, Marker.readings, cut, Marker.readingsOf, Marker.nextGap, text, visible, Bool.false_eq_true,
    if_false, List.map_cons, List.map_nil, Marker.ofReading, ← Attributes.parseLenient_space raw]
  rfl

end

/-! ### One map -/

section
variable (names : Html.ReferenceTable) {catalog : Catalog}

/-- A document that starts with a map and has no other is rendered as the map in its current form. -/
theorem renderDocument_source_append (freshIds : Nat → Text) {o : Occurrence} {tail : Text}
    (stands : o.Stands .exact mapTags tail) (vacant : Vacant .exact mapTags tail []) :
    renderDocumentWith names catalog true freshIds (o.source ++ tail) =
      renderOccurrence names (freshIds 0) (currentOccurrence catalog o) ++ tail := by
  have cut := ofText_source_append isName_of_mem_mapTags stands vacant
  have alone : ClosesNothing catalog [o] := List.pairwise_singleton _ o
  rw [renderDocumentWith, if_pos rfl, renderMaps, ofText_migrate, cut,
    @regroup_of_closesNothing catalog [([], o)] alone]
  simp [currentPieces, Segmentation.replace, Segmentation.replaceFrom]

/-- A map around a content is rendered from its attributes and the content. -/
theorem renderOccurrence_enclosing (freshId name raw content : Text) :
    renderOccurrence names freshId (enclosing name raw content) =
      renderMapWith names freshId (Attributes.parseLenient raw) (some content) := by
  rw [← Attributes.parseLenient_space]
  simp [renderOccurrence, enclosing, Occurrence.escaped, Brackets.escaped, Brackets.none, Brackets.wrap, Body.content?]

/-- A document that is a map around a content is rendered from what migration makes of it. -/
theorem renderDocument_enclosed (freshIds : Nat → Text) {name raw content newRaw newContent : Text}
    (stands : (enclosing name raw content).Stands .exact mapTags [])
    (current : currentOccurrence catalog (enclosing name raw content) = enclosing name newRaw newContent) :
    renderDocumentWith names catalog true freshIds (enclosed name raw content) =
      renderMapWith names (freshIds 0) (Attributes.parseLenient newRaw) (some newContent) := by
  have alone := @renderDocument_source_append names catalog freshIds _ [] stands trivial
  rwa [List.append_nil, List.append_nil, source_enclosing, current, renderOccurrence_enclosing] at alone

/-- The element of a map ends in an end tag. -/
theorem getLast?_mapElement (b : MapBlock) (inner : Text) : (mapElement b inner).getLast? = some '>' := by
  rw [mapElement, List.getLast?_append]
  rfl

/-- A document that is one map without extra brackets ends in the element of the map. -/
theorem getLast?_renderDocument (freshIds : Nat → Text) {o : Occurrence} (stands : o.Stands .exact mapTags [])
    (bare : o.brackets = Brackets.none) :
    (renderDocumentWith names catalog true freshIds o.source).getLast? = some '>' := by
  have alone := @renderDocument_source_append names catalog freshIds _ [] stands trivial
  have current : (currentOccurrence catalog o).brackets = Brackets.none := by rw [brackets_currentOccurrence, bare]
  have visible : (currentOccurrence catalog o).escaped = false := by
    rw [Occurrence.escaped, current]
    rfl
  rw [List.append_nil, List.append_nil] at alone
  rw [alone, renderOccurrence, visible, if_neg Bool.false_ne_true, current]
  simp [Brackets.wrap, Brackets.none, renderMapWith, getLast?_mapElement]

/-- A document with a text behind its one map ends as the text does. -/
theorem getLast?_renderDocument_append (freshIds : Nat → Text) {o : Occurrence} {front : Text} {c : Char}
    (stands : o.Stands .exact mapTags (front ++ [c])) (vacant : Vacant .exact mapTags (front ++ [c]) []) :
    (renderDocumentWith names catalog true freshIds (o.source ++ (front ++ [c]))).getLast? = some c := by
  rw [renderDocument_source_append names freshIds stands vacant, ← List.append_assoc, List.getLast?_concat]

/-- A document that is one map is not rendered as one in which a bracket follows the map. -/
theorem renderDocument_ne_append {o other : Occurrence} {front : Text} (stands : o.Stands .exact mapTags [])
    (bare : o.brackets = Brackets.none) (followed : other.Stands .exact mapTags (front ++ [']']))
    (vacant : Vacant .exact mapTags (front ++ [']']) []) (freshIds otherIds : Nat → Text) :
    renderDocumentWith names catalog true freshIds o.source ≠
      renderDocumentWith names catalog true otherIds (other.source ++ (front ++ [']'])) := by
  intro same
  have last := @getLast?_renderDocument names catalog freshIds o stands bare
  rw [same, getLast?_renderDocument_append names otherIds followed vacant] at last
  exact absurd last (by decide)

end

end MapEmbed.Page
