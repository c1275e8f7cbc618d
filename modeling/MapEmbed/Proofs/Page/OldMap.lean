import MapEmbed.Page.BlockId
import MapEmbed.Proofs.Attribute.Joining
import MapEmbed.Proofs.Attribute.Separation
import MapEmbed.Proofs.Migration.Current
import MapEmbed.Proofs.Page.EscapedAttributes
import MapEmbed.Proofs.Page.MarkerData
import MapEmbed.Proofs.Page.SingleMap

/-!
# An old map and its current form

An old map has its marker among its own attributes, and its content is the marker's text. The current form has a
marker shortcode in the map's content. Migration makes the second of the first, but for the escaping of the values that
it has to write again; rendering does not see that, so both are rendered alike.
-/

namespace MapEmbed.Page
open Shortcode Migration

/-- An old map with a marker in its attributes. -/
def oldMap (family : TagFamily) (map marker content : Text) : Text :=
  enclosed family.mapTag (map ++ ' ' :: marker) content

/-- The map with the marker in its content. -/
def currentMap (family : TagFamily) (map marker content : Text) : Text :=
  enclosed family.mapTag map (enclosed family.markerTag marker content)

/-! ### What migration makes of the two -/

/-- The identifier that attributes give, empty if they give none. -/
def blockId (attributes : Attributes) : Text :=
  (attributes.get? "block_id".toList).getD []

/-- The attributes of a map after the credential of its style was moved, if it had to be. -/
def withCredential (catalog : Catalog) (attributes : Attributes) : Attributes :=
  (moveCredential? catalog attributes).getD attributes

/-- Moving a credential keeps the identifier. -/
theorem blockId_withCredential (catalog : Catalog) (attributes : Attributes) :
    blockId (withCredential catalog attributes) = blockId attributes := by
  unfold withCredential
  cases result : moveCredential? catalog attributes with
  | none => rfl
  | some moved =>
    simp only [moveCredential?, Option.ite_none_left_eq_some, Option.map_eq_some_iff] at result
    obtain ⟨-, ⟨key, value⟩, found, rfl⟩ := result
    obtain ⟨dependency, -, credential⟩ := Option.bind_eq_some_iff.mp found
    obtain ⟨text, -, same⟩ := Option.map_eq_some_iff.mp credential
    obtain ⟨rfl, rfl⟩ := Prod.mk.inj same
    have legacy : "block_id".toList ≠ dependency.legacyAttribute := by
      cases dependency <;> decide
    rw [Option.getD_some, blockId, OrderedMap.get?_insert, if_neg (by decide), OrderedMap.get?_erase, if_neg legacy,
      blockId]

/-- Moving a credential leaves attributes that can be read. -/
theorem readable_withCredential (catalog : Catalog) {attributes : Attributes} (readable : attributes.Readable) :
    (withCredential catalog attributes).Readable := by
  unfold withCredential
  cases result : moveCredential? catalog attributes with
  | none => exact readable
  | some moved =>
    intro entry member
    rcases mem_moveCredential result member with kept | ⟨styled, key, old⟩
    · exact readable entry kept
    · have style : Attributes.IsKey styleKeyKey := by decide
      exact ⟨styled ▸ style, (readable _ old).2⟩

/-- Attributes with an identifier are some. -/
theorem isEmpty_of_blockId {attributes : Attributes} (named : blockId attributes ≠ []) :
    attributes.isEmpty = false := by
  apply Bool.eq_false_iff.mpr
  intro empty
  have none_ : attributes.entries = [] := List.isEmpty_iff.mp empty
  exact named (by simp [blockId, OrderedMap.get?, none_])

/-- Attribute text of a map: it can be read, says nothing of a marker, and gives an identifier. -/
structure MapText (map : Text) : Prop where
  read : ∃ attributes, Attributes.parse map = .ok attributes
  closed : ']' ∉ map
  unmarked : ∀ key ∈ (Attributes.parseLenient map).keys, isMarkerKey key = false
  named : blockId (Attributes.parseLenient map) ≠ []

/-- Attribute text of a marker: it can be read, says nothing else, and does not centre the map elsewhere. -/
structure MarkerText (marker : Text) : Prop where
  read : ∃ attributes, Attributes.parse marker = .ok attributes
  closed : ']' ∉ marker
  marked : ∀ key ∈ (Attributes.parseLenient marker).keys, isMarkerKey key = true
  centers : centersElsewhere (Attributes.parseLenient marker) = false

/-- Whether attribute text can be read is seen by reading it. -/
theorem parse_isOk_iff {text : Text} :
    (Attributes.parse text).isOk = true ↔ ∃ attributes, Attributes.parse text = .ok attributes := by
  cases Attributes.parse text <;> simp [Except.isOk, Except.toBool]

instance (map : Text) : Decidable (MapText map) :=
  decidable_of_iff ((Attributes.parse map).isOk = true ∧ ']' ∉ map ∧
      (∀ key ∈ (Attributes.parseLenient map).keys, isMarkerKey key = false) ∧
      blockId (Attributes.parseLenient map) ≠ [])
    ⟨fun ⟨read, closed, unmarked, named⟩ => ⟨parse_isOk_iff.mp read, closed, unmarked, named⟩,
      fun mapText => ⟨parse_isOk_iff.mpr mapText.read, mapText.closed, mapText.unmarked, mapText.named⟩⟩

instance (marker : Text) : Decidable (MarkerText marker) :=
  decidable_of_iff ((Attributes.parse marker).isOk = true ∧ ']' ∉ marker ∧
      (∀ key ∈ (Attributes.parseLenient marker).keys, isMarkerKey key = true) ∧
      centersElsewhere (Attributes.parseLenient marker) = false)
    ⟨fun ⟨read, closed, marked, centers⟩ => ⟨parse_isOk_iff.mp read, closed, marked, centers⟩,
      fun markerText => ⟨parse_isOk_iff.mpr markerText.read, markerText.closed, markerText.marked, markerText.centers⟩⟩

/-- A map with an identifier keeps an attribute when its credential is moved. -/
theorem MapText.isEmpty_withCredential {map : Text} (mapText : MapText map) (catalog : Catalog) :
    (withCredential catalog (Attributes.parseLenient map)).isEmpty = false := by
  apply isEmpty_of_blockId
  rw [blockId_withCredential]
  exact mapText.named

/-- What the two texts need to be read alike side by side and each in a tag of its own: the second begins with a token
of its own, no tag closes itself, and the marker's tag does not close the map. -/
structure Separable (family : TagFamily) (map marker : Text) : Prop where
  joined : AttributeToken.ofText (map ++ ' ' :: marker) = AttributeToken.ofText map ++ AttributeToken.ofText marker
  mapOpen : map.getLast? ≠ some '/'
  markerOpen : marker.getLast? ≠ some '/'
  unclosing : ¬('[' :: '/' :: family.mapTag <:+ marker)

/-- The keys of a marker's text are written in its tokens. -/
theorem MarkerText.passes {marker : Text} (markerText : MarkerText marker) :
    ∀ token ∈ AttributeToken.ofText marker, token.Passes isMarkerKey := by
  obtain ⟨_, read⟩ := markerText.read
  have unnumbered (n : Nat) : isMarkerKey (Text.ofNat n) = false :=
    isMarkerKey_of_isPositionalKey (isPositionalKey_ofNat n)
  exact Attributes.passes_of_keys unnumbered (Attributes.parse_eq_ok_iff.mp read).1 markerText.marked

/-- The tokens stay apart if the map's text is finished: it ends in no word with an equals sign behind it. -/
theorem separable_of_finished {family : TagFamily} {map marker : Text} (markerText : MarkerText marker)
    (finished : AttributeToken.Finished (AttributeToken.ofText map)) (mapOpen : map.getLast? ≠ some '/')
    (markerOpen : marker.getLast? ≠ some '/') (unclosing : ¬('[' :: '/' :: family.mapTag <:+ marker)) :
    Separable family map marker := by
  refine ⟨AttributeToken.ofText_append finished ?_, mapOpen, markerOpen, unclosing⟩
  intro token member
  obtain ⟨key, value, same, -⟩ := markerText.passes token member
  exact ⟨key, value, same⟩

/-- What the two texts need for migration to see what is old in them, and for readers of the marker's data to see no
difference: keys in small letters, and texts without double quotes. Each of the three is needed, as
`renderedApart_unnoticeable` shows. -/
structure Noticeable (catalog : Catalog) (map marker : Text) : Prop where
  oldMarker : mayBeOld (map ++ ' ' :: marker) = true
  oldCredential : (moveCredential? catalog (Attributes.parseLenient map)).isSome = true → mayBeOld map = true
  unquoted : (Marker.ofAttributes (Attributes.parseLenient marker)).Unquoted

/-- A blank before attribute text makes it look neither old nor current. -/
theorem mayBeOld_space (raw : Text) : mayBeOld (' ' :: raw) = mayBeOld raw := by
  have passed (word : Text) (some_ : word ≠ []) (start : word.head? ≠ some ' ') :
      Text.holds word (' ' :: raw) = Text.holds word raw := by
    cases word with
    | nil => exact absurd rfl some_
    | cons c rest =>
      have other : c ≠ ' ' := by simpa using start
      simp [Text.holds, List.isPrefixOf, other]
  rw [mayBeOld, passed _ (by decide) (by decide), passed _ (by decide) (by decide), passed _ (by decide) (by decide),
    mayBeOld]

section
variable {catalog : Catalog} {family : TagFamily} {map marker content : Text}

/-- Taking the marker out of the attributes of both texts leaves those of each. -/
theorem splitMarker?_joined (mapText : MapText map) (markerText : MarkerText marker)
    (separable : Separable family map marker) :
    splitMarker? (Attributes.parseLenient (map ++ ' ' :: marker)) =
      some (Attributes.parseLenient map, Attributes.parseLenient marker) := by
  obtain ⟨markers, others⟩ := Attributes.filterKeys_ofTokens_append mapText.unmarked markerText.passes
  have whole : Attributes.parseLenient (map ++ ' ' :: marker) =
      Attributes.ofTokens (AttributeToken.ofText map ++ AttributeToken.ofText marker) := by
    rw [Attributes.parseLenient, separable.joined]
  rw [← whole] at markers others
  generalize Attributes.parseLenient (map ++ ' ' :: marker) = attributes at markers others
  have center : attributes.get? markerCenterKey = (Attributes.parseLenient marker).get? markerCenterKey := by
    rw [Attributes.parseLenient, ← markers, OrderedMap.get?_filterKeys, if_pos (by decide)]
  have elsewhere : centersElsewhere attributes = false := by
    rw [← markerText.centers, centersElsewhere, center, centersElsewhere]
  have listed : attributes.keys.any isMarkerKey = true := by
    obtain ⟨_, read⟩ := markerText.read
    obtain ⟨-, rfl, some_⟩ := Attributes.parse_eq_ok_iff.mp read
    obtain ⟨entry, rest, first⟩ := List.exists_cons_of_ne_nil some_
    have member : entry ∈ (attributes.filterKeys isMarkerKey).entries := by
      rw [markers]
      exact first ▸ List.mem_cons_self
    obtain ⟨inside, kept⟩ := List.mem_filter.mp member
    exact List.any_eq_true.mpr ⟨entry.1, List.mem_map_of_mem inside, kept⟩
  rw [splitMarker?, if_pos listed, mapPart, markerPart, elsewhere]
  simp only [Bool.false_and, Bool.not_false, Bool.and_true, Bool.false_eq_true, if_false, others, markers]
  rfl

/-- Both texts in one tag can be read, and the passes take the marker out. -/
theorem moved?_oldMap (catalog : Catalog) (content : Text) (mapText : MapText map) (markerText : MarkerText marker)
    (separable : Separable family map marker) (noticed : mayBeOld (map ++ ' ' :: marker) = true) :
    moved? catalog (enclosing family.mapTag (map ++ ' ' :: marker) content) =
      some ⟨withCredential catalog (Attributes.parseLenient map), some (Attributes.parseLenient marker)⟩ := by
  obtain ⟨_, mapRead⟩ := mapText.read
  obtain ⟨_, markerRead⟩ := markerText.read
  obtain ⟨mapFormed, -, -⟩ := Attributes.parse_eq_ok_iff.mp mapRead
  obtain ⟨markerFormed, rfl, some_⟩ := Attributes.parse_eq_ok_iff.mp markerRead
  have split := splitMarker?_joined mapText markerText separable
  have read : Attributes.parse (' ' :: (map ++ ' ' :: marker)) =
      .ok (Attributes.parseLenient (map ++ ' ' :: marker)) := by
    apply (Attributes.parse_space _).mpr
    apply Attributes.parse_eq_ok_iff.mpr
    refine ⟨?_, rfl, ?_⟩
    · intro token member
      rw [separable.joined, List.mem_append] at member
      rcases member with front | back
      · exact mapFormed token front
      · exact markerFormed token back
    · intro nothing
      rw [splitMarker?, OrderedMap.keys, nothing] at split
      simp at split
  have old : (!mayBeOld (' ' :: (map ++ ' ' :: marker))) = false := by rw [mayBeOld_space, noticed]; rfl
  simp only [moved?, enclosing, Occurrence.escaped, Brackets.escaped, Brackets.none, old, read, move?, split,
    Bool.or_self, Bool.false_eq_true, if_false, Bool.and_self]
  rfl

/-- The map alone is moved only as far as its credential is. -/
theorem moved?_currentMap (mapText : MapText map)
    (old : (moveCredential? catalog (Attributes.parseLenient map)).isSome = true → mayBeOld map = true) :
    moved? catalog (enclosing family.mapTag map content) =
      (moveCredential? catalog (Attributes.parseLenient map)).map fun attributes => ⟨attributes, none⟩ := by
  obtain ⟨attributes, mapRead⟩ := mapText.read
  obtain ⟨-, rfl, -⟩ := Attributes.parse_eq_ok_iff.mp mapRead
  have read : Attributes.parse (' ' :: map) = .ok (Attributes.parseLenient map) := (Attributes.parse_space map).mpr mapRead
  have unsplit : splitMarker? (Attributes.parseLenient map) = none := splitMarker?_eq_none_iff.mpr mapText.unmarked
  have visible : (enclosing family.mapTag map content).escaped = false := rfl
  have moves : move? catalog (Attributes.parseLenient map) =
      (moveCredential? catalog (Attributes.parseLenient map)).map fun attributes => ⟨attributes, none⟩ := by
    rw [move?, unsplit]
  rw [moved?, visible, ← moves]
  simp only [enclosing, Bool.false_or, mayBeOld_space, read]
  cases noticed : mayBeOld map with
  | true => rfl
  | false =>
    rw [noticed] at old
    cases found : moveCredential? catalog (Attributes.parseLenient map) with
    | none =>
      rw [moves, found]
      rfl
    | some moved => simp [found] at old

/-- The old map stands. -/
theorem stands_oldMap (mapText : MapText map) (markerText : MarkerText marker) (separable : Separable family map marker)
    (plain : '[' ∉ content) :
    (enclosing family.mapTag (map ++ ' ' :: marker) content).Stands .exact mapTags [] := by
  apply stands_enclosing _ _ _ (splitAtClosing?_of_not_mem (by decide) plain) (by simp)
  · cases family <;> decide
  · simp [mapText.closed, markerText.closed]
  · intro slash
    rw [List.getLast?_append, List.getLast?_cons] at slash
    cases last : marker.getLast? with
    | none => simp [last] at slash
    | some c =>
      have final : c = '/' := by simpa [last] using slash
      exact separable.markerOpen (final ▸ last)

/-- So does the current one: the closing tag of the map is the last. -/
theorem stands_currentMap (mapText : MapText map) (markerText : MarkerText marker)
    (separable : Separable family map marker) (plain : '[' ∉ content) :
    (enclosing family.mapTag map (enclosed family.markerTag marker content)).Stands .exact mapTags [] := by
  apply stands_enclosing _ mapText.closed separable.mapOpen _ (by simp)
  · cases family <;> decide
  · apply free_enclosed
    · cases family <;> decide
    · cases family <;> decide
    · cases family <;> decide
    · exact markerText.closed
    · intro written same
      rw [(same_exact _ written).mp same]
      exact separable.unclosing
    · exact splitAtClosing?_of_not_mem (by decide) plain

/-- Migration makes a map and a marker of the old map, both written anew. -/
theorem currentOccurrence_oldMap (catalog : Catalog) (mapText : MapText map) (markerText : MarkerText marker)
    (separable : Separable family map marker) (noticed : mayBeOld (map ++ ' ' :: marker) = true) :
    currentOccurrence catalog (enclosing family.mapTag (map ++ ' ' :: marker) content) =
      enclosing family.mapTag (withCredential catalog (Attributes.parseLenient map)).toText
        (enclosed family.markerTag (Attributes.parseLenient marker).toText content) := by
  have some_ := mapText.isEmpty_withCredential catalog
  have markerSome := Attributes.isEmpty_of_parse markerText.read
  have tag : (markerTagFor? family.mapTag).getD family.mapTag = family.markerTag := by
    cases family <;> decide
  have moved := moved?_oldMap catalog content mapText markerText separable noticed
  rw [currentOccurrence, moved, Option.map_some, Option.getD_some, rewritten, ← source_enclosing,
    ← printed_eq_enclosing markerSome, source_printed, ← printed_eq_enclosing some_]
  simp only [movedContent, enclosing, tag]
  rfl

/-- A map in which nothing looks old stays as it is. -/
theorem currentOccurrence_of_unnoticed (catalog : Catalog) (unnoticed : mayBeOld map = false) :
    currentOccurrence catalog (enclosing family.mapTag map content) = enclosing family.mapTag map content := by
  have still : moved? catalog (enclosing family.mapTag map content) = none := by
    simp only [moved?, enclosing, mayBeOld_space, unnoticed, Bool.not_false, Bool.or_true, if_true]
  rw [currentOccurrence, still, Option.map_none, Option.getD_none]

/-- The map alone is written anew only if its credential is moved. -/
theorem currentOccurrence_currentMap (mapText : MapText map)
    (old : (moveCredential? catalog (Attributes.parseLenient map)).isSome = true → mayBeOld map = true) :
    currentOccurrence catalog (enclosing family.mapTag map content) =
      enclosing family.mapTag (if (moveCredential? catalog (Attributes.parseLenient map)).isSome then
        (withCredential catalog (Attributes.parseLenient map)).toText else map) content := by
  have some_ := mapText.isEmpty_withCredential catalog
  rw [currentOccurrence, moved?_currentMap mapText old]
  cases found : moveCredential? catalog (Attributes.parseLenient map) with
  | none => rfl
  | some moved =>
    rw [withCredential, found, Option.getD_some] at some_
    rw [Option.isSome_some, if_pos rfl, withCredential, found, Option.getD_some, ← printed_eq_enclosing some_]
    rfl

/-! ### Both rendered -/

variable (names : Html.ReferenceTable)

/-- The current map is rendered from attributes of which the migrated ones are an escaped form. -/
theorem exists_renderMap (mapText : MapText map)
    (old : (moveCredential? catalog (Attributes.parseLenient map)).isSome = true → mayBeOld map = true)
    (stands : (enclosing family.mapTag map content).Stands .exact mapTags []) (freshIds : Nat → Text) :
    ∃ plain, plain.EscapedFrom (Attributes.parseLenient (withCredential catalog (Attributes.parseLenient map)).toText) ∧
      Text.escape (blockId plain) = Text.escape (blockId (Attributes.parseLenient map)) ∧
      renderDocumentWith names catalog true freshIds (enclosed family.mapTag map content) =
        renderMapWith names (freshIds 0) plain (some content) := by
  have escapes := (readable_withCredential catalog (Attributes.readable_parseLenient map)).escapedFrom
  have current := renderDocument_enclosed names freshIds stands (currentOccurrence_currentMap mapText old)
  cases found : moveCredential? catalog (Attributes.parseLenient map) with
  | none =>
    rw [found, Option.isSome_none, if_neg Bool.false_ne_true] at current
    rw [withCredential, found, Option.getD_none] at escapes ⊢
    exact ⟨_, escapes, rfl, current⟩
  | some moved =>
    rw [found, Option.isSome_some, if_pos rfl] at current
    refine ⟨_, escapes.again, ?_, current⟩
    rw [blockId, escapes.getD_nil (by decide), Text.escape_escape]
    exact congrArg Text.escape (blockId_withCredential catalog _)

/-- Markers written anew are rendered as they were. -/
theorem renderMap_reprinted {plain escaped : Attributes} (escapes : plain.EscapedFrom escaped)
    (named : blockId plain ≠ []) (markerText : MarkerText marker) (markerOpen : marker.getLast? ≠ some '/')
    (unquoted : (Marker.ofAttributes (Attributes.parseLenient marker)).Unquoted) (clean : '[' ∉ content)
    (freshId otherId : Text) :
    renderMapWith names otherId escaped
        (some (enclosed family.markerTag (Attributes.parseLenient marker).toText content)) =
      renderMapWith names freshId plain (some (enclosed family.markerTag marker content)) := by
  have some_ := Attributes.isEmpty_of_parse markerText.read
  have readable : (Attributes.parseLenient marker).Readable := Attributes.readable_parseLenient marker
  have closed : ']' ∉ (Attributes.parseLenient marker).toText := by
    have markerName : IsName family.markerTag := by
      cases family <;> decide
    exact (printable_parseLenient markerName markerText.closed).closed_toText
  have open_ : (Attributes.parseLenient marker).toText.getLast? ≠ some '/' := by
    rw [getLast?_toText some_]
    decide
  have denoted := readable.escapedFrom.marker
  have listing : Marker.listing (enclosed family.markerTag (Attributes.parseLenient marker).toText content) =
      (Marker.listing (enclosed family.markerTag marker content)).map Marker.escaped := by
    rw [listing_enclosed closed open_ clean, listing_enclosed markerText.closed markerOpen clean, denoted]
    rfl
  have quotes : ∀ m ∈ Marker.listing (enclosed family.markerTag marker content), m.Unquoted := by
    rw [listing_enclosed markerText.closed markerOpen clean]
    intro m member
    rw [List.mem_singleton.mp member]
    exact unquoted
  have inside : expandMarkers (enclosed family.markerTag (Attributes.parseLenient marker).toText content) =
      expandMarkers (enclosed family.markerTag marker content) := by
    rw [expandMarkers_enclosed closed open_ clean, expandMarkers_enclosed markerText.closed markerOpen clean, denoted,
      markerElement_escaped]
  simp only [renderMapWith, Option.getD_some, inside]
  exact (escapes.alike named listing quotes freshId otherId).mapElement _

/-- An old map and its current form are rendered alike, whatever identifiers are supplied and with whatever table the
references of the content are read, if the attribute texts can be told apart and nothing keeps migration from seeing
what is old. -/
theorem renderDocument_oldMap (mapText : MapText map) (markerText : MarkerText marker)
    (separable : Separable family map marker) (noticeable : Noticeable catalog map marker) (clean : '[' ∉ content)
    (freshIds otherIds : Nat → Text) :
    renderDocumentWith names catalog true freshIds (oldMap family map marker content) =
      renderDocumentWith names catalog true otherIds (currentMap family map marker content) := by
  have old := renderDocument_enclosed names freshIds (stands_oldMap mapText markerText separable clean)
    (currentOccurrence_oldMap catalog mapText markerText separable noticeable.oldMarker)
  obtain ⟨plain, escapes, identifier, current⟩ := exists_renderMap names mapText noticeable.oldCredential
    (stands_currentMap mapText markerText separable clean) otherIds
  have named : blockId plain ≠ [] := by
    intro nothing
    rw [nothing] at identifier
    exact mapText.named (Text.escape_eq_nil_iff.mp identifier.symm)
  rw [oldMap, old, currentMap, current]
  exact renderMap_reprinted names escapes named markerText separable.markerOpen noticeable.unquoted clean _ _

end

/-- An ampersand in the marker's address and a credential of the map make no difference. -/
theorem renderDocument_ampersand :
    renderDocumentWith Html.namedReferences Catalog.builtin true (fun _ => [])
        (oldMap .plain "block_id=a api_key=k".toList "marker_address='A & B' marker_color=red".toList ['x']) =
      renderDocumentWith Html.namedReferences Catalog.builtin true blockIdOf
        (currentMap .plain "block_id=a api_key=k".toList "marker_address='A & B' marker_color=red".toList ['x']) := by
  have mapText : MapText "block_id=a api_key=k".toList := by decide
  have markerText : MarkerText "marker_address='A & B' marker_color=red".toList := by decide
  apply renderDocument_oldMap Html.namedReferences mapText markerText
  · exact ⟨by decide, by decide, by decide, by decide⟩
  · exact ⟨by decide, fun _ => by decide, by decide, by decide⟩
  · decide

/-! ### Texts that cannot be told apart -/

/-- An old map with the given texts and its current form are not rendered alike. -/
def RenderedApart (map marker : Text) : Prop :=
  MapText map ∧ MarkerText marker ∧ ∀ names freshIds otherIds,
    renderDocumentWith names Catalog.builtin true freshIds (oldMap .plain map marker ['x']) ≠
      renderDocumentWith names Catalog.builtin true otherIds (currentMap .plain map marker ['x'])

/-- The elements of two maps are the same only if the maps have the same identifiers, style keys and markers, once these
are escaped. -/
theorem escape_of_mapElement_eq {first second : MapBlock} {inner other : Text}
    (same : mapElement first inner = mapElement second other) :
    Text.escape first.blockId = Text.escape second.blockId ∧
      Text.escape (first.styleKey.getD []) = Text.escape (second.styleKey.getD []) ∧
      Text.escape (markerData first.markers) = Text.escape (markerData second.markers) := by
  have attributes := mapAttributes_of_mapElement_eq same
  have value (key : String) := congrArg (fun written : List (Text × Text) => written.lookup key.toList) attributes
  have identifiers : some (Text.escape (blockIdStart ++ first.blockId)) =
      some (Text.escape (blockIdStart ++ second.blockId)) := value "id"
  have keys : some (Text.escape (first.styleKey.getD [])) = some (Text.escape (second.styleKey.getD [])) :=
    value "data-map-style-key"
  have markers : some (Text.escape (markerData first.markers)) = some (Text.escape (markerData second.markers)) :=
    value "data-marker-list"
  rw [Option.some.injEq, escape_blockIdStart, escape_blockIdStart] at identifiers
  exact ⟨List.append_cancel_left identifiers, Option.some.inj keys, Option.some.inj markers⟩

/-- Maps that are rendered alike have the same style key and the same markers, once these are escaped. -/
theorem escape_of_renderMap_eq {names : Html.ReferenceTable} {first second : Attributes}
    {content other freshId otherId : Text}
    (same : renderMapWith names freshId first (some content) = renderMapWith names otherId second (some other)) :
    Text.escape ((MapBlock.nonEmpty? first styleKeyKey).getD []) =
        Text.escape ((MapBlock.nonEmpty? second styleKeyKey).getD []) ∧
      Text.escape (markerData (Marker.listing content)) = Text.escape (markerData (Marker.listing other)) :=
  (escape_of_mapElement_eq same).2

/-- Maps with different identifiers are rendered apart. -/
theorem blockId_of_renderDocument_eq {names : Html.ReferenceTable} {catalog : Catalog}
    {first second content other : Text} {family : TagFamily}
    (firstText : MapText first) (secondText : MapText second) (firstOld : mayBeOld first = true)
    (secondOld : mayBeOld second = true)
    (firstStands : (enclosing family.mapTag first content).Stands .exact mapTags [])
    (secondStands : (enclosing family.mapTag second other).Stands .exact mapTags []) {freshIds otherIds : Nat → Text}
    (same : renderDocumentWith names catalog true freshIds (enclosed family.mapTag first content) =
      renderDocumentWith names catalog true otherIds (enclosed family.mapTag second other)) :
    Text.escape (blockId (Attributes.parseLenient first)) = Text.escape (blockId (Attributes.parseLenient second)) := by
  obtain ⟨plain, -, identifier, rendered⟩ := exists_renderMap names firstText (fun _ => firstOld) firstStands freshIds
  obtain ⟨plain', -, identifier', rendered'⟩ := exists_renderMap names secondText (fun _ => secondOld) secondStands
    otherIds
  have given {attributes : Attributes} {map : Text} (mapText : MapText map)
      (kept : Text.escape (blockId attributes) = Text.escape (blockId (Attributes.parseLenient map)))
      (freshId inside : Text) : (renderedBlock freshId attributes inside).blockId = blockId attributes := by
    apply if_neg
    intro nothing
    have empty : blockId attributes = [] := List.isEmpty_iff.mp nothing
    rw [empty] at kept
    exact mapText.named (Text.escape_eq_nil_iff.mp kept.symm)
  rw [rendered, rendered'] at same
  have starts := (escape_of_mapElement_eq same).1
  rwa [given firstText identifier, given secondText identifier', identifier, identifier'] at starts

/-- A slash at the end of the marker's text makes the old map close itself. -/
theorem renderedApart_markerSlash : RenderedApart "block_id=a".toList "marker_icon=b/".toList := by
  refine ⟨by decide, by decide, ?_⟩
  intro names freshIds otherIds
  let old : Occurrence :=
    ⟨Brackets.none, TagFamily.plain.mapTag, " block_id=a marker_icon=b".toList, .selfClosing⟩
  let current : Occurrence := enclosing TagFamily.plain.mapTag "block_id=a".toList
    (enclosed TagFamily.plain.markerTag "marker_icon=b/".toList ['x'])
  have whole : oldMap .plain "block_id=a".toList "marker_icon=b/".toList ['x'] =
      old.source ++ ("x[/sbs_openstreetmap".toList ++ [']']) := by decide
  have stands : current.Stands .exact mapTags [] := by decide
  have followed : old.Stands .exact mapTags ("x[/sbs_openstreetmap".toList ++ [']']) := by decide
  rw [whole, currentMap, ← source_enclosing]
  exact (renderDocument_ne_append names stands rfl followed (by decide) otherIds freshIds).symm

/-- A slash at the end of the map's text makes the current map close itself. -/
theorem renderedApart_mapSlash : RenderedApart "block_id=a/".toList "marker_icon=b".toList := by
  refine ⟨by decide, by decide, ?_⟩
  intro names freshIds otherIds
  let old : Occurrence := enclosing TagFamily.plain.mapTag ("block_id=a/".toList ++ ' ' :: "marker_icon=b".toList) ['x']
  let current : Occurrence := ⟨Brackets.none, TagFamily.plain.mapTag, " block_id=a".toList, .selfClosing⟩
  have whole : currentMap .plain "block_id=a/".toList "marker_icon=b".toList ['x'] =
      current.source ++ ("[sbs_marker marker_icon=b]x[/sbs_marker][/sbs_openstreetmap".toList ++ [']']) := by decide
  have stands : old.Stands .exact mapTags [] := by decide
  have followed : current.Stands .exact mapTags
      ("[sbs_marker marker_icon=b]x[/sbs_marker][/sbs_openstreetmap".toList ++ [']']) := by decide
  rw [whole, oldMap, ← source_enclosing]
  exact renderDocument_ne_append names stands rfl followed (by decide) freshIds otherIds

/-- A closing tag but for its bracket at the end of the marker's text closes the current map. -/
theorem renderedApart_closing : RenderedApart "block_id=a".toList "marker_icon=[/sbs_openstreetmap".toList := by
  refine ⟨by decide, by decide, ?_⟩
  intro names freshIds otherIds
  let old : Occurrence := enclosing TagFamily.plain.mapTag
    ("block_id=a".toList ++ ' ' :: "marker_icon=[/sbs_openstreetmap".toList) ['x']
  let current : Occurrence := enclosing TagFamily.plain.mapTag "block_id=a".toList "[sbs_marker marker_icon=".toList
  have whole : currentMap .plain "block_id=a".toList "marker_icon=[/sbs_openstreetmap".toList ['x'] =
      current.source ++ ("x[/sbs_marker][/sbs_openstreetmap".toList ++ [']']) := by decide
  have stands : old.Stands .exact mapTags [] := by decide
  have followed : current.Stands .exact mapTags ("x[/sbs_marker][/sbs_openstreetmap".toList ++ [']']) := by decide
  rw [whole, oldMap, ← source_enclosing]
  exact renderDocument_ne_append names stands rfl followed (by decide) freshIds otherIds

/-- A key and an equals sign at the end of the map's text take the first word of the marker's text as the value. -/
theorem renderedApart_dangling : RenderedApart "block_id=a api_key=k block_id=".toList "marker_color=red".toList := by
  have mapText : MapText "block_id=a api_key=k block_id=".toList := by decide
  have joinedText : MapText "block_id=a api_key=k block_id= marker_color=red".toList := by decide
  refine ⟨mapText, by decide, ?_⟩
  intro names freshIds otherIds same
  have old : (enclosing TagFamily.plain.mapTag "block_id=a api_key=k block_id= marker_color=red".toList ['x']).Stands
      .exact mapTags [] := by decide
  have current : (enclosing TagFamily.plain.mapTag "block_id=a api_key=k block_id=".toList
      "[sbs_marker marker_color=red]x[/sbs_marker]".toList).Stands .exact mapTags [] := by decide
  have identifiers := blockId_of_renderDocument_eq joinedText mapText (by decide) (by decide) old current same
  exact absurd identifiers (by decide)

/-- Each of the four conditions is needed to tell the texts apart. -/
theorem renderedApart_inseparable :
    RenderedApart "block_id=a".toList "marker_icon=b/".toList ∧
      RenderedApart "block_id=a/".toList "marker_icon=b".toList ∧
      RenderedApart "block_id=a".toList "marker_icon=[/sbs_openstreetmap".toList ∧
      RenderedApart "block_id=a api_key=k block_id=".toList "marker_color=red".toList :=
  ⟨renderedApart_markerSlash, renderedApart_mapSlash, renderedApart_closing, renderedApart_dangling⟩

/-! ### Texts in which something old is overlooked -/

/-- A double quote in a value of the marker is escaped twice in the data of the old map, once before it is put in the data
and once with it, and only with it in that of the current one. -/
theorem renderedApart_quote : Separable .plain "block_id=a api_key=k".toList "marker_icon='b\"'".toList ∧
    RenderedApart "block_id=a api_key=k".toList "marker_icon='b\"'".toList := by
  have mapText : MapText "block_id=a api_key=k".toList := by decide
  have markerText : MarkerText "marker_icon='b\"'".toList := by decide
  have separable : Separable .plain "block_id=a api_key=k".toList "marker_icon='b\"'".toList :=
    ⟨by decide, by decide, by decide, by decide⟩
  have clean : '[' ∉ ['x'] := by decide
  refine ⟨separable, mapText, markerText, ?_⟩
  intro names freshIds otherIds same
  have old := renderDocument_enclosed names freshIds (stands_oldMap mapText markerText separable clean)
    (currentOccurrence_oldMap Catalog.builtin mapText markerText separable (by decide))
  obtain ⟨plain, -, -, current⟩ := exists_renderMap names mapText (fun _ => by decide)
    (stands_currentMap mapText markerText separable clean) otherIds
  rw [oldMap, old, currentMap, current] at same
  exact absurd (escape_of_renderMap_eq same).2 (by decide +kernel)

/-- A marker's key in capitals stays where it is, and no marker is made of it. -/
theorem renderedApart_capitalMarker : Separable .plain "block_id=a".toList "MARKER_COLOR=red".toList ∧
    RenderedApart "block_id=a".toList "MARKER_COLOR=red".toList := by
  have mapText : MapText "block_id=a".toList := by decide
  have markerText : MarkerText "MARKER_COLOR=red".toList := by decide
  have separable : Separable .plain "block_id=a".toList "MARKER_COLOR=red".toList :=
    ⟨by decide, by decide, by decide, by decide⟩
  have clean : '[' ∉ ['x'] := by decide
  refine ⟨separable, mapText, markerText, ?_⟩
  intro names freshIds otherIds same
  have old := renderDocument_enclosed names freshIds (stands_oldMap mapText markerText separable clean)
    (currentOccurrence_of_unnoticed Catalog.builtin (by decide))
  have current := renderDocument_enclosed names otherIds (stands_currentMap mapText markerText separable clean)
    (currentOccurrence_of_unnoticed Catalog.builtin (by decide))
  rw [oldMap, old, currentMap, current] at same
  exact absurd (escape_of_renderMap_eq same).2 (by decide +kernel)

/-- A credential's key in capitals is moved only where a marker's key is noticed beside it. -/
theorem renderedApart_capitalCredential :
    Separable .plain "block_id=a map_style=Stadia.Outdoors API_KEY=k".toList "marker_color=red".toList ∧
      RenderedApart "block_id=a map_style=Stadia.Outdoors API_KEY=k".toList "marker_color=red".toList := by
  have mapText : MapText "block_id=a map_style=Stadia.Outdoors API_KEY=k".toList := by decide
  have markerText : MarkerText "marker_color=red".toList := by decide
  have separable : Separable .plain "block_id=a map_style=Stadia.Outdoors API_KEY=k".toList "marker_color=red".toList :=
    ⟨by decide, by decide, by decide, by decide⟩
  have clean : '[' ∉ ['x'] := by decide
  refine ⟨separable, mapText, markerText, ?_⟩
  intro names freshIds otherIds same
  have old := renderDocument_enclosed names freshIds (stands_oldMap mapText markerText separable clean)
    (currentOccurrence_oldMap Catalog.builtin mapText markerText separable (by decide))
  have current := renderDocument_enclosed names otherIds (stands_currentMap mapText markerText separable clean)
    (currentOccurrence_of_unnoticed Catalog.builtin (by decide))
  rw [oldMap, old, currentMap, current] at same
  exact absurd (escape_of_renderMap_eq same).1 (by decide)

/-- Each of the conditions of being noticed is needed, even of texts that can be told apart: a marker without double quotes,
a key in small letters where the marker is, and one where a credential is to be moved. -/
theorem renderedApart_unnoticeable :
    (Separable .plain "block_id=a api_key=k".toList "marker_icon='b\"'".toList ∧
        RenderedApart "block_id=a api_key=k".toList "marker_icon='b\"'".toList) ∧
      (Separable .plain "block_id=a".toList "MARKER_COLOR=red".toList ∧
        RenderedApart "block_id=a".toList "MARKER_COLOR=red".toList) ∧
      Separable .plain "block_id=a map_style=Stadia.Outdoors API_KEY=k".toList "marker_color=red".toList ∧
        RenderedApart "block_id=a map_style=Stadia.Outdoors API_KEY=k".toList "marker_color=red".toList :=
  ⟨renderedApart_quote, renderedApart_capitalMarker, renderedApart_capitalCredential⟩

end MapEmbed.Page
