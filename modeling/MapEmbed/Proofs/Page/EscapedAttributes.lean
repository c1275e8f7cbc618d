import MapEmbed.Page.Document
import MapEmbed.Proofs.Attribute.EscapedValue
import MapEmbed.Proofs.Json.Escaping

/-!
# Elements of attributes that were escaped

Migration escapes the values of a map's attributes, and those of the marker in it. Markers and maps are written from
them as from the values themselves: numbers and switches are read alike, and the texts are escaped once more, which
changes nothing. Only a double quote in the data of a marker is written in another way when it was escaped.
-/

namespace MapEmbed
open Page

/-! ### Markers -/

/-- A marker with its address and its icon escaped. -/
def Marker.escaped (m : Marker) : Marker :=
  { m with address := Text.escape m.address, icon := Text.escape m.icon }

/-- A marker without double quotes in its address and its icon. -/
def Marker.Unquoted (m : Marker) : Prop :=
  '"' ∉ m.address ∧ '"' ∉ m.icon

/-- Escaped attributes denote the escaped marker. -/
theorem Attributes.EscapedFrom.marker {plain escaped : Attributes} (escapes : plain.EscapedFrom escaped) :
    Marker.ofAttributes escaped = (Marker.ofAttributes plain).escaped := by
  have address := escapes.getD_nil (by decide : isPositionalKey "marker_address".toList = false)
  have icon := escapes.getD_nil (by decide : isPositionalKey "marker_icon".toList = false)
  have source :=
    escapes.map_get? (by decide : isPositionalKey "marker_source".toList = false) MarkerSource.ofText_escape
  have color := escapes.map_get? (by decide : isPositionalKey "marker_color".toList = false) MarkerColor.ofText_escape
  have latitude :=
    escapes.map_get? (by decide : isPositionalKey "marker_latitude".toList = false) Coercion.number_escape
  have longitude :=
    escapes.map_get? (by decide : isPositionalKey "marker_longitude".toList = false) Coercion.number_escape
  have center := escapes.map_get? (by decide : isPositionalKey "marker_center".toList = false) Coercion.truth_escape
  unfold Marker.ofAttributes Marker.escaped
  simp only [address, icon, source, color, latitude, longitude, center]

/-- The element of an escaped marker is that of the marker. -/
theorem Page.markerElement_escaped (m : Marker) (popup : Text) :
    markerElement m.escaped popup = markerElement m popup := by
  have summary : Text.escape m.escaped.summary = Text.escape m.summary := by
    cases source : m.source with
    | address =>
      simp only [Marker.summary, Marker.escaped, source]
      exact Text.escape_escape m.address
    | coordinates => simp only [Marker.summary, Marker.escaped, source]
  have address : Text.escape m.escaped.address = Text.escape m.address := Text.escape_escape m.address
  have icon : Text.escape m.escaped.icon = Text.escape m.icon := Text.escape_escape m.icon
  have attributes : markerAttributes m.escaped popup = markerAttributes m popup := by
    simp only [markerAttributes, authored, address, icon]
    rfl
  rw [markerElement, attributes, summary, markerElement]

/-- An escaped popup text is shown as the text itself. -/
theorem Page.markerElement_escape_popup (m : Marker) (popup : Text) :
    markerElement m (Text.escape popup) = markerElement m popup := by
  have text : authored "data-marker-text" (Text.escape popup) = authored "data-marker-text" popup := by
    rw [authored, Text.escape_escape, authored]
  rw [markerElement, markerAttributes, text, markerElement, markerAttributes]

/-- The data of an escaped marker has the same escaped text, if there are no double quotes. -/
theorem Marker.sameEscaped_toJson {m : Marker} (unquoted : m.Unquoted) :
    Json.SameEscaped m.escaped.toJson m.toJson := by
  have address := Json.sameEscaped_string unquoted.1
  have icon := Json.sameEscaped_string unquoted.2
  apply Json.sameEscaped_object
  have popup : Json.SameFields
      ((m.text.map fun text => ("marker_text", Json.string text)).toList.map fun field => (field.1.toList, field.2))
      ((m.text.map fun text => ("marker_text", Json.string text)).toList.map fun field => (field.1.toList, field.2)) :=
    Json.SameFields.refl _
  exact .cons rfl (.cons address (.cons rfl (.cons rfl (.cons rfl (.cons icon (.cons rfl popup))))))

/-- The data of escaped markers has the same escaped text, if there are no double quotes. -/
theorem Page.escape_markerData {markers : List Marker} (unquoted : ∀ m ∈ markers, m.Unquoted) :
    Text.escape (markerData (markers.map Marker.escaped)) = Text.escape (markerData markers) := by
  have same : Json.SameEscaped (.array (markers.map fun m => m.escaped.toJson)) (.array (markers.map Marker.toJson)) :=
    Json.sameEscaped_array fun m member => Marker.sameEscaped_toJson (unquoted m member)
  rw [markerData, List.map_map]
  exact same

/-! ### Maps -/

/-- The start of identifiers is kept when they are escaped. -/
theorem Page.escape_blockIdStart (id : Text) : Text.escape (blockIdStart ++ id) = blockIdStart ++ Text.escape id := by
  have plain : (blockIdStart.all fun c => (Text.reserved? c).isNone) = true := by decide
  apply Text.escape_append_plain
  intro c member
  simpa using List.all_eq_true.mp plain c member

/-- Blocks that differ at most in which of their texts are escaped already. -/
structure MapBlock.Alike (first second : MapBlock) : Prop where
  blockId : Text.escape first.blockId = Text.escape second.blockId
  style : Text.escape first.style = Text.escape second.style
  styleKey : Text.escape (first.styleKey.getD []) = Text.escape (second.styleKey.getD [])
  height : first.height = second.height
  zoom : first.zoom = second.zoom
  ctrlMouseZoom : first.ctrlMouseZoom = second.ctrlMouseZoom
  latitude : first.latitude = second.latitude
  longitude : first.longitude = second.longitude
  routing : first.routing = second.routing
  router : Text.escape first.router = Text.escape second.router
  routerKey : Text.escape (first.routerKey.getD []) = Text.escape (second.routerKey.getD [])
  geocoder : Text.escape first.geocoder = Text.escape second.geocoder
  geocoderKey : Text.escape (first.geocoderKey.getD []) = Text.escape (second.geocoderKey.getD [])
  destinationMarker : first.destinationMarker = second.destinationMarker
  centerMarker : first.centerMarker = second.centerMarker
  showAttribution : first.showAttribution = second.showAttribution
  markers : Text.escape (markerData first.markers) = Text.escape (markerData second.markers)

/-- A block under its current style. -/
def MapBlock.current (b : MapBlock) : MapBlock :=
  { b with style := currentStyle b.style }

/-- Such blocks have the same element. -/
theorem MapBlock.Alike.mapElement {first second : MapBlock} (alike : first.Alike second) (inner : Text) :
    mapElement first inner = mapElement second inner := by
  have blockId : Text.escape (blockIdStart ++ first.blockId) = Text.escape (blockIdStart ++ second.blockId) := by
    rw [escape_blockIdStart, escape_blockIdStart, alike.blockId]
  have attributes : mapAttributes first = mapAttributes second := by
    simp only [mapAttributes, authored, blockId, alike.style, alike.styleKey, alike.zoom, alike.ctrlMouseZoom,
      alike.latitude, alike.longitude, alike.routing, alike.router, alike.routerKey, alike.geocoder, alike.geocoderKey,
      alike.destinationMarker, alike.centerMarker, alike.showAttribution, alike.markers]
  rw [Page.mapElement, attributes, alike.height, Page.mapElement]

namespace Attributes.EscapedFrom
variable {plain escaped : Attributes} (escapes : plain.EscapedFrom escaped)
include escapes

/-- An escaped key or the lack of one is escaped to the same text. -/
theorem escape_nonEmpty? {key : Text} (named : isPositionalKey key = false) :
    Text.escape ((MapBlock.nonEmpty? escaped key).getD []) = Text.escape ((MapBlock.nonEmpty? plain key).getD []) := by
  rw [escapes.nonEmpty? named]
  cases MapBlock.nonEmpty? plain key with
  | none => rfl
  | some value => exact Text.escape_escape value

/-- Escaped attributes point at the same marker in as long a list. -/
theorem markerPointer? {key : Text} (named : isPositionalKey key = false) {first second : List Marker}
    (length : first.length = second.length) :
    MapBlock.markerPointer? escaped key first = MapBlock.markerPointer? plain key second := by
  rw [MapBlock.markerPointer?, escapes.map_get? named Coercion.integer_escape, length, MapBlock.markerPointer?]

/-- Escaped attributes give a block alike, when the markers are as many and their data has the same escaped text. -/
theorem alike_current {first second : List Marker} (length : second.length = first.length)
    (data : Text.escape (markerData second) = Text.escape (markerData first)) :
    (MapBlock.ofAttributes escaped second).current.Alike (MapBlock.ofAttributes plain first).current := by
  have blockId := escapes.escape_getD (by decide : isPositionalKey "block_id".toList = false) []
  have style := escapes.escape_getD (by decide : isPositionalKey "map_style".toList = false) defaultStyle
  unfold MapBlock.current MapBlock.ofAttributes
  constructor
  case blockId => exact blockId
  case style => rw [← currentStyle_escape, style, currentStyle_escape]
  case styleKey => exact escapes.escape_nonEmpty? (by decide)
  case height => exact escapes.map_getD (by decide) Coercion.integer_escape 50
  case zoom => exact escapes.map_getD (by decide) Coercion.integer_escape 15
  case ctrlMouseZoom => exact escapes.map_getD (by decide) Coercion.truth_escape false
  case latitude => exact escapes.map_getD (by decide) Coercion.number_escape defaultLatitude
  case longitude => exact escapes.map_getD (by decide) Coercion.number_escape defaultLongitude
  case routing => exact escapes.map_getD (by decide) Coercion.truth_escape false
  case router => exact escapes.escape_getD (by decide) "osrmv1".toList
  case routerKey => exact escapes.escape_nonEmpty? (by decide)
  case geocoder => exact escapes.escape_getD (by decide) "nominatim".toList
  case geocoderKey => exact escapes.escape_nonEmpty? (by decide)
  case destinationMarker => exact escapes.markerPointer? (by decide) length
  case centerMarker => exact escapes.markerPointer? (by decide) length
  case showAttribution => exact escapes.map_getD (by decide) Coercion.truth_escape true
  case markers => exact data

/-- Escaped attributes and contents with escaped markers give blocks that are alike, unless an identifier has to be
supplied. -/
theorem alike (named : (plain.get? "block_id".toList).getD [] ≠ []) {content other : Text}
    (listing : Marker.listing other = (Marker.listing content).map Marker.escaped)
    (unquoted : ∀ m ∈ Marker.listing content, m.Unquoted) (freshId otherId : Text) :
    (renderedBlock otherId escaped other).Alike (renderedBlock freshId plain content) := by
  have length : (Marker.listing other).length = (Marker.listing content).length := by rw [listing, List.length_map]
  have data : Text.escape (markerData (Marker.listing other)) = Text.escape (markerData (Marker.listing content)) := by
    rw [listing, escape_markerData unquoted]
  have blockId := escapes.getD_nil (by decide : isPositionalKey "block_id".toList = false)
  have given : Text.escape ((plain.get? "block_id".toList).getD []) ≠ [] := fun nothing =>
    named (Text.escape_eq_nil_iff.mp nothing)
  have supplied : Text.escape (renderedBlock otherId escaped other).blockId =
      Text.escape (renderedBlock freshId plain content).blockId := by
    simp only [renderedBlock, MapBlock.ofAttributes, blockId, List.isEmpty_iff, given, named, if_false]
    exact Text.escape_escape _
  exact { escapes.alike_current length data with blockId := supplied }

end Attributes.EscapedFrom

/-! ### Attributes with all values escaped -/

/-- Attributes with every value escaped, those under numbers too. -/
def Attributes.escapedValues (attributes : Attributes) : Attributes :=
  attributes.mapValues Text.escape

/-- Such attributes are escaped under every key. -/
theorem Attributes.escapedFrom_escapedValues (attributes : Attributes) :
    attributes.EscapedFrom attributes.escapedValues :=
  fun key _ => OrderedMap.get?_mapValues Text.escape attributes key

/-- Elements do not show whether the values they are made of were escaped before: neither that of a marker with its
popup text, nor that of a map under its current style, with any markers and any content. -/
theorem Page.elements_escapedValues (attributes : Attributes) (popup : Text) :
    markerElement (Marker.ofAttributes attributes.escapedValues) (Text.escape popup) =
        markerElement (Marker.ofAttributes attributes) popup ∧
      ∀ (markers : List Marker) (inner : Text),
        mapElement (MapBlock.ofAttributes attributes.escapedValues markers).current inner =
          mapElement (MapBlock.ofAttributes attributes markers).current inner := by
  have escapes := attributes.escapedFrom_escapedValues
  constructor
  · rw [escapes.marker, markerElement_escaped, markerElement_escape_popup]
  · intro markers inner
    exact (escapes.alike_current rfl rfl).mapElement inner

end MapEmbed
