import MapEmbed.Block.Basic
import MapEmbed.Html.Node
import MapEmbed.Json.Printer

/-!
# Maps and markers as markup

The elements that the script of a page turns into maps. A map carries its settings and its markers in data
attributes of one element, and shows its cleaned content inside; a marker shows its position.
-/

namespace MapEmbed.Page

/-- The start of the identifiers of map elements. -/
def blockIdStart : Text := "sbs-openstreetmap-block-".toList

/-- An attribute with an author's text, escaped. -/
def authored (name : String) (value : Text) : Text × Text :=
  (name.toList, Text.escape value)

/-- An attribute with a value that needs no escaping. -/
def constant (name : String) (value : Text) : Text × Text :=
  (name.toList, value)

/-- The data of a map's markers. -/
def markerData (markers : List Marker) : Text :=
  (Json.array (markers.map Marker.toJson)).compact

/-- The attributes of a map's element. -/
def mapAttributes (b : MapBlock) : List (Text × Text) :=
  [authored "id" (blockIdStart ++ b.blockId),
    constant "class" "sbs_openstreetmap_module".toList,
    authored "data-map-style" b.style,
    authored "data-map-style-key" (b.styleKey.getD []),
    constant "data-zoom" (Text.ofInt b.zoom),
    constant "data-ctrl-mouse-zoom" (Text.ofBool b.ctrlMouseZoom),
    constant "data-latitude" (b.latitude.fixed 6),
    constant "data-longitude" (b.longitude.fixed 6),
    constant "data-routing" (Text.ofBool b.routing),
    constant "data-destination-marker" (Text.ofInt (indexNumber b.destinationMarker)),
    authored "data-router" b.router,
    authored "data-router-key" (b.routerKey.getD []),
    constant "data-show-attribution" (Text.ofBool b.showAttribution),
    authored "data-geocoder" b.geocoder,
    authored "data-geocoder-key" (b.geocoderKey.getD []),
    constant "data-center-marker" (Text.ofInt (indexNumber b.centerMarker)),
    authored "data-marker-list" (markerData b.markers)]

/-- The name of the element that maps and markers are made of. -/
def divName : Text := "div".toList

/-- A map's element around its content, which is clean already. -/
def mapElement (b : MapBlock) (inner : Text) : Text :=
  Html.startTag divName (mapAttributes b) ++
    Html.startTag divName
      [constant "class" "sbs_openstreetmap_container".toList,
        constant "style" ("padding-bottom: ".toList ++ Text.ofInt b.height ++ ['%'])] ++
    Html.endTag divName ++
    Html.startTag divName [constant "class" "marker_list".toList] ++ inner ++ Html.endTag divName ++
    Html.endTag divName

/-- The attributes of a marker's element. -/
def markerAttributes (m : Marker) (popup : Text) : List (Text × Text) :=
  [constant "class" "marker_element".toList,
    constant "data-marker-source" m.source.name,
    authored "data-marker-address" m.address,
    constant "data-marker-latitude" (m.latitude.fixed 6),
    constant "data-marker-longitude" (m.longitude.fixed 6),
    authored "data-marker-icon" m.icon,
    constant "data-marker-color" m.color.name,
    authored "data-marker-text" popup]

/-- A marker's element with the text of its popup. -/
def markerElement (m : Marker) (popup : Text) : Text :=
  Html.startTag divName (markerAttributes m popup) ++ "Marker ".toList ++
    Html.startTag "span".toList [constant "class" "marker_number".toList] ++ Html.endTag "span".toList ++
    " (".toList ++ Text.escape m.summary ++ [')'] ++ Html.endTag divName

end MapEmbed.Page
