import MapEmbed.Page.Element
import MapEmbed.Marker.Listing
import MapEmbed.Migration.Document
import MapEmbed.Html.Sanitizer

/-!
# Rendering a document

Every map of a document becomes an element, and in its content every marker. An escaped shortcode loses one pair
of brackets; a bracket on one side only is put back. All text between maps is copied. A map without an identifier
gets a fresh one from a supply that is numbered by the maps of the document. What a content says may depend on the
table of names with which its references are read, so every rendering takes the table.
-/

namespace MapEmbed.Page

/-- A marker of a content, rendered. -/
def renderMarker (o : Shortcode.Occurrence) : Text :=
  if o.escaped then o.unescaped
  else
    o.brackets.wrap
      (markerElement (Marker.ofAttributes (Attributes.parseLenient o.rawAttributes)) o.contentText)

/-- A content with its markers rendered. -/
def expandMarkers (content : Text) : Text :=
  (Shortcode.Segmentation.ofText .exact markerTags content).replace fun _ o => renderMarker o

/-- The block that attributes and a content denote, under its current style, with a fresh identifier if it has
none. -/
def renderedBlock (freshId : Text) (attributes : Attributes) (content : Text) : MapBlock :=
  let block := MapBlock.ofAttributes attributes (Marker.listing content)
  { block with
    style := currentStyle block.style
    blockId := if block.blockId.isEmpty then freshId else block.blockId }

/-- A map, rendered from its attributes and its content, whose markup is read with a table of names. -/
def renderMapWith (names : Html.ReferenceTable) (freshId : Text) (attributes : Attributes) (content : Option Text) :
    Text :=
  let inside := content.getD []
  mapElement (renderedBlock freshId attributes inside) (Html.sanitizeWith names (expandMarkers inside))

/-- A map of a document, rendered. -/
def renderOccurrence (names : Html.ReferenceTable) (freshId : Text) (o : Shortcode.Occurrence) : Text :=
  if o.escaped then o.unescaped
  else o.brackets.wrap (renderMapWith names freshId (Attributes.parseLenient o.rawAttributes) o.body.content?)

/-- A document with its maps rendered, `freshIds` giving identifiers by the number of the map. -/
def renderMaps (names : Html.ReferenceTable) (freshIds : Nat → Text) (document : Text) : Text :=
  (Shortcode.Segmentation.ofText .exact mapTags document).replace fun number o =>
    renderOccurrence names (freshIds number) o

/-- A document rendered, after migration if that is wanted. -/
def renderDocumentWith (names : Html.ReferenceTable) (catalog : Catalog) (migrates : Bool) (freshIds : Nat → Text)
    (document : Text) : Text :=
  renderMaps names freshIds (if migrates then Migration.migrate catalog document else document)

/-- A map, rendered with the names that are written out here. -/
def renderMap (freshId : Text) (attributes : Attributes) (content : Option Text) : Text :=
  renderMapWith Html.namedReferences freshId attributes content

/-- A document, rendered with the names that are written out here. -/
def renderDocument (catalog : Catalog) (migrates : Bool) (freshIds : Nat → Text) (document : Text) : Text :=
  renderDocumentWith Html.namedReferences catalog migrates freshIds document

end MapEmbed.Page
