import MapEmbed.Migration.Fields
import MapEmbed.Block.Tags
import MapEmbed.Attribute.Reader
import MapEmbed.Shortcode.Segmentation
import MapEmbed.Shortcode.Printer

/-!
# Migrating a document

Every map of a document is changed on its own: its old attributes are moved, and the marker that was in them
becomes a marker shortcode around the content. Maps that are escaped, that have nothing old, or whose attributes
cannot be read stay as they are, and so does all text between maps. Two quick looks at the raw text, one at the
document and one at each map, spare the rest of the work where nothing old can be found.
-/

namespace MapEmbed.Migration

/-- Whether raw attribute text may hold old attributes. -/
def mayBeOld (raw : Text) : Bool :=
  Text.holds markerStart raw || Text.holds "api_".toList raw || Text.holds "access_".toList raw

/-- The content of a migrated map: inside the marker that was taken out of its attributes, if there was one. -/
def movedContent (tag : Text) (moved : Moved) (content : Text) : Text :=
  match moved.marker with
  | none => content
  | some marker => Shortcode.print ((markerTagFor? tag).getD tag) marker content Shortcode.Brackets.none

/-- The current form of an old map whose attributes are given; nothing if they are current. -/
def currentForm? (catalog : Catalog) (o : Shortcode.Occurrence) (attributes : Attributes) : Option Text :=
  (move? catalog attributes).map fun moved =>
    Shortcode.print o.tag moved.attributes (movedContent o.tag moved o.contentText) o.brackets

/-- The current form of an old map; nothing if it stays as it is. -/
def migrateOccurrence? (catalog : Catalog) (o : Shortcode.Occurrence) : Option Text :=
  if o.escaped || !mayBeOld o.rawAttributes then none
  else
    match Attributes.parse o.rawAttributes with
    | .error _ => none
    | .ok attributes => currentForm? catalog o attributes

/-- The start of every tag that can be migrated. -/
def tagStart : Text := "[sbs".toList

/-- The migrated document; nothing if no map of it is old. -/
def migrate? (catalog : Catalog) (document : Text) : Option Text :=
  if !Text.holds tagStart document then none
  else
    let maps := Shortcode.Segmentation.ofText .exact mapTags document
    if maps.occurrences.any fun o => (migrateOccurrence? catalog o).isSome then
      some (maps.replace fun _ o => (migrateOccurrence? catalog o).getD o.source)
    else none

/-- The document after migration. -/
def migrate (catalog : Catalog) (document : Text) : Text :=
  (migrate? catalog document).getD document

/-- What replaces the stored body of a post; nothing if the body stays. An empty body is not looked at. -/
def migrateBody? (catalog : Catalog) (body : Text) : Option Text :=
  if body.isEmpty then none else migrate? catalog body

end MapEmbed.Migration
