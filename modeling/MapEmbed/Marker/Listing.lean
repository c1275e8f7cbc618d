import MapEmbed.Block.Tags
import MapEmbed.Marker.Basic
import MapEmbed.Attribute.Reader
import MapEmbed.Shortcode.Segmentation

/-!
# The markers in the content of a map

The marker tags of a content, in any case, from left to right. A marker's text is what follows its opening tag
up to the next bracket, whether or not a closing tag comes after it. Escaped tags are no markers.
-/

namespace MapEmbed.Marker

/-- The pieces of one marker tag. -/
structure Reading where
  /-- The attribute text. -/
  attributes : Text
  /-- The text after the opening tag. -/
  text : Text
  deriving DecidableEq, Repr

/-- The gap that follows the front of a list of pieces. -/
def nextGap (tail : Text) : List (Text × Shortcode.Occurrence) → Text
  | [] => tail
  | (gap, _) :: _ => gap

/-- The text after an opening tag up to the next bracket. The next occurrence starts with a bracket, so no more
than the gap before it is needed. -/
def textAfter (o : Shortcode.Occurrence) (gap : Text) : Text :=
  (o.afterOpening ++ gap).takeWhile (· != '[')

/-- The readings of pieces that `tail` follows. -/
def readingsOf (tail : Text) : List (Text × Shortcode.Occurrence) → List Reading
  | [] => []
  | (_, o) :: rest =>
    if o.escaped then readingsOf tail rest
    else ⟨o.rawAttributes, textAfter o (nextGap tail rest)⟩ :: readingsOf tail rest

/-- The readings of a content. -/
def readings (content : Text) : List Reading :=
  let segmentation := Shortcode.Segmentation.ofText .ignoring markerTags content
  readingsOf segmentation.tail segmentation.pieces

/-- The marker that a reading denotes; malformed attributes are passed over. -/
def ofReading (reading : Reading) : Marker :=
  { ofAttributes (Attributes.parseLenient reading.attributes) with
    text := if reading.text.isEmpty then none else some reading.text }

/-- The markers of a content in order. -/
def listing (content : Text) : List Marker :=
  (readings content).map ofReading

end MapEmbed.Marker
