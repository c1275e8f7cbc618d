import MapEmbed.OrderedMap
import MapEmbed.Text.Reference

/-!
# Attributes

The attributes of a shortcode in the order in which their keys first came. A value written without a key stands
under its number among such values, in decimal digits; a key of digits is therefore written back as a bare
quoted value.
-/

namespace MapEmbed

/-- Attributes in order. -/
abbrev Attributes := OrderedMap Text

/-- Whether a key numbers a value that was written without a key. -/
def isPositionalKey (key : Text) : Bool :=
  !key.isEmpty && key.all Unicode.isAsciiDigit

namespace Attributes

/-- One attribute in markup: the value escaped in double quotes, after its key unless that is a number. -/
def entryText (entry : Text × Text) : Text :=
  let quoted := '"' :: Text.escape entry.2 ++ ['"']
  if isPositionalKey entry.1 then quoted else entry.1 ++ '=' :: quoted

/-- The attributes in markup, separated by single spaces. -/
def toText (attributes : Attributes) : Text :=
  List.intercalate [' '] (attributes.entries.map entryText)

end Attributes
end MapEmbed
