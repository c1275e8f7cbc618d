import MapEmbed.Unicode.Ranges

/-!
# Blanks, connectors and joiners

Three small classes: the characters that separate words, and the punctuation and invisible characters
that may stand inside one.
-/

namespace MapEmbed.Unicode

/-- Every code point with the property `White_Space`. -/
def whiteSpace : Ranges := [
  (0x9, 0xD), (0x20, 0x20), (0x85, 0x85), (0xA0, 0xA0), (0x1680, 0x1680), (0x2000, 0x200A),
  (0x2028, 0x2029), (0x202F, 0x202F), (0x205F, 0x205F), (0x3000, 0x3000)]

/-- Every code point of the category `Pc`, the low line among them. -/
def connectorPunctuation : Ranges := [
  (0x5F, 0x5F), (0x203F, 0x2040), (0x2054, 0x2054), (0xFE33, 0xFE34), (0xFE4D, 0xFE4F),
  (0xFF3F, 0xFF3F)]

/-- The two code points with the property `Join_Control`. -/
def joinControl : Ranges := [
  (0x200C, 0x200D)]

end MapEmbed.Unicode
