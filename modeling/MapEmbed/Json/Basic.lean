import MapEmbed.Number.Binary64

/-!
# Data values

The values of the JSON data format. Whole numbers are kept apart from fractional ones, and the fields of an
object keep their order.
-/

namespace MapEmbed

/-- A data value. -/
inductive Json where
  | null
  | bool (value : Bool)
  | integer (value : Int)
  | number (value : Binary64)
  | string (value : Text)
  | array (items : List Json)
  | object (fields : List (Text × Json))

namespace Json

/-- A string, or null for none. -/
def optional : Option Text → Json
  | some text => .string text
  | none => .null

/-- An object from fields with constant names. -/
def record (fields : List (String × Json)) : Json :=
  .object (fields.map fun field => (field.1.toList, field.2))

end Json
end MapEmbed
