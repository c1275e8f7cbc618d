import MapEmbed.Json.Basic
import MapEmbed.Number.Layout

/-!
# Writing data values

Two forms of the same text: a compact one without blanks, and an indented one with a line for each item. In
strings only what must be escaped is escaped.
-/

namespace MapEmbed.Json

/-- A digit of a control character's number. -/
def hexDigit (n : Nat) : Char :=
  Nat.digitChar (n % 16)

/-- One character inside a string: quotes and backslashes get a backslash, control characters a short name or
their number. -/
def escapedChar (c : Char) : Text :=
  if c = '"' then ['\\', '"']
  else if c = '\\' then ['\\', '\\']
  else if c.toNat < 0x20 then
    if c.toNat = 0x08 then ['\\', 'b']
    else if c.toNat = 0x09 then ['\\', 't']
    else if c.toNat = 0x0A then ['\\', 'n']
    else if c.toNat = 0x0C then ['\\', 'f']
    else if c.toNat = 0x0D then ['\\', 'r']
    else ['\\', 'u', '0', '0', hexDigit (c.toNat / 16), hexDigit c.toNat]
  else [c]

/-- A string with its quotes. -/
def quoted (text : Text) : Text :=
  '"' :: text.flatMap escapedChar ++ ['"']

mutual

/-- The compact form. -/
def compact : Json → Text
  | .null => "null".toList
  | .bool value => Text.ofBool value
  | .integer value => Text.ofInt value
  | .number value => NumberLayout.data.render value
  | .string value => quoted value
  | .array items => '[' :: compactItems items ++ [']']
  | .object fields => '\x7b' :: compactFields fields ++ ['\x7d']

/-- The items of an array, separated by commas. -/
def compactItems : List Json → Text
  | [] => []
  | [item] => compact item
  | item :: next :: rest => compact item ++ ',' :: compactItems (next :: rest)

/-- The fields of an object, separated by commas. -/
def compactFields : List (Text × Json) → Text
  | [] => []
  | [(key, value)] => quoted key ++ ':' :: compact value
  | (key, value) :: next :: rest => quoted key ++ ':' :: compact value ++ ',' :: compactFields (next :: rest)

end

/-- A new line that starts with two blanks for each level. -/
def newLine (level : Nat) : Text :=
  '\n' :: List.replicate (2 * level) ' '

mutual

/-- The indented form at a level; empty arrays and objects stay on their line. -/
def indented (level : Nat) : Json → Text
  | .null => "null".toList
  | .bool value => Text.ofBool value
  | .integer value => Text.ofInt value
  | .number value => NumberLayout.data.render value
  | .string value => quoted value
  | .array [] => ['[', ']']
  | .array (item :: rest) =>
    '[' :: newLine (level + 1) ++ indented (level + 1) item ++ indentedItems (level + 1) rest ++
      newLine level ++ [']']
  | .object [] => ['\x7b', '\x7d']
  | .object ((key, value) :: rest) =>
    '\x7b' :: newLine (level + 1) ++ quoted key ++ [':', ' '] ++ indented (level + 1) value ++
      indentedFields (level + 1) rest ++ newLine level ++ ['\x7d']

/-- The items after the first, each after a comma on a line of its own. -/
def indentedItems (level : Nat) : List Json → Text
  | [] => []
  | item :: rest => ',' :: newLine level ++ indented level item ++ indentedItems level rest

/-- The fields after the first, each after a comma on a line of its own. -/
def indentedFields (level : Nat) : List (Text × Json) → Text
  | [] => []
  | (key, value) :: rest =>
    ',' :: newLine level ++ quoted key ++ [':', ' '] ++ indented level value ++ indentedFields level rest

end

end MapEmbed.Json
