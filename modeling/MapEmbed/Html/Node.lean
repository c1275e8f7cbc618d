import MapEmbed.Text.Basic

/-!
# Markup trees

What a markup text denotes: elements with attributes and children, texts, and comments. Names are the lower-case
names of the elements and attributes; texts and values are decoded.
-/

namespace MapEmbed.Html

/-- A node of a markup tree. -/
inductive Node where
  | text (content : Text)
  | comment (content : Text)
  | element (name : Text) (attributes : List (Text × Text)) (children : List Node)

/-- A start tag with attribute values that are already escaped. -/
def startTag (name : Text) (attributes : List (Text × Text)) : Text :=
  '<' :: name ++ attributes.flatMap (fun (key, value) => ' ' :: key ++ ['=', '"'] ++ value ++ ['"']) ++ ['>']

/-- An end tag. -/
def endTag (name : Text) : Text :=
  ['<', '/'] ++ name ++ ['>']

end MapEmbed.Html
