import MapEmbed.Text.Basic

/-!
# Markup tokens

What a markup text is cut into: tags, single characters, and comments. Two further tokens carry no content: a NUL
character, which some places ignore, and a mark for a fault of the markup, which separates what stands before it
from what stands after it.
-/

namespace MapEmbed.Html

/-- The four blanks of markup; line ends are line feeds by now. -/
def isMarkupBlank (c : Char) : Bool :=
  c == '\t' || c == '\n' || c == '\x0c' || c == ' '

/-- A start tag. An attribute name occurs once. -/
structure Tag where
  name : Text
  attributes : List (Text × Text)
  deriving DecidableEq, Repr

/-- A token of a markup text. -/
inductive Token where
  | startTag (tag : Tag)
  | endTag (name : Text)
  | char (c : Char)
  | nul
  | comment (content : Text)
  | fault
  deriving DecidableEq, Repr

/-- How far a script has got with hiding itself in a comment. -/
inductive ScriptPhase where
  | plain
  | escapeStart
  | escapeStartDash
  /-- Inside a comment, after so many dashes, at most two. -/
  | escaped (dashes : Nat)
  /-- Inside a script element inside a comment, after so many dashes. -/
  | doubled (dashes : Nat)
  | doubledLessThan
  /-- After a tag inside a comment, with the letters of its name, last first. -/
  | doubleStart (seen : Text)
  /-- After an end tag inside the inner script, with the letters of its name, last first. -/
  | doubleEnd (seen : Text)
  deriving DecidableEq, Repr

/-- What the characters between tags mean. -/
inductive ContentMode where
  /-- Tags and references are read. -/
  | data
  /-- References are read, and the end tag of the element. -/
  | escapableText
  /-- Only the end tag of the element is read. -/
  | rawText
  /-- As raw text, with comments inside. -/
  | script (phase : ScriptPhase)
  /-- Nothing is read any more. -/
  | plainText
  deriving DecidableEq, Repr

end MapEmbed.Html
