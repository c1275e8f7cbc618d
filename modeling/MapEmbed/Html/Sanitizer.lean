import MapEmbed.Html.AllowList
import MapEmbed.Html.Fragment
import MapEmbed.Text.Reference

/-!
# Cleaning an author's markup

The nodes of a fragment are written out again with what the allow list keeps. Texts and values are encoded afresh,
and the attributes of an element are sorted by name, so that the result depends on the nodes alone.
-/

namespace MapEmbed.Html

/-- Whether one name stands before or at the place of another in the order of code points. -/
def nameLe : Text → Text → Bool
  | [], _ => true
  | _ :: _, [] => false
  | c :: rest, d :: others =>
    if c.toNat < d.toNat then true else if d.toNat < c.toNat then false else nameLe rest others

/-- Puts an attribute into a sorted list, before the first that does not stand before it. -/
def insertByName (entry : Text × Text) : List (Text × Text) → List (Text × Text)
  | [] => [entry]
  | first :: rest => if nameLe entry.1 first.1 then entry :: first :: rest else first :: insertByName entry rest

/-- Attributes sorted by name; those of one name keep their order. -/
def sortByName (attributes : List (Text × Text)) : List (Text × Text) :=
  attributes.foldr insertByName []

/-- The attributes that an element keeps, encoded and sorted. -/
def keptAttributes (own : List Text) (attributes : List (Text × Text)) : List (Text × Text) :=
  (sortByName (attributes.filter fun entry => allowsAttribute own entry.1 && isSafeValue entry.1 entry.2)).map
    fun entry => (entry.1, Text.encode entry.2)

mutual

/-- The clean markup of a node. -/
def cleanNode : Node → Text
  | .text content => Text.encode content
  | .comment _ => []
  | .element name attributes children =>
    if droppedElements.contains name then []
    else match ownAttributes? name with
      | none => cleanNodes children
      | some own =>
        let opened := startTag name (keptAttributes own attributes)
        if voidElements.contains name then opened else opened ++ cleanNodes children ++ endTag name

/-- The clean markup of nodes in a row. -/
def cleanNodes : List Node → Text
  | [] => []
  | node :: rest => cleanNode node ++ cleanNodes rest

end

/-- Cleans a fragment of markup that is read with a table of names. -/
def sanitizeWith (names : ReferenceTable) (markup : Text) : Text :=
  cleanNodes (parseFragmentWith names markup)

/-- Cleans a fragment of markup. -/
def sanitize (markup : Text) : Text :=
  sanitizeWith namedReferences markup

end MapEmbed.Html
