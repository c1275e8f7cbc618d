import MapEmbed.Html.Node

/-!
# Trees under construction

While markup is read, elements are moved, and what was put into one may end in another. So elements are kept in a
numbered list in the order of their creation, each with its parent and its children, and trees are made of them
only at the end. An element is below its parent, and no chain of children is longer than the list.
-/

namespace MapEmbed.Html

/-- A child of an element: an element by its number, a single character of text, or a comment. -/
inductive Child where
  | element (number : Nat)
  | char (c : Char)
  | comment (content : Text)
  deriving DecidableEq, Repr

/-- An element under construction. Its children are kept last first. -/
structure Draft where
  name : Text
  attributes : List (Text × Text)
  parent : Option Nat
  children : List Child
  deriving DecidableEq, Repr

/-- The elements in the order of their creation. -/
structure Forest where
  drafts : Array Draft
  deriving DecidableEq, Repr

/-- Where a node is put. -/
inductive Place where
  /-- After the last child of an element. -/
  | lastIn (number : Nat)
  /-- Before an element in its parent. -/
  | before (number : Nat)
  deriving DecidableEq, Repr

namespace Forest

/-- A new element without a parent, and its number. -/
def create (forest : Forest) (name : Text) (attributes : List (Text × Text)) : Nat × Forest :=
  (forest.drafts.size, ⟨forest.drafts.push ⟨name, attributes, none, []⟩⟩)

/-- The parent of an element. -/
def parent? (forest : Forest) (number : Nat) : Option Nat :=
  (forest.drafts[number]?).bind Draft.parent

/-- Changes the children of an element. -/
def modifyChildren (forest : Forest) (number : Nat) (change : List Child → List Child) : Forest :=
  ⟨forest.drafts.modify number fun draft => { draft with children := change draft.children }⟩

/-- Notes the parent of a child that is an element. -/
def setParent (forest : Forest) (parent : Option Nat) : Child → Forest
  | .element number => ⟨forest.drafts.modify number fun draft => { draft with parent }⟩
  | _ => forest

/-- Puts a child after an element among children that are kept last first. -/
def insertBehind (child : Child) (number : Nat) : List Child → List Child
  | [] => [child]
  | first :: rest =>
    if first = .element number then first :: child :: rest else first :: insertBehind child number rest

/-- Puts a node that has no parent into its place. -/
def insert (forest : Forest) (place : Place) (child : Child) : Forest :=
  match place with
  | .lastIn number => (forest.modifyChildren number (child :: ·)).setParent (some number) child
  | .before number =>
    match forest.parent? number with
    | none => forest
    | some parent =>
      (forest.modifyChildren parent (insertBehind child number)).setParent (some parent) child

/-- Takes an element out of its parent. -/
def detach (forest : Forest) (number : Nat) : Forest :=
  match forest.parent? number with
  | none => forest
  | some parent =>
    (forest.modifyChildren parent fun children => children.filter (· != .element number)).setParent none
      (.element number)

/-- Moves all children of one element to another that has none. -/
def moveChildren (forest : Forest) (source target : Nat) : Forest :=
  match forest.drafts[source]? with
  | none => forest
  | some draft =>
    let moved := (forest.modifyChildren source fun _ => []).modifyChildren target fun _ => draft.children
    draft.children.foldl (fun done child => done.setParent (some target) child) moved

/-- Puts a character in front of nodes; a text there goes on with it. -/
def consChar (c : Char) : List Node → List Node
  | .text content :: rest => .text (c :: content) :: rest
  | nodes => .text [c] :: nodes

/-- Puts a child in front of nodes, given the trees of elements. -/
def consChild (treeOf : Nat → Node) (nodes : List Node) : Child → List Node
  | .element number => treeOf number :: nodes
  | .char c => consChar c nodes
  | .comment content => .comment content :: nodes

/-- The tree of an element, down to a depth. -/
def tree (forest : Forest) : Nat → Nat → Node
  | 0, _ => .text []
  | depth + 1, number =>
    match forest.drafts[number]? with
    | none => .text []
    | some draft => .element draft.name draft.attributes (draft.children.foldl (consChild (tree forest depth)) [])

/-- The trees below an element. No chain of children is longer than the number of elements. -/
def childTrees (forest : Forest) (number : Nat) : List Node :=
  match forest.drafts[number]? with
  | none => []
  | some draft => draft.children.foldl (consChild (forest.tree forest.drafts.size)) []

end Forest
end MapEmbed.Html
