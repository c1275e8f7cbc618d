import Mathlib.Data.List.Chain
import MapEmbed.Proofs.Html.Accepting

/-!
# The nodes that clean markup is written for

Cleaning leaves some nodes of a fragment out, with or without what they hold, and writes the others. What is left is a
tree of its own: the one whose tokens clean markup consists of. It keeps as it is when it is cleaned again, and its
tokens tell it: read from behind, an end tag opens an element, and the start tag closes it again.
-/

namespace MapEmbed.Html

mutual

/-- What is kept of a node, in front of other nodes. -/
def keptNode : Node → List Node → List Node
  | .text content, behind => content.foldr Forest.consChar behind
  | .comment _, behind => behind
  | .element name attributes children, behind =>
    if droppedElements.contains name then behind
    else match ownAttributes? name with
      | none => keptNodes children behind
      | some own =>
        .element name (keptEntries own attributes) (if voidElements.contains name then [] else keptNodes children []) ::
          behind

/-- What is kept of nodes in a row, in front of other nodes. -/
def keptNodes : List Node → List Node → List Node
  | [], behind => behind
  | node :: rest, behind => keptNode node (keptNodes rest behind)

end

/-- The nodes in the elements that are open, the innermost first, after the innermost was closed at its start. -/
def gatherElement (tag : Tag) : List (List Node) → List (List Node)
  | inside :: around :: outer => (.element tag.name tag.attributes inside :: around) :: outer
  | open_ => open_

/-- The nodes in the elements that are open, the innermost first, where a text is read from behind. -/
def Token.gather : Token → List (List Node) → List (List Node)
  | .char c, inside :: outer => Forest.consChar c inside :: outer
  | .startTag tag, open_ => gatherElement tag (if voidElements.contains tag.name then [] :: open_ else open_)
  | .endTag _, open_ => [] :: open_
  | _, open_ => open_

section
variable {Attributed : List (Text × Text) → Prop} {Written : Char → Prop} {own : List Text} {name : Text}
  {attributes : List (Text × Text)} {tag : Tag}

/-! ### Attributes in order -/

/-- Of two names one stands before the other. -/
theorem nameLe_total (first second : Text) : nameLe first second = true ∨ nameLe second first = true := by
  induction first generalizing second with
  | nil => exact Or.inl rfl
  | cons c rest inductionHypothesis =>
    cases second with
    | nil => exact Or.inr rfl
    | cons d others =>
      rw [nameLe, nameLe]
      by_cases less : c.toNat < d.toNat
      · simp [less]
      · by_cases greater : d.toNat < c.toNat
        · simp [greater]
        · simpa [less, greater] using inductionHypothesis others

/-- Attributes stand in order if each stands before the next one. -/
def Ordered (attributes : List (Text × Text)) : Prop :=
  attributes.IsChain fun one other => nameLe one.1 other.1 = true

/-- An attribute is put where it belongs. -/
theorem Ordered.insertByName (ordered : Ordered attributes) (entry : Text × Text) :
    Ordered (insertByName entry attributes) := by
  induction attributes with
  | nil => exact List.isChain_singleton entry
  | cons first rest inductionHypothesis =>
    rw [Html.insertByName]
    split
    · rename_i before
      exact List.isChain_cons_cons.mpr ⟨before, ordered⟩
    · rename_i behind
      have later := (nameLe_total entry.1 first.1).resolve_left behind
      have inserted := inductionHypothesis ordered.tail
      cases rest with
      | nil => exact List.isChain_cons_cons.mpr ⟨later, List.isChain_singleton entry⟩
      | cons second others =>
        rw [Html.insertByName] at inserted ⊢
        split at inserted
        · rename_i here
          rw [if_pos here]
          exact List.isChain_cons_cons.mpr ⟨later, inserted⟩
        · rename_i further
          rw [if_neg further]
          exact List.isChain_cons_cons.mpr ⟨(List.isChain_cons_cons.mp ordered).1, inserted⟩

/-- Sorted attributes stand in order. -/
theorem ordered_sortByName (attributes : List (Text × Text)) : Ordered (sortByName attributes) := by
  induction attributes with
  | nil => exact List.isChain_nil
  | cons entry rest inductionHypothesis => exact inductionHypothesis.insertByName entry

/-- Attributes in order stay as they are. -/
theorem Ordered.sortByName_eq (ordered : Ordered attributes) : sortByName attributes = attributes := by
  induction attributes with
  | nil => rfl
  | cons entry rest inductionHypothesis =>
    have later : sortByName (entry :: rest) = Html.insertByName entry (sortByName rest) := rfl
    rw [later, inductionHypothesis ordered.tail]
    cases rest with
    | nil => rfl
    | cons first others => exact if_pos (List.isChain_cons_cons.mp ordered).1

/-- Attributes are kept as they are if they may all be kept and stand in order. -/
theorem keptEntries_eq_self (ordered : Ordered attributes)
    (allowed : ∀ entry ∈ attributes, allowsAttribute own entry.1 = true ∧ isSafeValue entry.1 entry.2 = true) :
    keptEntries own attributes = attributes := by
  have all : (attributes.filter fun entry => allowsAttribute own entry.1 && isSafeValue entry.1 entry.2) = attributes :=
    List.filter_eq_self.mpr fun entry member => (Bool.and_eq_true _ _).mpr (allowed entry member)
  rw [keptEntries, all, ordered.sortByName_eq]

/-- Kept attributes are kept as they are. -/
theorem keptEntries_keptEntries (own : List Text) (attributes : List (Text × Text)) :
    keptEntries own (keptEntries own attributes) = keptEntries own attributes :=
  keptEntries_eq_self (ordered_sortByName _) fun _ member => (mem_keptEntries.mp member).2

/-- The tag of an element that is kept is written as it is. -/
theorem keptTag_keptEntries (allowed : ownAttributes? name = some own) (attributes : List (Text × Text)) :
    KeptTag ⟨name, keptEntries own attributes⟩ :=
  ⟨own, allowed, keptEntries_keptEntries own attributes⟩

/-- A tag is written as it is if its values have normal line ends instead. -/
theorem KeptTag.normal (kept : KeptTag tag) : KeptTag ⟨tag.name, tag.attributes.map normalAttribute⟩ := by
  obtain ⟨own, allowed, same⟩ := kept
  have ordered : Ordered tag.attributes := same ▸ ordered_sortByName _
  refine ⟨own, allowed, keptEntries_eq_self (List.isChain_map_of_isChain normalAttribute (fun _ _ => id) ordered) ?_⟩
  intro entry member
  obtain ⟨old, listed, rfl⟩ := List.mem_map.mp member
  have known := (mem_keptEntries.mp (same.symm ▸ listed)).2
  refine ⟨known.1, isSafeValue_iff.mpr ?_⟩
  have safe := isSafeValue_iff.mp known.2
  rwa [← bareAddress_normalizeLines] at safe

/-! ### The tokens of kept nodes -/

mutual

/-- What is kept of a node writes the tokens of the node. -/
theorem emittedNodes_keptNode : ∀ node behind,
    emittedNodes (keptNode node behind) = emittedNode node ++ emittedNodes behind
  | .text content, behind => by
    rw [keptNode, emittedNode]
    induction content with
    | nil => rfl
    | cons c rest inductionHypothesis => rw [List.foldr_cons, emittedNodes_consChar, inductionHypothesis]; rfl
  | .comment content, behind => by
    rw [keptNode, emittedNode]
    rfl
  | .element name attributes children, behind => by
    rw [keptNode, emittedNode]
    split
    · rfl
    · rename_i remains
      cases allowed : ownAttributes? name with
      | none => exact emittedNodes_keptNodes children behind
      | some own =>
        dsimp only
        rw [emittedNodes, emittedNode, if_neg remains, allowed]
        dsimp only
        rw [keptEntries_keptEntries]
        split
        · rfl
        · rw [emittedNodes_keptNodes children [], emittedNodes, List.append_nil]

/-- What is kept of nodes writes the tokens of the nodes. -/
theorem emittedNodes_keptNodes : ∀ nodes behind,
    emittedNodes (keptNodes nodes behind) = emittedNodes nodes ++ emittedNodes behind
  | [], behind => by
    rw [keptNodes, emittedNodes]
    rfl
  | node :: rest, behind => by
    rw [keptNodes, emittedNodes_keptNode node, emittedNodes_keptNodes rest, emittedNodes, List.append_assoc]

end

mutual

/-- The tokens of a node tell what is kept of it. -/
theorem gather_emittedNode : ∀ node behind outer,
    (emittedNode node).foldr Token.gather (behind :: outer) = keptNode node behind :: outer
  | .text content, behind, outer => by
    rw [keptNode, emittedNode]
    induction content with
    | nil => rfl
    | cons c rest inductionHypothesis => rw [List.map_cons, List.foldr_cons, inductionHypothesis]; rfl
  | .comment content, behind, outer => by
    rw [keptNode, emittedNode]
    rfl
  | .element name attributes children, behind, outer => by
    rw [keptNode, emittedNode]
    split
    · rfl
    · cases allowed : ownAttributes? name with
      | none => exact gather_emittedNodes children behind outer
      | some own =>
        dsimp only
        split
        · rename_i bare
          rw [List.foldr_cons, Token.gather, if_pos bare]
          rfl
        · rename_i full
          rw [List.cons_append, List.foldr_cons, List.foldr_append, List.foldr_cons, List.foldr_nil, Token.gather,
            Token.gather, if_neg full, gather_emittedNodes children []]
          rfl

/-- The tokens of nodes tell what is kept of them. -/
theorem gather_emittedNodes : ∀ nodes behind outer,
    (emittedNodes nodes).foldr Token.gather (behind :: outer) = keptNodes nodes behind :: outer
  | [], behind, outer => by
    rw [keptNodes, emittedNodes]
    rfl
  | node :: rest, behind, outer => by
    rw [keptNodes, emittedNodes, List.foldr_append, gather_emittedNodes rest, gather_emittedNode node]

end

/-- The tokens of a row tell its nodes. -/
theorem Forest.Row.gather_eq {forest : Forest} {children : List Child} {given : List Token} {used : List Nat}
    (row : forest.Row children given used) {depth : Nat} (deep : used.length ≤ depth) (behind : List Node)
    (outer : List (List Node)) : given.foldr Token.gather (behind :: outer) =
      children.foldl (Forest.consChild (forest.tree depth)) behind :: outer := by
  induction row generalizing depth behind outer with
  | nil => rfl
  | char c earlier inductionHypothesis =>
    rw [List.foldr_append, List.foldl_cons]
    exact inductionHypothesis deep _ outer
  | @void number tag parent children given used draft kept bare earlier inductionHypothesis =>
    obtain ⟨depth, rfl⟩ : ∃ least, depth = least + 1 := ⟨depth - 1, by simp at deep; omega⟩
    have node : forest.tree (depth + 1) number = .element tag.name tag.attributes [] := by
      rw [Forest.tree, draft]
      rfl
    rw [List.foldr_append, List.foldl_cons, Forest.consChild, node, List.foldr_cons, List.foldr_nil, Token.gather,
      if_pos (List.contains_iff_mem.mpr bare)]
    exact inductionHypothesis (by simp at deep; omega) _ outer
  | @element number tag parent inside children content given held used draft kept full within earlier
      withinHypothesis inductionHypothesis =>
    obtain ⟨depth, rfl⟩ : ∃ least, depth = least + 1 := ⟨depth - 1, by simp at deep; omega⟩
    have inner := withinHypothesis (show held.length ≤ depth by simp at deep; omega) []
    have node : forest.tree (depth + 1) number =
        .element tag.name tag.attributes (inside.foldl (Forest.consChild (forest.tree depth)) []) := by
      rw [Forest.tree, draft]
    rw [List.append_assoc, List.foldr_append, List.cons_append, List.foldr_cons, List.foldr_append, List.foldl_cons,
      Forest.consChild, node, List.foldr_cons, List.foldr_nil, Token.gather, Token.gather, inner,
      if_neg (by simpa using full)]
    exact inductionHypothesis (by simp at deep; omega) _ outer

/-! ### What the tokens of nodes are made of -/

mutual

/-- The tokens of a node are written as they are, and made of what the node is. -/
theorem kept_emittedNode (keeps : ∀ own attributes, Attributed attributes → Attributed (keptEntries own attributes)) :
    ∀ node, node.MadeOf Attributed Written → ∀ token ∈ emittedNode node,
      token.Kept ∧ token.MadeOf Attributed Written
  | .text content, madeOf, token, member => by
    cases madeOf with
    | text chars =>
      rw [emittedNode] at member
      obtain ⟨c, listed, rfl⟩ := List.mem_map.mp member
      exact ⟨trivial, chars c listed⟩
  | .comment content, madeOf, token, member => by
    rw [emittedNode] at member
    simp at member
  | .element name attributes children, madeOf, token, member => by
    obtain ⟨legal, inside⟩ : Attributed attributes ∧ ∀ child ∈ children, child.MadeOf Attributed Written := by
      cases madeOf with
      | element own inside => exact ⟨own, inside⟩
    rw [emittedNode] at member
    split at member
    · simp at member
    · split at member
      · exact kept_emittedNodes keeps children inside token member
      · rename_i own allowed
        have opened : (Token.startTag ⟨name, keptEntries own attributes⟩).Kept ∧
            (Token.startTag ⟨name, keptEntries own attributes⟩).MadeOf Attributed Written :=
          ⟨keptTag_keptEntries allowed attributes, keeps own attributes legal⟩
        simp only at member
        split at member
        · exact List.mem_singleton.mp member ▸ opened
        · rename_i full
          rw [List.cons_append, List.mem_cons, List.mem_append, List.mem_singleton] at member
          rcases member with rfl | content | rfl
          · exact opened
          · exact kept_emittedNodes keeps children inside token content
          · exact ⟨⟨by simpa using full, own, allowed⟩, trivial⟩

/-- The tokens of nodes are written as they are, and made of what the nodes are. -/
theorem kept_emittedNodes (keeps : ∀ own attributes, Attributed attributes → Attributed (keptEntries own attributes)) :
    ∀ nodes, (∀ node ∈ nodes, node.MadeOf Attributed Written) → ∀ token ∈ emittedNodes nodes,
      token.Kept ∧ token.MadeOf Attributed Written
  | [], madeOf, token, member => by
    rw [emittedNodes] at member
    simp at member
  | node :: rest, madeOf, token, member => by
    rw [emittedNodes, List.mem_append] at member
    obtain ⟨here, later⟩ := List.forall_mem_cons.mp madeOf
    rcases member with first | others
    · exact kept_emittedNode keeps node here token first
    · exact kept_emittedNodes keeps rest later token others

end

end
end MapEmbed.Html
