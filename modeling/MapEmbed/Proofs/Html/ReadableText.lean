import MapEmbed.Proofs.Html.Clean

/-!
# The text of clean markup

Out of clean markup a reader gets the text of the nodes: once its tags are removed and its references decoded, it is what
the texts of the nodes say in their order, those inside of left-out elements apart. An element that is only unwrapped
loses no text. A left-out element leaves nothing at all, and neither does a comment.

Two things are asked of the nodes. Line breaks and images are empty, since nothing is written for what is in them. No
attribute has a closing bracket in its name, since names are written as they are; of nodes that markup gives this holds.
-/

namespace MapEmbed.Html

/-! ### Reading clean markup -/

/-- A text without its tags, from the inside of a tag or from the outside. A tag ends at the next closing bracket. -/
def outsideTags : Bool → Text → Text
  | _, [] => []
  | false, c :: rest => if c = '<' then outsideTags true rest else c :: outsideTags false rest
  | true, c :: rest => outsideTags (c != '>') rest

/-- A text without its tags. -/
def withoutTags (markup : Text) : Text :=
  outsideTags false markup

/-- A text with the characters that five references stand for. What is decoded is not read again. -/
def decodeReserved : Text → Text
  | '&' :: 'a' :: 'm' :: 'p' :: ';' :: rest => '&' :: decodeReserved rest
  | '&' :: 'l' :: 't' :: ';' :: rest => '<' :: decodeReserved rest
  | '&' :: 'g' :: 't' :: ';' :: rest => '>' :: decodeReserved rest
  | '&' :: 'q' :: 'u' :: 'o' :: 't' :: ';' :: rest => '"' :: decodeReserved rest
  | '&' :: '#' :: '0' :: '3' :: '9' :: ';' :: rest => '\x27' :: decodeReserved rest
  | c :: rest => c :: decodeReserved rest
  | [] => []

/-! ### The text of nodes -/

mutual

/-- The texts of a node in order, each with the names of the elements around it. -/
def Node.texts : Node → List (List Text × Text)
  | .text content => [([], content)]
  | .comment _ => []
  | .element name _ children => (textsOf children).map fun entry => (name :: entry.1, entry.2)

/-- The texts of nodes in a row. -/
def textsOf : List Node → List (List Text × Text)
  | [] => []
  | node :: rest => node.texts ++ textsOf rest

end

/-- Whether of the elements around a text none is left out. -/
def isShown (around : List Text) : Bool :=
  around.all fun name => !droppedElements.contains name

/-- The texts around which no element is left out, one after the other. -/
def joinShown (texts : List (List Text × Text)) : Text :=
  (texts.filter fun entry => isShown entry.1).flatMap Prod.snd

/-- The text that a reader should see of nodes. -/
def readableText (nodes : List Node) : Text :=
  joinShown (textsOf nodes)

mutual

/-- A node without its comments and left-out elements, at every depth. -/
def Node.shown : Node → List Node
  | .text content => [.text content]
  | .comment _ => []
  | .element name attributes children =>
    if droppedElements.contains name then [] else [.element name attributes (shownNodes children)]

/-- Nodes without their comments and left-out elements. -/
def shownNodes : List Node → List Node
  | [] => []
  | node :: rest => node.shown ++ shownNodes rest

end

/-- A node in which line breaks and images are empty. -/
inductive Node.EmptyVoids : Node → Prop where
  | text (content : Text) : EmptyVoids (.text content)
  | comment (content : Text) : EmptyVoids (.comment content)
  | element {name : Text} (attributes : List (Text × Text)) {children : List Node}
      (void : name ∈ names ["br", "img"] → children = []) (inside : ∀ child ∈ children, EmptyVoids child) :
      EmptyVoids (.element name attributes children)

/-- A node of whose attributes none has a closing bracket in its name. -/
def Node.ClosedTags (node : Node) : Prop :=
  node.MadeOf (fun attributes => ∀ entry ∈ attributes, '>' ∉ entry.1) fun _ => True

/-! ### Encoded texts -/

/-- A bracket is encoded. -/
theorem brackets_not_mem_encode (text : Text) : '<' ∉ Text.encode text ∧ '>' ∉ Text.encode text := by
  constructor
  · intro member
    exact absurd (Text.reserved?_of_mem_encode member) (by decide)
  · intro member
    exact absurd (Text.reserved?_of_mem_encode member) (by decide)

/-- A character that is no ampersand stands for itself. -/
theorem decodeReserved_cons {c : Char} (other : c ≠ '&') (rest : Text) :
    decodeReserved (c :: rest) = c :: decodeReserved rest := by
  rw [decodeReserved.eq_6]
  all_goals
    intro tail same
    exact absurd same other

/-- A reference stands for its character. -/
theorem decodeReserved_reference {c : Char} {reference : Text} (reserved : Text.reserved? c = some reference)
    (rest : Text) : decodeReserved (reference ++ rest) = c :: decodeReserved rest := by
  have five := Text.mem_of_reserved? (Option.isSome_of_eq_some reserved)
  simp only [List.mem_cons, List.not_mem_nil, or_false] at five
  rcases five with rfl | rfl | rfl | rfl | rfl <;> cases reserved <;> rfl

/-- An encoded text is decoded to the text. -/
theorem decodeReserved_encode (text : Text) : decodeReserved (Text.encode text) = text := by
  induction text with
  | nil => rfl
  | cons c rest inductionHypothesis =>
    rw [Text.encode]
    cases reserved : Text.reserved? c with
    | none =>
      have other : c ≠ '&' := by
        rintro rfl
        simp [Text.reserved?] at reserved
      rw [Option.getD_none, List.singleton_append, decodeReserved_cons other, inductionHypothesis]
    | some reference => rw [Option.getD_some, decodeReserved_reference reserved, inductionHypothesis]

/-! ### Tags -/

/-- A text without opening brackets stays outside of tags. -/
theorem withoutTags_append {front : Text} (absent : '<' ∉ front) (back : Text) :
    withoutTags (front ++ back) = front ++ withoutTags back := by
  induction front with
  | nil => rfl
  | cons c rest inductionHypothesis =>
    rw [List.mem_cons, not_or] at absent
    rw [List.cons_append, List.cons_append, ← inductionHypothesis absent.2]
    exact if_neg (Ne.symm absent.1)

/-- A text without closing brackets stays inside of a tag, up to the bracket behind it. -/
theorem outsideTags_true_append {front : Text} (absent : '>' ∉ front) (back : Text) :
    outsideTags true (front ++ '>' :: back) = withoutTags back := by
  induction front with
  | nil => rfl
  | cons c rest inductionHypothesis =>
    rw [List.mem_cons, not_or] at absent
    rw [List.cons_append, outsideTags, bne_iff_ne.mpr (Ne.symm absent.1), inductionHypothesis absent.2]

/-- A tag without a closing bracket inside is removed. -/
theorem withoutTags_tag {inside : Text} (absent : '>' ∉ inside) (back : Text) :
    withoutTags ('<' :: (inside ++ '>' :: back)) = withoutTags back :=
  outsideTags_true_append absent back

/-- A start tag is removed. -/
theorem withoutTags_startTag {name : Text} {attributes : List (Text × Text)} (named : '>' ∉ name)
    (closed : ∀ entry ∈ attributes, '>' ∉ entry.1 ∧ '>' ∉ entry.2) (back : Text) :
    withoutTags (startTag name attributes ++ back) = withoutTags back := by
  have inside : '>' ∉ name ++ attributes.flatMap writtenAttribute := by
    rw [List.mem_append, List.mem_flatMap]
    rintro (inName | ⟨entry, listed, inEntry⟩)
    · exact named inName
    · simp [writtenAttribute, closed entry listed] at inEntry
  simpa [startTag_eq] using withoutTags_tag inside back

/-- An end tag is removed. -/
theorem withoutTags_endTag {name : Text} (named : '>' ∉ name) (back : Text) :
    withoutTags (endTag name ++ back) = withoutTags back := by
  have inside : '>' ∉ '/' :: name := by simpa using named
  simpa [endTag] using withoutTags_tag inside back

/-- No allowed element has a closing bracket in its name. -/
theorem bracket_not_mem_allowed {name : Text} {own : List Text} (allowed : (name, own) ∈ allowedElements) :
    '>' ∉ name := by
  have checked : ∀ entry ∈ allowedElements, '>' ∉ entry.1 := by decide
  exact checked (name, own) allowed

/-! ### Shown texts -/

/-- The shown texts of two rows, one after the other. -/
theorem joinShown_append (front back : List (List Text × Text)) :
    joinShown (front ++ back) = joinShown front ++ joinShown back := by
  rw [joinShown, List.filter_append, List.flatMap_append]
  rfl

/-- An element shows the texts in it, unless it is left out. -/
theorem joinShown_element (name : Text) (texts : List (List Text × Text)) :
    joinShown (texts.map fun entry => (name :: entry.1, entry.2)) =
      if droppedElements.contains name then [] else joinShown texts := by
  have around (others : List Text) : isShown (name :: others) = (!droppedElements.contains name && isShown others) :=
    List.all_cons
  rw [joinShown, List.filter_map, List.flatMap_map]
  cases dropped : droppedElements.contains name with
  | true =>
    rw [List.filter_eq_nil_iff.mpr]
    · rfl
    · intro entry _
      rw [Function.comp_apply, around, dropped]
      exact Bool.false_ne_true
  | false =>
    simp only [Function.comp_def, around, dropped, Bool.not_false, Bool.true_and]
    rfl

mutual

/-- Clean markup of a node, taken out of its tags, is the encoded text of the node. -/
theorem withoutTags_cleanNode : ∀ node : Node, node.ClosedTags → node.EmptyVoids → ∀ back,
    withoutTags (cleanNode node ++ back) = Text.encode (joinShown node.texts) ++ withoutTags back
  | .text content, _, _, back => by
    have only : joinShown [([], content)] = content := List.append_nil content
    rw [cleanNode, Node.texts, only, withoutTags_append (brackets_not_mem_encode content).1]
  | .comment content, _, _, back => by
    rw [cleanNode, Node.texts]
    rfl
  | .element name attributes children, closed, voids, back => by
    obtain ⟨closes, insideClosed⟩ :
        (∀ entry ∈ attributes, '>' ∉ entry.1) ∧ ∀ child ∈ children, child.ClosedTags := by
      cases closed with
      | element own inside => exact ⟨own, inside⟩
    obtain ⟨empty, insideVoids⟩ :
        (name ∈ names ["br", "img"] → children = []) ∧ ∀ child ∈ children, child.EmptyVoids := by
      cases voids with
      | element _ void inside => exact ⟨void, inside⟩
    have inner := withoutTags_cleanNodes children insideClosed insideVoids
    rw [cleanNode, Node.texts, joinShown_element]
    split
    · rfl
    · split
      · exact inner back
      · rename_i own allowed
        have named : '>' ∉ name := bracket_not_mem_allowed (Entries.mem_of_lookup allowed)
        have opened (behind : Text) :
            withoutTags (startTag name (keptAttributes own attributes) ++ behind) = withoutTags behind := by
          apply withoutTags_startTag named
          intro entry member
          obtain ⟨old, kept, rfl⟩ := List.mem_map.mp (keptAttributes_eq own attributes ▸ member)
          exact ⟨closes old (mem_keptEntries.mp kept).1, (brackets_not_mem_encode old.2).2⟩
        simp only
        split
        · rename_i bare
          rw [opened, empty (List.contains_iff_mem.mp bare)]
          rfl
        · rw [List.append_assoc, List.append_assoc, opened, inner, withoutTags_endTag named]
          rfl

/-- Clean markup of nodes in a row, taken out of its tags, is their encoded text. -/
theorem withoutTags_cleanNodes : ∀ nodes : List Node, (∀ node ∈ nodes, node.ClosedTags) →
    (∀ node ∈ nodes, node.EmptyVoids) → ∀ back,
    withoutTags (cleanNodes nodes ++ back) = Text.encode (readableText nodes) ++ withoutTags back
  | [], _, _, back => rfl
  | node :: rest, closed, voids, back => by
    have later := withoutTags_cleanNodes rest (fun other member => closed other (by simp [member]))
      (fun other member => voids other (by simp [member])) back
    rw [cleanNodes, readableText, textsOf, joinShown_append, Text.encode_append, List.append_assoc, List.append_assoc,
      withoutTags_cleanNode node (closed node (by simp)) (voids node (by simp)), later]
    rfl

end

/-! ### What is not shown -/

/-- The clean markup of two rows, one after the other. -/
theorem cleanNodes_append (front back : List Node) : cleanNodes (front ++ back) = cleanNodes front ++ cleanNodes back := by
  induction front with
  | nil => rfl
  | cons node rest inductionHypothesis =>
    rw [List.cons_append, cleanNodes, cleanNodes, inductionHypothesis, List.append_assoc]

mutual

/-- Comments and left-out elements make no difference to the clean markup of a node. -/
theorem cleanNodes_shown : ∀ node : Node, cleanNodes node.shown = cleanNode node
  | .text content => List.append_nil _
  | .comment content => rfl
  | .element name attributes children => by
    rw [Node.shown]
    split
    · rename_i dropped
      rw [cleanNode, if_pos dropped]
      rfl
    · have alone (node : Node) : cleanNodes [node] = cleanNode node := List.append_nil _
      rw [alone, cleanNode, cleanNode, cleanNodes_shownNodes children]

/-- They make no difference to that of nodes in a row. -/
theorem cleanNodes_shownNodes : ∀ nodes, cleanNodes (shownNodes nodes) = cleanNodes nodes
  | [] => rfl
  | node :: rest => by
    rw [shownNodes, cleanNodes_append, cleanNodes_shown node, cleanNodes_shownNodes rest, cleanNodes]

end

/-- No attribute of a start tag has a closing bracket in its name. -/
theorem bracket_not_mem_attributeName {name : Text} (named : isAttributeName name = true) : '>' ∉ name := by
  cases name with
  | nil => simp
  | cons c rest =>
    have outside : isNameChar '>' = false := by decide
    simp only [isAttributeName, Bool.and_eq_true, Bool.or_eq_true, beq_iff_eq, List.all_eq_true] at named
    obtain ⟨first, others⟩ := named
    intro member
    rcases List.mem_cons.mp member with rfl | later
    · rcases first with equals | name
      · exact absurd equals (by decide)
      · exact absurd name (by simp [outside])
    · exact absurd (others _ later) (by simp [outside])

/-- A node that markup gives has no closing bracket in a name. -/
theorem Node.Named.closedTags {node : Node} (named : node.Named) : node.ClosedTags := by
  induction named with
  | text chars => exact .text chars
  | comment content => exact .comment content
  | element own inside inductionHypothesis =>
    exact .element (fun entry member => bracket_not_mem_attributeName (own.2 entry member).1) inductionHypothesis

/-- Out of its tags and decoded, the clean markup of nodes is the text that a reader should see of them. It is the same
without their comments and left-out elements. The nodes may be any that markup gives, their line breaks and images empty. -/
theorem decodeReserved_withoutTags_cleanNodes :
    (∀ nodes : List Node, (∀ node ∈ nodes, node.ClosedTags) → (∀ node ∈ nodes, node.EmptyVoids) →
      decodeReserved (withoutTags (cleanNodes nodes)) = readableText nodes) ∧
    (∀ nodes, cleanNodes (shownNodes nodes) = cleanNodes nodes) ∧
    ∀ known markup, ∀ node ∈ parseFragmentWith known markup, node.ClosedTags := by
  refine ⟨?_, cleanNodes_shownNodes, ?_⟩
  · intro nodes closed voids
    have outside : withoutTags (cleanNodes nodes) = Text.encode (readableText nodes) := by
      have behind := withoutTags_cleanNodes nodes closed voids []
      rwa [List.append_nil, show withoutTags [] = [] from rfl, List.append_nil] at behind
    rw [outside, decodeReserved_encode]
  · intro known markup node member
    exact (named_of_mem_parseFragmentWith node member).closedTags

/-- A form that is unwrapped, with a script, a comment, a line break and a reference that is no reference in it. -/
def unwrappedForm : Node :=
  .element "form".toList [("title".toList, "a > b".toList)]
    [.text "1 < 2".toList, .element "script".toList [] [.text "steal()".toList], .comment "later".toList,
      .element "br".toList [] [], .element "b".toList [("title".toList, "</b>".toList)] [.text "&amp;".toList]]

/-- The text of the form is kept, and nothing of the script or of the comment. -/
theorem decodeReserved_withoutTags_unwrappedForm : unwrappedForm.ClosedTags ∧ unwrappedForm.EmptyVoids ∧
    decodeReserved (withoutTags (cleanNodes [unwrappedForm])) = "1 < 2&amp;".toList := by
  have closed : unwrappedForm.ClosedTags := by
    have leaf (content : Text) : (Node.text content).ClosedTags := .text fun _ _ => trivial
    refine .element (by decide) ?_
    simp only [List.forall_mem_cons]
    exact ⟨leaf _, .element (by decide) (List.forall_mem_singleton.mpr (leaf _)), .comment _,
      .element (by decide) (List.forall_mem_nil _), .element (by decide) (List.forall_mem_singleton.mpr (leaf _)),
      List.forall_mem_nil _⟩
  have voids : unwrappedForm.EmptyVoids := by
    refine .element _ (by decide) ?_
    simp only [List.forall_mem_cons]
    exact ⟨.text _, .element _ (by decide) (List.forall_mem_singleton.mpr (.text _)), .comment _,
      .element _ (fun _ => rfl) (List.forall_mem_nil _),
      .element _ (by decide) (List.forall_mem_singleton.mpr (.text _)), List.forall_mem_nil _⟩
  have text := decodeReserved_withoutTags_cleanNodes.1 [unwrappedForm]
    (fun node member => List.mem_singleton.mp member ▸ closed) (fun node member => List.mem_singleton.mp member ▸ voids)
  refine ⟨closed, voids, ?_⟩
  rw [text]
  decide

end MapEmbed.Html
