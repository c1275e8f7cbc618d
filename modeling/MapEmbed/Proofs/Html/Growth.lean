import Mathlib.Data.List.Nodup
import Mathlib.Data.List.Perm.Subperm
import MapEmbed.Proofs.Html.Clean

/-!
# What a tree under construction writes

The elements of a forest that are on the way from the root to a place in it are frames: each holds what was put into
it before the next one. Seen so, a tree under construction has a text of its own, up to that place. A new character or
element adds to its end, and leaving an element adds its end tag. Elements that are closed keep to themselves: what
they hold is told by their numbers, and no two frames have a number in common.
-/

namespace MapEmbed.Html

/-- A tag that is written as it is: of an allowed element, with all its attributes kept and in order. -/
def KeptTag (tag : Tag) : Prop :=
  ∃ own, ownAttributes? tag.name = some own ∧ keptEntries own tag.attributes = tag.attributes

/-- The tokens that children write, the last child first, and the numbers of the elements among and in them. -/
inductive Forest.Row (forest : Forest) : List Child → List Token → List Nat → Prop where
  | nil : Row forest [] [] []
  | char (c : Char) {children : List Child} {given : List Token} {used : List Nat}
      (earlier : Row forest children given used) : Row forest (.char c :: children) (given ++ [.char c]) used
  | void {number : Nat} {tag : Tag} {parent : Option Nat} {children : List Child} {given : List Token} {used : List Nat}
      (draft : forest.drafts[number]? = some ⟨tag.name, tag.attributes, parent, []⟩) (kept : KeptTag tag)
      (bare : tag.name ∈ voidElements) (earlier : Row forest children given used) :
      Row forest (.element number :: children) (given ++ [.startTag tag]) (number :: used)
  | element {number : Nat} {tag : Tag} {parent : Option Nat} {inside children : List Child}
      {content given : List Token} {held used : List Nat}
      (draft : forest.drafts[number]? = some ⟨tag.name, tag.attributes, parent, inside⟩) (kept : KeptTag tag)
      (full : tag.name ∉ voidElements) (within : Row forest inside content held)
      (earlier : Row forest children given used) :
      Row forest (.element number :: children) (given ++ .startTag tag :: content ++ [.endTag tag.name])
        (number :: held ++ used)

/-- An element on the way from the root to a place in a forest, without what lies further on. -/
structure Frame where
  number : Nat
  tag : Tag
  /-- What was written in it. -/
  content : List Token
  /-- Its children, last first. -/
  children : List Child
  /-- The numbers of the elements in it. -/
  used : List Nat

namespace Frame

/-- The open element that a frame stands for. -/
def element (frame : Frame) : OpenElement := ⟨frame.number, frame.tag.name⟩

/-- What an element has written so far. The root has no tag. -/
def written (frame : Frame) : List Token :=
  if frame.number = 0 then frame.content else .startTag frame.tag :: frame.content

/-- The numbers of an element and of those in it. -/
def numbers (frame : Frame) : List Nat := frame.number :: frame.used

/-- An element after a child was put into it, that writes the tokens and has the elements in it. -/
def add (frame : Frame) (child : Child) (given : List Token) (used : List Nat) : Frame :=
  { frame with
    content := frame.content ++ given, children := child :: frame.children, used := used ++ frame.used }

/-- An element after the innermost one in it was closed. -/
def take (outer inner : Frame) : Frame :=
  outer.add (.element inner.number) (inner.written ++ [.endTag inner.tag.name]) inner.numbers

/-- The forest has the element of a frame, with some more children behind those of the frame. -/
structure Held (forest : Forest) (more : List Child) (parent : Option Nat) (frame : Frame) : Prop where
  draft : forest.drafts[frame.number]? =
    some ⟨frame.tag.name, frame.tag.attributes, parent, more ++ frame.children⟩
  row : forest.Row frame.children frame.content frame.used
  proper : frame.number ≠ 0 → KeptTag frame.tag ∧ frame.tag.name ∉ voidElements

end Frame

/-- What frames have written, the innermost one first in the list and last in the text. -/
def writtenIn : List Frame → List Token
  | [] => []
  | frame :: rest => writtenIn rest ++ frame.written

/-- The numbers of all elements in frames. -/
def numbersIn (frames : List Frame) : List Nat :=
  frames.flatMap Frame.numbers

/-- The number of the innermost frame. -/
def innermost? (frames : List Frame) : Option Nat :=
  frames.head?.map Frame.number

/-- The forest has the elements of the frames, each in the next. The innermost has some more children, and the
outermost the given parent. -/
def Forest.Holds (forest : Forest) : List Child → Option Nat → List Frame → Prop
  | _, _, [] => True
  | more, parent, frame :: rest =>
    frame.Held forest more ((innermost? rest).or parent) ∧ Holds forest [.element frame.number] parent rest

/-- Frames from a place in a forest out to its root. -/
structure Forest.Chain (forest : Forest) (frames : List Frame) : Prop where
  holds : forest.Holds [] none frames
  rooted : (frames.map Frame.element).getLast? = some ⟨0, Builder.rootName⟩
  distinct : (numbersIn frames).Nodup
  known : ∀ number ∈ numbersIn frames, number < forest.drafts.size

section
variable {forest later : Forest} {number other : Nat} {parent : Option Nat} {tag : Tag} {child : Child}
  {children more : List Child} {given content : List Token} {used : List Nat} {frame inner : Frame}
  {frames rest : List Frame}

/-! ### Elements by their numbers -/

namespace Forest

/-- A new element comes last. -/
theorem drafts_create (name : Text) (attributes : List (Text × Text)) (other : Nat) :
    (forest.create name attributes).2.drafts[other]? =
      if other = forest.drafts.size then some ⟨name, attributes, none, []⟩ else forest.drafts[other]? :=
  Array.getElem?_push

/-- Only one element gets other children. -/
theorem drafts_modifyChildren (change : List Child → List Child) :
    (forest.modifyChildren number change).drafts[other]? =
      if number = other then (forest.drafts[other]?).map fun draft => { draft with children := change draft.children }
      else forest.drafts[other]? :=
  Array.getElem?_modify

/-- Only one element gets another parent. -/
theorem drafts_setParent :
    (forest.setParent parent (.element number)).drafts[other]? =
      if number = other then (forest.drafts[other]?).map fun draft => { draft with parent }
      else forest.drafts[other]? :=
  Array.getElem?_modify

/-- There is one element more. -/
theorem size_create (name : Text) (attributes : List (Text × Text)) :
    (forest.create name attributes).2.drafts.size = forest.drafts.size + 1 :=
  Array.size_push _

/-- There are as many elements as before. -/
theorem size_modifyChildren (change : List Child → List Child) :
    (forest.modifyChildren number change).drafts.size = forest.drafts.size :=
  Array.size_modify

/-- There are as many elements as before. -/
theorem size_setParent (child : Child) : (forest.setParent parent child).drafts.size = forest.drafts.size := by
  cases child with
  | element number => exact Array.size_modify
  | char c => rfl
  | comment content => rfl

end Forest

/-! ### Rows -/

/-- A row is told by the tags and the children of its elements. -/
theorem Forest.Row.congr (row : forest.Row children given used)
    (same : ∀ number ∈ used, ∀ name attributes parent inside,
      forest.drafts[number]? = some ⟨name, attributes, parent, inside⟩ →
      ∃ parent, later.drafts[number]? = some ⟨name, attributes, parent, inside⟩) :
    later.Row children given used := by
  induction row with
  | nil => exact .nil
  | char c earlier inductionHypothesis => exact .char c (inductionHypothesis same)
  | void draft kept bare earlier inductionHypothesis =>
    obtain ⟨parent, draft⟩ := same _ (by simp) _ _ _ _ draft
    exact .void draft kept bare (inductionHypothesis fun number member => same number (by simp [member]))
  | element draft kept full within earlier withinHypothesis inductionHypothesis =>
    obtain ⟨parent, draft⟩ := same _ (by simp) _ _ _ _ draft
    exact .element draft kept full (withinHypothesis fun number member => same number (by simp [member]))
      (inductionHypothesis fun number member => same number (by simp [member]))

/-- The elements in a row are among its numbers. -/
theorem Forest.Row.mem (row : forest.Row children given used) (member : .element number ∈ children) :
    number ∈ used := by
  induction row with
  | nil => simp at member
  | char c earlier inductionHypothesis => simpa using inductionHypothesis (by simpa using member)
  | void draft kept bare earlier inductionHypothesis =>
    rcases List.mem_cons.mp member with same | earlier
    · simp [Child.element.inj same]
    · simp [inductionHypothesis earlier]
  | element draft kept full within earlier withinHypothesis inductionHypothesis =>
    rcases List.mem_cons.mp member with same | earlier
    · simp [Child.element.inj same]
    · simp [inductionHypothesis earlier]

/-! ### Frames -/

/-- The numbers of frames in a row. -/
theorem numbersIn_cons (frame : Frame) (rest : List Frame) :
    numbersIn (frame :: rest) = frame.number :: (frame.used ++ numbersIn rest) := by
  rw [numbersIn, List.flatMap_cons, Frame.numbers, List.cons_append]
  rfl

/-- The numbers of frames in a row. -/
theorem numbersIn_append (front back : List Frame) : numbersIn (front ++ back) = numbersIn front ++ numbersIn back :=
  List.flatMap_append

/-- The elements of what is put into an element come to those in frames. -/
theorem numbersIn_add (frame : Frame) (child : Child) (given : List Token) (used : List Nat) (rest : List Frame) :
    (numbersIn (frame.add child given used :: rest)).Perm (used ++ numbersIn (frame :: rest)) := by
  rw [numbersIn_cons, numbersIn_cons]
  have moved : (frame.number :: (used ++ (frame.used ++ numbersIn rest))).Perm
      (used ++ frame.number :: (frame.used ++ numbersIn rest)) := List.perm_middle.symm
  simpa [Frame.add] using moved

/-- A frame has its number. -/
theorem number_mem_numbersIn (member : frame ∈ frames) : frame.number ∈ numbersIn frames :=
  List.mem_flatMap.mpr ⟨frame, member, List.mem_cons_self⟩

/-- The outer frames have written first. -/
theorem writtenIn_append (front back : List Frame) : writtenIn (front ++ back) = writtenIn back ++ writtenIn front := by
  induction front with
  | nil => simp [writtenIn]
  | cons frame rest inductionHypothesis => simp [writtenIn, inductionHypothesis]

/-- What is added to an element is written at its end. -/
theorem Frame.written_add (frame : Frame) (child : Child) (given : List Token) (used : List Nat) :
    (frame.add child given used).written = frame.written ++ given := by
  by_cases root : frame.number = 0
  · simp [Frame.written, Frame.add, root]
  · simp [Frame.written, Frame.add, root]

/-- What is added to the innermost element is written at the end. -/
theorem writtenIn_add (frame : Frame) (child : Child) (given : List Token) (used : List Nat) (rest : List Frame) :
    writtenIn (frame.add child given used :: rest) = writtenIn (frame :: rest) ++ given := by
  rw [writtenIn, writtenIn, Frame.written_add, List.append_assoc]

/-- Closing the innermost element writes its end tag. -/
theorem writtenIn_take (inner frame : Frame) (rest : List Frame) :
    writtenIn (frame.take inner :: rest) = writtenIn (inner :: frame :: rest) ++ [.endTag inner.tag.name] := by
  rw [Frame.take, writtenIn_add, writtenIn.eq_2 inner, ← List.append_assoc]

/-- A new element has written its start tag. -/
theorem writtenIn_new (inner : number ≠ 0) (tag : Tag) (rest : List Frame) :
    writtenIn (⟨number, tag, [], [], []⟩ :: rest) = writtenIn rest ++ [.startTag tag] := by
  rw [writtenIn, Frame.written, if_neg inner]

/-- A frame stays if its element and those in it do. -/
theorem Frame.Held.congr (held : frame.Held forest more parent)
    (same : ∀ number ∈ frame.numbers, later.drafts[number]? = forest.drafts[number]?) :
    frame.Held later more parent where
  draft := (same _ List.mem_cons_self).trans held.draft
  row := held.row.congr fun number member _ _ parent _ found =>
    ⟨parent, (same number (List.mem_cons_of_mem _ member)).trans found⟩
  proper := held.proper

/-- The innermost child of an element counts among its own. -/
theorem Frame.Held.add (held : frame.Held forest [child] parent)
    (row : forest.Row (child :: frame.children) (frame.content ++ given) (used ++ frame.used)) :
    (frame.add child given used).Held forest [] parent :=
  ⟨held.draft, row, held.proper⟩

namespace Forest

/-- Frames stay if their elements do. -/
theorem Holds.congr (holds : forest.Holds more parent frames)
    (same : ∀ number ∈ numbersIn frames, later.drafts[number]? = forest.drafts[number]?) :
    later.Holds more parent frames := by
  induction frames generalizing more with
  | nil => trivial
  | cons frame rest inductionHypothesis =>
    rw [numbersIn, List.flatMap_cons] at same
    exact ⟨holds.1.congr fun number member => same number (List.mem_append_left _ member),
      inductionHypothesis holds.2 fun number member => same number (List.mem_append_right _ member)⟩

/-- A child is put into the innermost element. -/
theorem Holds.put (holds : forest.Holds more parent (frame :: rest))
    (distinct : (numbersIn (frame :: rest)).Nodup) (new : List Child) :
    (forest.modifyChildren frame.number (new ++ ·)).Holds (new ++ more) parent (frame :: rest) := by
  rw [numbersIn_cons, List.nodup_cons, List.mem_append, not_or] at distinct
  have same (number : Nat) (different : number ≠ frame.number) :
      (forest.modifyChildren frame.number (new ++ ·)).drafts[number]? = forest.drafts[number]? := by
    rw [drafts_modifyChildren, if_neg (Ne.symm different)]
  refine ⟨⟨?_, ?_, holds.1.proper⟩, holds.2.congr fun number member => same number ?_⟩
  · rw [drafts_modifyChildren, if_pos rfl, holds.1.draft, Option.map_some, List.append_assoc]
  · refine holds.1.row.congr fun number member _ _ parent _ found => ⟨parent, (same number ?_).trans found⟩
    rintro rfl
    exact distinct.1.1 member
  · rintro rfl
    exact distinct.1.2 member

/-- A chain stays if its elements do. -/
theorem Chain.congr (chain : forest.Chain frames)
    (same : ∀ number ∈ numbersIn frames, later.drafts[number]? = forest.drafts[number]?)
    (size : forest.drafts.size ≤ later.drafts.size) : later.Chain frames :=
  ⟨chain.holds.congr same, chain.rooted, chain.distinct,
    fun number member => Nat.lt_of_lt_of_le (chain.known number member) size⟩

/-- Different frames have different numbers. -/
theorem Chain.nodup_numbers (chain : forest.Chain frames) :
    ((frames.map Frame.element).map OpenElement.number).Nodup := by
  refine chain.distinct.sublist ?_
  clear chain
  induction frames with
  | nil => exact List.nil_sublist _
  | cons frame rest inductionHypothesis =>
    rw [numbersIn_cons]
    exact (inductionHypothesis.trans (List.sublist_append_right _ _)).cons_cons _

/-- Different frames stand for different elements. -/
theorem Chain.nodup_elements (chain : forest.Chain frames) : (frames.map Frame.element).Nodup :=
  List.Nodup.of_map OpenElement.number chain.nodup_numbers

/-! ### Characters and elements at the end -/

/-- Only the root has number zero. -/
theorem Chain.number_ne_zero (chain : forest.Chain (inner :: frame :: rest)) : inner.number ≠ 0 := by
  have root : ⟨0, Builder.rootName⟩ ∈ (frame :: rest).map Frame.element := List.mem_of_getLast? chain.rooted
  obtain ⟨outermost, listed, same⟩ := List.mem_map.mp root
  have number : outermost.number = 0 := congrArg OpenElement.number same
  have distinct := chain.distinct
  rw [numbersIn_cons, List.nodup_cons, List.mem_append, not_or] at distinct
  intro zero
  exact distinct.1.2 (zero ▸ number ▸ number_mem_numbersIn listed)

/-- The innermost child of a chain's innermost element counts among its own. -/
theorem chain_add (holds : forest.Holds [child] none (frame :: rest))
    (row : forest.Row (child :: frame.children) (frame.content ++ given) (used ++ frame.used))
    (rooted : ((frame :: rest).map Frame.element).getLast? = some ⟨0, Builder.rootName⟩)
    (distinct : (used ++ numbersIn (frame :: rest)).Nodup)
    (known : ∀ number ∈ used ++ numbersIn (frame :: rest), number < forest.drafts.size) :
    forest.Chain (frame.add child given used :: rest) := by
  have moved := numbersIn_add frame child given used rest
  exact ⟨⟨holds.1.add row, holds.2⟩, rooted, moved.nodup_iff.mpr distinct,
    fun number member => known number (moved.mem_iff.mp member)⟩

/-- A character is put into the innermost element. -/
theorem Chain.insertChar (chain : forest.Chain (frame :: rest)) (c : Char) :
    (forest.insert (.lastIn frame.number) (.char c)).Chain (frame.add (.char c) [.char c] [] :: rest) := by
  have held := chain.holds.put chain.distinct [.char c]
  have same : forest.insert (.lastIn frame.number) (.char c) =
      forest.modifyChildren frame.number ([.char c] ++ ·) := rfl
  rw [same]
  refine chain_add held (.char c held.1.row) chain.rooted chain.distinct fun number member => ?_
  rw [size_modifyChildren]
  exact chain.known number member

/-- A new element in the innermost one. -/
theorem Chain.insertNew (chain : forest.Chain (frame :: rest)) (name : Text) (attributes : List (Text × Text)) :
    let after := (forest.create name attributes).2.insert (.lastIn frame.number) (.element forest.drafts.size)
    after.drafts[forest.drafts.size]? = some ⟨name, attributes, some frame.number, []⟩ ∧
      after.Holds [.element forest.drafts.size] none (frame :: rest) ∧ after.drafts.size = forest.drafts.size + 1 ∧
      ∀ number ∈ numbersIn (frame :: rest), number ≠ forest.drafts.size := by
  intro after
  have fresh : ∀ number ∈ numbersIn (frame :: rest), number ≠ forest.drafts.size :=
    fun number member => Nat.ne_of_lt (chain.known number member)
  have here := fresh frame.number (number_mem_numbersIn List.mem_cons_self)
  have created : (forest.create name attributes).2.Holds [] none (frame :: rest) :=
    chain.holds.congr fun number member => by rw [drafts_create, if_neg (fresh number member)]
  refine ⟨?_, (created.put chain.distinct [.element forest.drafts.size]).congr fun number member => ?_, ?_, fresh⟩
  · simp only [after, Forest.insert]
    rw [drafts_setParent, if_pos rfl, drafts_modifyChildren, if_neg here, drafts_create, if_pos rfl]
    rfl
  · exact (drafts_setParent).trans (if_neg (Ne.symm (fresh number member)))
  · simp only [after, Forest.insert]
    rw [size_setParent, size_modifyChildren, size_create]

/-- An element without content is put into the innermost one. -/
theorem Chain.insertVoid (chain : forest.Chain (frame :: rest)) (kept : KeptTag tag) (bare : tag.name ∈ voidElements) :
    ((forest.create tag.name tag.attributes).2.insert (.lastIn frame.number) (.element forest.drafts.size)).Chain
      (frame.add (.element forest.drafts.size) [.startTag tag] [forest.drafts.size] :: rest) := by
  obtain ⟨draft, holds, size, fresh⟩ := chain.insertNew tag.name tag.attributes
  refine chain_add holds (.void draft kept bare holds.1.row) chain.rooted ?_ fun number member => ?_
  · exact List.nodup_cons.mpr ⟨fun member => fresh _ member rfl, chain.distinct⟩
  · rcases List.mem_cons.mp member with rfl | old
    · exact size ▸ Nat.lt_succ_self _
    · exact size ▸ Nat.lt_succ_of_lt (chain.known number old)

/-- An element is put into the innermost one and is the innermost now. -/
theorem Chain.openTag (chain : forest.Chain (frame :: rest)) (kept : KeptTag tag) (full : tag.name ∉ voidElements) :
    ((forest.create tag.name tag.attributes).2.insert (.lastIn frame.number) (.element forest.drafts.size)).Chain
      (⟨forest.drafts.size, tag, [], [], []⟩ :: frame :: rest) := by
  obtain ⟨draft, holds, size, fresh⟩ := chain.insertNew tag.name tag.attributes
  refine ⟨⟨⟨draft, .nil, fun _ => ⟨kept, full⟩⟩, holds⟩, chain.rooted, ?_, fun number member => ?_⟩
  · rw [numbersIn_cons]
    exact List.nodup_cons.mpr ⟨fun member => fresh _ member rfl, chain.distinct⟩
  · rw [numbersIn_cons, List.nil_append] at member
    rcases List.mem_cons.mp member with rfl | old
    · exact size ▸ Nat.lt_succ_self _
    · exact size ▸ Nat.lt_succ_of_lt (chain.known number old)

/-! ### Leaving elements -/

/-- The innermost element is closed. -/
theorem Chain.take (chain : forest.Chain (inner :: frame :: rest)) : forest.Chain (frame.take inner :: rest) := by
  have number := chain.number_ne_zero
  obtain ⟨held, around⟩ := chain.holds
  obtain ⟨kept, full⟩ := held.proper number
  have row : forest.Row (.element inner.number :: frame.children)
      (frame.content ++ (inner.written ++ [.endTag inner.tag.name])) (inner.numbers ++ frame.used) := by
    have written : inner.written = .startTag inner.tag :: inner.content := if_neg number
    rw [written, ← List.append_assoc]
    exact .element held.draft kept full held.row around.1.row
  exact chain_add around row chain.rooted chain.distinct chain.known

/-- All elements inside one that is open are closed. -/
theorem Chain.closeTo (chain : forest.Chain (inner :: rest)) {target : OpenElement}
    (member : target ∈ (inner :: rest).map Frame.element) : ∃ closed top others, forest.Chain (top :: others) ∧
      top.element = target ∧ (inner :: rest).map Frame.element = closed ++ (top :: others).map Frame.element ∧
      (numbersIn (top :: others)).Perm (numbersIn (inner :: rest)) ∧
      writtenIn (top :: others) = writtenIn (inner :: rest) ++ closed.map fun element => .endTag element.name := by
  induction rest generalizing inner with
  | nil => exact ⟨[], inner, [], chain, (List.mem_singleton.mp member).symm, rfl, .refl _, by simp⟩
  | cons frame rest inductionHypothesis =>
    rcases List.mem_cons.mp member with rfl | further
    · exact ⟨[], inner, frame :: rest, chain, rfl, rfl, .refl _, by simp⟩
    · obtain ⟨closed, top, others, reached, same, split, numbers, written⟩ := inductionHypothesis chain.take further
      refine ⟨inner.element :: closed, top, others, reached, same, congrArg (inner.element :: ·) split,
        numbers.trans (numbersIn_add ..), ?_⟩
      rw [written, writtenIn_take, List.append_assoc]
      rfl

end Forest

/-! ### The finished tree -/

/-- No element is both kept and left out with its content. -/
theorem KeptTag.not_dropped (kept : KeptTag tag) : tag.name ∉ droppedElements := by
  obtain ⟨own, allowed, -⟩ := kept
  have checked : (allowedElements.all fun entry => !droppedElements.contains entry.1) = true := by decide
  simpa using List.all_eq_true.mp checked _ (Entries.mem_of_lookup allowed)

/-- A character is written in front. -/
theorem emittedNodes_consChar (c : Char) (nodes : List Node) :
    emittedNodes (Forest.consChar c nodes) = .char c :: emittedNodes nodes := by
  unfold Forest.consChar
  split
  · simp [emittedNodes, emittedNode]
  · simp [emittedNodes, emittedNode]

/-- The nodes of a row write its tokens. -/
theorem Forest.Row.emittedNodes_eq (row : forest.Row children given used) {depth : Nat} (deep : used.length ≤ depth)
    (nodes : List Node) : emittedNodes (children.foldl (Forest.consChild (forest.tree depth)) nodes) =
      given ++ emittedNodes nodes := by
  induction row generalizing depth nodes with
  | nil => rfl
  | char c earlier inductionHypothesis =>
    rw [List.foldl_cons, inductionHypothesis deep, Forest.consChild, emittedNodes_consChar]
    simp
  | @void number tag parent children given used draft kept bare earlier inductionHypothesis =>
    obtain ⟨own, allowed, sorted⟩ := id kept
    obtain ⟨depth, rfl⟩ : ∃ least, depth = least + 1 := ⟨depth - 1, by simp at deep; omega⟩
    have node : emittedNode (forest.tree (depth + 1) number) = [.startTag tag] := by
      rw [Forest.tree, draft]
      simp [emittedNode, kept.not_dropped, allowed, bare, sorted]
    rw [List.foldl_cons, inductionHypothesis (by simp at deep; omega), Forest.consChild, emittedNodes, node]
    simp
  | @element number tag parent inside children content given held used draft kept full within earlier
      withinHypothesis inductionHypothesis =>
    obtain ⟨own, allowed, sorted⟩ := id kept
    obtain ⟨depth, rfl⟩ : ∃ least, depth = least + 1 := ⟨depth - 1, by simp at deep; omega⟩
    have inner := withinHypothesis (show held.length ≤ depth by simp at deep; omega) []
    have node : emittedNode (forest.tree (depth + 1) number) = .startTag tag :: content ++ [.endTag tag.name] := by
      rw [Forest.tree, draft]
      simp [emittedNode, kept.not_dropped, allowed, full, sorted, inner, emittedNodes]
    rw [List.foldl_cons, inductionHypothesis (by simp at deep; omega), Forest.consChild, emittedNodes, node]
    simp

/-- Numbers of different elements are not more than there are elements. -/
theorem Forest.Chain.length_le (chain : forest.Chain frames) : (numbersIn frames).length ≤ forest.drafts.size := by
  have among : numbersIn frames ⊆ List.range forest.drafts.size :=
    fun number member => List.mem_range.mpr (chain.known number member)
  simpa using (List.subperm_of_subset chain.distinct among).length_le

/-- At the end the tree writes what its frames have written, and their end tags. -/
theorem Forest.Chain.emittedNodes_childTrees (chain : forest.Chain (inner :: rest)) :
    ∃ closed : List OpenElement, emittedNodes (forest.childTrees 0) =
      writtenIn (inner :: rest) ++ closed.map fun element => .endTag element.name := by
  obtain ⟨closed, root, outside, reached, same, -, -, written⟩ := chain.closeTo (List.mem_of_getLast? chain.rooted)
  have number : root.number = 0 := congrArg OpenElement.number same
  obtain rfl : outside = [] := by
    cases outside with
    | nil => rfl
    | cons frame others => exact absurd number reached.number_ne_zero
  refine ⟨closed, ?_⟩
  obtain ⟨draft, row, -⟩ := reached.holds.1
  have deep := reached.length_le
  rw [numbersIn_cons] at deep
  have row_ := row.emittedNodes_eq (show root.used.length ≤ forest.drafts.size by simp at deep; omega) []
  rw [← written, Forest.childTrees, ← number, draft]
  simp [writtenIn, Frame.written, number, row_, emittedNodes]

end
end MapEmbed.Html
