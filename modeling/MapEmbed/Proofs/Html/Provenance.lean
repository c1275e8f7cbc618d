import MapEmbed.Html.Fragment

/-!
# What nodes are made of

The builder moves elements and makes some anew, but it makes up no attributes and no characters: what holds of the
attributes of every start tag and of every character holds of the attributes and the texts of every node.
-/

namespace MapEmbed.Html

section
variable (Attributed : List (Text × Text) → Prop) (Written : Char → Prop)

/-- A node whose attributes and characters, at every depth, are as described. -/
inductive Node.MadeOf : Node → Prop where
  | text {content : Text} (chars : ∀ c ∈ content, Written c) : MadeOf (.text content)
  | comment (content : Text) : MadeOf (.comment content)
  | element {name : Text} {attributes : List (Text × Text)} {children : List Node} (own : Attributed attributes)
      (inside : ∀ child ∈ children, MadeOf child) : MadeOf (.element name attributes children)

/-- A token whose attributes or character are as described. -/
def Token.MadeOf : Token → Prop
  | .startTag tag => Attributed tag.attributes
  | .char c => Written c
  | _ => True

/-- A child that is no character, or one as described. -/
def Child.MadeOf : Child → Prop
  | .char c => Written c
  | _ => True

/-- An element under construction whose attributes and characters are as described. -/
structure Draft.MadeOf (draft : Draft) : Prop where
  own : Attributed draft.attributes
  inside : ∀ child ∈ draft.children, child.MadeOf Written

/-- All elements under construction are made of what is described. -/
def Forest.MadeOf (forest : Forest) : Prop :=
  ∀ (number : Nat) (draft : Draft), forest.drafts[number]? = some draft → draft.MadeOf Attributed Written

/-- A formatting element can be made anew from what is described. -/
def FormattingEntry.MadeOf : FormattingEntry → Prop
  | .marker => True
  | .element _ tag => Attributed tag.attributes

/-- All that the builder holds is made of what is described. -/
structure Builder.MadeOf (b : Builder) : Prop where
  forest : b.forest.MadeOf Attributed Written
  formatting : ∀ entry ∈ b.formatting, entry.MadeOf Attributed
  tableText : ∀ c ∈ b.tableText, Written c

/-- The builder after a token is made of what is described. -/
def Outcome.MadeOf : Outcome → Prop
  | .done b _ => b.MadeOf Attributed Written
  | .again b _ => b.MadeOf Attributed Written

end

variable {Attributed : List (Text × Text) → Prop} {Written : Char → Prop}

/-! ### Elements under construction -/

namespace Forest

variable {forest : Forest}

/-- A new element is made of its attributes. -/
theorem MadeOf.create (madeOf : forest.MadeOf Attributed Written) (name : Text) {attributes : List (Text × Text)}
    (own : Attributed attributes) : (forest.create name attributes).2.MadeOf Attributed Written := by
  intro number draft found
  rw [Forest.create, Array.getElem?_push] at found
  split at found
  · obtain rfl := Option.some.inj found
    exact ⟨own, by simp⟩
  · exact madeOf number draft found

/-- A change of the children of an element leaves the others as they are. -/
theorem MadeOf.modify (madeOf : forest.MadeOf Attributed Written) {number : Nat} {change : Draft → Draft}
    (changed : ∀ draft, draft.MadeOf Attributed Written → (change draft).MadeOf Attributed Written) :
    Forest.MadeOf Attributed Written ⟨forest.drafts.modify number change⟩ := by
  intro other draft found
  rw [Array.getElem?_modify] at found
  split at found
  · obtain ⟨old, known, rfl⟩ := Option.map_eq_some_iff.mp found
    exact changed old (madeOf other old known)
  · exact madeOf other draft found

/-- Children that are made of what is described can be put into an element. -/
theorem MadeOf.modifyChildren (madeOf : forest.MadeOf Attributed Written) {number : Nat}
    {change : List Child → List Child}
    (changed : ∀ children, (∀ child ∈ children, child.MadeOf Written) → ∀ child ∈ change children, child.MadeOf Written) :
    (forest.modifyChildren number change).MadeOf Attributed Written :=
  madeOf.modify fun draft old => ⟨old.own, changed draft.children old.inside⟩

/-- Parents say nothing of what an element is made of. -/
theorem MadeOf.setParent (madeOf : forest.MadeOf Attributed Written) (parent : Option Nat) (child : Child) :
    (forest.setParent parent child).MadeOf Attributed Written := by
  cases child with
  | element number => exact madeOf.modify fun draft old => ⟨old.own, old.inside⟩
  | char c => exact madeOf
  | comment content => exact madeOf

/-- Only the new child is new. -/
theorem mem_insertBehind {child other : Child} {number : Nat} {children : List Child}
    (member : other ∈ insertBehind child number children) : other = child ∨ other ∈ children := by
  induction children with
  | nil => exact Or.inl (List.mem_singleton.mp member)
  | cons first rest inductionHypothesis =>
    rw [insertBehind] at member
    split at member
    · rcases List.mem_cons.mp member with rfl | later
      · exact Or.inr (by simp)
      · rcases List.mem_cons.mp later with rfl | old
        · exact Or.inl rfl
        · exact Or.inr (by simp [old])
    · rcases List.mem_cons.mp member with rfl | later
      · exact Or.inr (by simp)
      · exact (inductionHypothesis later).imp_right (by simp +contextual)

/-- A node that is put into its place. -/
theorem MadeOf.insert (madeOf : forest.MadeOf Attributed Written) (place : Place) {child : Child}
    (here : child.MadeOf Written) : (forest.insert place child).MadeOf Attributed Written := by
  cases place with
  | lastIn number =>
    apply MadeOf.setParent
    apply madeOf.modifyChildren
    intro children old other member
    rcases List.mem_cons.mp member with rfl | later
    · exact here
    · exact old other later
  | before number =>
    rw [Forest.insert]
    split
    · exact madeOf
    · apply MadeOf.setParent
      apply madeOf.modifyChildren
      intro children old other member
      rcases mem_insertBehind member with rfl | later
      · exact here
      · exact old other later

/-- An element that is put into its place. -/
theorem MadeOf.insertElement (madeOf : forest.MadeOf Attributed Written) (place : Place) (number : Nat) :
    (forest.insert place (.element number)).MadeOf Attributed Written :=
  madeOf.insert place trivial

/-- An element that is taken out of its parent. -/
theorem MadeOf.detach (madeOf : forest.MadeOf Attributed Written) (number : Nat) :
    (forest.detach number).MadeOf Attributed Written := by
  rw [Forest.detach]
  split
  · exact madeOf
  · apply MadeOf.setParent
    apply madeOf.modifyChildren
    exact fun children old other member => old other (List.mem_filter.mp member).1

/-- Nor do the parents of several children. -/
theorem MadeOf.setParents (madeOf : forest.MadeOf Attributed Written) (target : Nat) (children : List Child) :
    (children.foldl (fun done child => done.setParent (some target) child) forest).MadeOf Attributed Written := by
  induction children generalizing forest with
  | nil => exact madeOf
  | cons child rest inductionHypothesis => exact inductionHypothesis (madeOf.setParent (some target) child)

/-- Children that are moved to another element. -/
theorem MadeOf.moveChildren (madeOf : forest.MadeOf Attributed Written) (source target : Nat) :
    (forest.moveChildren source target).MadeOf Attributed Written := by
  rw [Forest.moveChildren]
  split
  · exact madeOf
  · rename_i draft found
    have moved : ((forest.modifyChildren source fun _ => []).modifyChildren target
        fun _ => draft.children).MadeOf Attributed Written := by
      apply MadeOf.modifyChildren
      · exact madeOf.modifyChildren fun _ _ other member => absurd member (by simp)
      · exact fun _ _ => (madeOf source draft found).inside
    exact moved.setParents target draft.children

end Forest

/-! ### The builder's operations -/

namespace Builder

variable {b : Builder}

/-- The builder is made of the same when neither its nodes nor its formatting elements change. -/
theorem MadeOf.update (madeOf : b.MadeOf Attributed Written) {stack : List OpenElement} {mode returnMode : InsertionMode}
    {templateModes : List InsertionMode} {form : Option Nat} {fostering dropsLineFeed : Bool} :
    Builder.MadeOf Attributed Written ⟨b.forest, stack, b.formatting, mode, returnMode, templateModes, form, fostering,
      b.tableText, dropsLineFeed⟩ :=
  ⟨madeOf.forest, madeOf.formatting, madeOf.tableText⟩

/-- Nodes may be added and moved. -/
theorem MadeOf.withForest (madeOf : b.MadeOf Attributed Written) {forest : Forest}
    (made : forest.MadeOf Attributed Written) : Builder.MadeOf Attributed Written { b with forest } :=
  ⟨made, madeOf.formatting, madeOf.tableText⟩

/-- Formatting elements may be added and forgotten. -/
theorem MadeOf.withFormatting (madeOf : b.MadeOf Attributed Written) (formatting : List FormattingEntry)
    (made : ∀ entry ∈ formatting, entry.MadeOf Attributed) :
    Builder.MadeOf Attributed Written { b with formatting } :=
  ⟨madeOf.forest, made, madeOf.tableText⟩

/-- One of two builders. -/
theorem madeOf_ite {c : Builder} {condition : Prop} [Decidable condition] (madeOf : b.MadeOf Attributed Written)
    (other : c.MadeOf Attributed Written) : (if condition then b else c).MadeOf Attributed Written := by
  split
  · exact madeOf
  · exact other

/-- Closing a paragraph makes nothing. -/
theorem MadeOf.closeParagraphInScope (madeOf : b.MadeOf Attributed Written) :
    b.closeParagraphInScope.MadeOf Attributed Written :=
  madeOf_ite madeOf.update madeOf

/-- A character of a text. -/
theorem MadeOf.insertChar (madeOf : b.MadeOf Attributed Written) {c : Char} (here : Written c) :
    (b.insertChar c).MadeOf Attributed Written :=
  madeOf.withForest (madeOf.forest.insert b.place here)

/-- A comment. -/
theorem MadeOf.insertComment (madeOf : b.MadeOf Attributed Written) (content : Text) :
    (b.insertComment content).MadeOf Attributed Written :=
  madeOf.withForest (madeOf.forest.insert b.place trivial)

/-- A new element is made of the attributes of its tag. -/
theorem MadeOf.openTag (madeOf : b.MadeOf Attributed Written) {tag : Tag} (own : Attributed tag.attributes) :
    (b.openTag tag).MadeOf Attributed Written := by
  have created := (madeOf.forest.create tag.name own).insertElement b.place b.forest.drafts.size
  exact (madeOf.withForest created).update

/-- So is one without content. -/
theorem MadeOf.insertVoid (madeOf : b.MadeOf Attributed Written) {tag : Tag} (own : Attributed tag.attributes) :
    (b.insertVoid tag).MadeOf Attributed Written :=
  (madeOf.openTag own).update

/-- A marker is made of nothing. -/
theorem MadeOf.pushMarker (madeOf : b.MadeOf Attributed Written) : b.pushMarker.MadeOf Attributed Written := by
  apply madeOf.withFormatting
  intro entry member
  rcases List.mem_cons.mp member with rfl | old
  · trivial
  · exact madeOf.formatting entry old

/-- A formatting element is made of the attributes of its tag. -/
theorem MadeOf.pushElement (madeOf : b.MadeOf Attributed Written) (number : Nat) {tag : Tag}
    (own : Attributed tag.attributes) :
    Builder.MadeOf Attributed Written { b with formatting := .element number tag :: b.formatting } := by
  apply madeOf.withFormatting
  intro entry member
  rcases List.mem_cons.mp member with rfl | old
  · exact own
  · exact madeOf.formatting entry old

/-- Formatting elements up to a marker are forgotten. -/
theorem MadeOf.clearToMarker (madeOf : b.MadeOf Attributed Written) : b.clearToMarker.MadeOf Attributed Written :=
  madeOf.withFormatting _ fun entry member =>
    madeOf.formatting entry (List.dropWhile_sublist _ |>.subset (List.mem_of_mem_drop member))

/-- A formatting element is forgotten. -/
theorem MadeOf.forget (madeOf : b.MadeOf Attributed Written) (number : Nat) :
    (b.forget number).MadeOf Attributed Written :=
  madeOf.withFormatting _ fun entry member => madeOf.formatting entry (List.mem_filter.mp member).1

/-- A resumed element is made of the attributes of its entry. -/
theorem MadeOf.reopen (madeOf : b.MadeOf Attributed Written) {entries : List FormattingEntry}
    (made : ∀ entry ∈ entries, entry.MadeOf Attributed) : (b.reopen entries).MadeOf Attributed Written := by
  induction entries with
  | nil => exact madeOf
  | cons entry later inductionHypothesis =>
    have resumed := inductionHypothesis fun other member => made other (by simp [member])
    cases entry with
    | marker => exact resumed
    | element number tag =>
      have here : Attributed tag.attributes := made (.element number tag) (by simp)
      have opened := resumed.openTag here
      simp only [Builder.reopen]
      split
      · exact opened
      · exact opened.pushElement _ here

/-- Resumed formatting is made of the attributes of its entries. -/
theorem MadeOf.resumeFormatting (madeOf : b.MadeOf Attributed Written) :
    b.resumeFormatting.MadeOf Attributed Written := by
  have left := madeOf.withFormatting (b.formatting.drop (b.formatting.takeWhile fun entry => !b.settled entry).length)
    fun entry member => madeOf.formatting entry (List.mem_of_mem_drop member)
  exact left.reopen fun entry member => madeOf.formatting entry (List.takeWhile_sublist _ |>.subset member)

/-- A fourth formatting element of one tag makes nothing but itself. -/
theorem MadeOf.limitFormatting (madeOf : b.MadeOf Attributed Written) (tag : Tag) :
    (b.limitFormatting tag).MadeOf Attributed Written := by
  rw [Builder.limitFormatting]
  split
  · apply madeOf.withFormatting
    intro entry member
    apply madeOf.formatting entry
    rcases List.mem_append.mp member with recent | old
    · have kept := (List.eraseP_subset (List.mem_reverse.mp recent))
      exact List.takeWhile_sublist _ |>.subset (List.mem_reverse.mp kept)
    · exact List.mem_of_mem_drop old
  · exact madeOf

/-- A formatting element that is opened. -/
theorem MadeOf.openFormatting (madeOf : b.MadeOf Attributed Written) {tag : Tag} (own : Attributed tag.attributes) :
    (b.openFormatting tag).MadeOf Attributed Written := by
  have opened := (madeOf.limitFormatting tag).openTag own
  rw [Builder.openFormatting]
  split
  · exact opened
  · exact opened.pushElement _ own

/-! ### Ending a formatting element -/

/-- A formatting element's tag is that of an entry. -/
theorem MadeOf.formattingTag? (madeOf : b.MadeOf Attributed Written) {number : Nat} {tag : Tag}
    (found : b.formattingTag? number = some tag) : Attributed tag.attributes := by
  obtain ⟨entry, member, same⟩ := List.exists_of_findSome?_eq_some found
  cases entry with
  | marker => simp at same
  | element other known =>
    have here := madeOf.formatting _ member
    simp only [Option.ite_none_right_eq_some, Option.some.injEq] at same
    obtain ⟨-, rfl⟩ := same
    exact here

/-- Entries that take the place of others. -/
theorem madeOf_renewed {entries : List FormattingEntry} (made : ∀ entry ∈ entries, entry.MadeOf Attributed)
    (fresh : FormattingEntry) (own : fresh.MadeOf Attributed) (number : Nat) :
    ∀ entry ∈ entries.map fun known => if known.isNumber number then fresh else known, entry.MadeOf Attributed := by
  intro entry member
  obtain ⟨old, listed, rfl⟩ := List.mem_map.mp member
  split
  · exact own
  · exact made old listed

/-- Only the new entry is new. -/
theorem mem_insertAfter {number : Nat} {fresh entry : FormattingEntry} {entries : List FormattingEntry}
    (member : entry ∈ insertAfter number fresh entries) : entry = fresh ∨ entry ∈ entries := by
  induction entries with
  | nil => simp [insertAfter] at member
  | cons first rest inductionHypothesis =>
    rw [insertAfter] at member
    split at member
    · exact List.mem_cons.mp member
    · rcases List.mem_cons.mp member with rfl | later
      · exact Or.inr (by simp)
      · exact (inductionHypothesis later).imp_right (by simp +contextual)

/-- The formatting elements that are passed are made anew of their own tags. -/
theorem MadeOf.passBetween (block count : Nat) {a : Adoption} (madeOf : a.builder.MadeOf Attributed Written)
    (between : List OpenElement) : (passBetween block count a between).builder.MadeOf Attributed Written := by
  induction between generalizing count a with
  | nil => exact madeOf
  | cons element rest inductionHypothesis =>
    rw [Builder.passBetween]
    split
    · exact inductionHypothesis _ madeOf
    · rename_i tag found
      have own := madeOf.formattingTag? found
      split
      · exact inductionHypothesis _ (madeOf.forget element.number)
      · apply inductionHypothesis
        have created := madeOf.withForest (madeOf.forest.create tag.name own)
        have renewed := created.withFormatting _
          (madeOf_renewed madeOf.formatting (.element a.builder.forest.drafts.size tag) own element.number)
        exact renewed.withForest ((renewed.forest.detach a.last).insertElement _ _)

/-- A block that is taken out of a formatting element, which is made anew of its tag. -/
theorem MadeOf.adoptBlock (madeOf : b.MadeOf Attributed Written) (number : Nat) {tag : Tag}
    (own : Attributed tag.attributes) (inside : List OpenElement) (block : OpenElement)
    (between outside : List OpenElement) (ancestor : OpenElement) :
    (b.adoptBlock number tag inside block between outside ancestor).MadeOf Attributed Written := by
  have passed : (Builder.passBetween block.number 0 ⟨b, [], block.number, .inPlace⟩ between).builder.MadeOf Attributed
      Written := MadeOf.passBetween block.number 0 madeOf between
  refine ⟨?_, ?_, passed.tableText⟩
  · simp only [Builder.adoptBlock]
    exact (((passed.forest.detach _).insertElement _ _).create tag.name own |>.moveChildren _ _).insertElement _ _
  · intro entry member
    simp only [Builder.adoptBlock] at member
    split at member
    · exact madeOf_renewed passed.formatting (.element _ tag) own number entry member
    · rcases mem_insertAfter (List.mem_filter.mp member).1 with rfl | old
      · exact own
      · exact passed.formatting entry old

/-- The rounds of ending a formatting element make nothing new. -/
theorem MadeOf.adopt (madeOf : b.MadeOf Attributed Written) (name : Text) (rounds : Nat) :
    (adopt name rounds b).MadeOf Attributed Written := by
  induction rounds generalizing b with
  | zero => exact madeOf
  | succ rounds inductionHypothesis =>
    rw [Builder.adopt]
    split
    · exact madeOf_ite madeOf.update madeOf
    · rename_i number tag found
      have own : Attributed tag.attributes := by
        obtain ⟨entry, member, same⟩ := List.exists_of_findSome?_eq_some found
        have here := madeOf.formatting entry (List.takeWhile_sublist _ |>.subset member)
        cases entry with
        | marker => simp at same
        | element other known =>
          simp only [Option.ite_none_right_eq_some, Option.some.injEq, Prod.mk.injEq] at same
          obtain ⟨-, -, rfl⟩ := same
          exact here
      split
      · exact madeOf.forget number
      · split
        · exact madeOf
        · simp only
          split
          · exact inductionHypothesis (madeOf.adoptBlock number own _ _ _ _ _)
          · exact madeOf.update.forget number

/-- Nor does ending one at all. -/
theorem MadeOf.endFormatting (madeOf : b.MadeOf Attributed Written) (name : Text) :
    (b.endFormatting name).MadeOf Attributed Written :=
  madeOf_ite madeOf.update (madeOf.adopt name 8)

end Builder
end MapEmbed.Html
