import MapEmbed.Proofs.Html.Provenance

/-!
# What the nodes of a fragment are made of

No mode makes up attributes or characters, but for elements without attributes that the markup leaves out. So the
nodes of a fragment are made of what its tokens hold.
-/

namespace MapEmbed.Html

variable {Attributed : List (Text × Text) → Prop} {Written : Char → Prop}

/-- One of two outcomes. -/
theorem Outcome.madeOf_ite {one two : Outcome} {condition : Prop} [Decidable condition]
    (first : one.MadeOf Attributed Written) (second : two.MadeOf Attributed Written) :
    (if condition then one else two).MadeOf Attributed Written := by
  split
  · exact first
  · exact second

namespace Builder

variable {b : Builder} {tag : Tag} {token : Token}

/-- The token is dealt with. -/
theorem MadeOf.done (madeOf : b.MadeOf Attributed Written) (content : Option ContentMode) :
    (Outcome.done b content).MadeOf Attributed Written :=
  madeOf

/-- The token is dealt with. -/
theorem MadeOf.finished (madeOf : b.MadeOf Attributed Written) : b.finished.MadeOf Attributed Written :=
  madeOf

/-- The token is to be looked at again. -/
theorem MadeOf.again (madeOf : b.MadeOf Attributed Written) (mode : InsertionMode) :
    (Outcome.again b mode).MadeOf Attributed Written :=
  madeOf

/-- An element that the markup leaves out has no attributes. -/
theorem MadeOf.openNamed (madeOf : b.MadeOf Attributed Written) (empty : Attributed []) (name : String) :
    (b.openNamed name).MadeOf Attributed Written :=
  madeOf.openTag empty

/-- An element whose content is a text. -/
theorem MadeOf.openText (madeOf : b.MadeOf Attributed Written) (own : Attributed tag.attributes)
    (content : ContentMode) : (b.openText tag content).MadeOf Attributed Written :=
  (madeOf.openTag own).update.done _

/-- A template. -/
theorem MadeOf.openTemplate (madeOf : b.MadeOf Attributed Written) (own : Attributed tag.attributes) :
    (b.openTemplate tag).MadeOf Attributed Written :=
  (madeOf.openTag own).pushMarker.update

/-- The end of a template. -/
theorem MadeOf.closeTemplate (madeOf : b.MadeOf Attributed Written) : b.closeTemplate.MadeOf Attributed Written :=
  Builder.madeOf_ite madeOf.update.clearToMarker.update madeOf

/-! ### In the body -/

/-- An item of a list. -/
theorem MadeOf.startItem (madeOf : b.MadeOf Attributed Written) (own : Attributed tag.attributes)
    (closes : List Text) : (b.startItem closes tag).MadeOf Attributed Written := by
  rw [Builder.startItem]
  apply MadeOf.finished
  apply MadeOf.openTag _ own
  apply MadeOf.closeParagraphInScope
  split
  · exact Builder.madeOf_ite madeOf.update madeOf
  · exact madeOf

/-- A start tag in the body. -/
theorem MadeOf.startInBody (madeOf : b.MadeOf Attributed Written) (own : Attributed tag.attributes) :
    (b.startInBody tag).MadeOf Attributed Written := by
  have outer := madeOf.closeParagraphInScope
  have block := outer.openTag own
  have resumed := madeOf.resumeFormatting
  rw [Builder.startInBody]
  split
  · exact madeOf.finished
  · exact (madeOf.insertVoid own).finished
  · exact madeOf.openText own _
  · exact madeOf.openText own _
  · exact madeOf.openText own _
  · exact (madeOf.openTemplate own).finished
  · exact block.finished
  · exact (MadeOf.openTag (Builder.madeOf_ite outer.update outer) own).finished
  · exact block.update.finished
  · exact Outcome.madeOf_ite madeOf.finished (Outcome.madeOf_ite block.finished block.update.finished)
  · exact madeOf.startItem own _
  · exact madeOf.startItem own _
  · exact block.done _
  · exact ((Builder.madeOf_ite madeOf.update madeOf).resumeFormatting.openTag own).finished
  · apply MadeOf.finished
    apply MadeOf.openFormatting _ own
    apply MadeOf.resumeFormatting
    split
    · exact madeOf
    · exact ((madeOf.endFormatting tag.name).forget _).update
  · exact (resumed.openFormatting own).finished
  · exact ((Builder.madeOf_ite (resumed.endFormatting tag.name).resumeFormatting resumed).openFormatting own).finished
  · exact (resumed.openTag own).pushMarker.finished
  · exact block.update.finished
  · exact (resumed.insertVoid own).finished
  · exact (madeOf.insertVoid own).finished
  · exact (outer.insertVoid own).finished
  · exact MadeOf.finished (resumed.insertVoid own)
  · exact (madeOf.openTag own).update.done _
  · exact outer.resumeFormatting.openText own _
  · exact (resumed.openTag own).update.finished
  · exact ((Builder.madeOf_ite madeOf.update madeOf).resumeFormatting.openTag own).finished
  · exact ((Builder.madeOf_ite madeOf.update madeOf).openTag own).finished
  · exact ((Builder.madeOf_ite madeOf.update madeOf).openTag own).finished
  · exact (resumed.openTag own).finished

/-- The end of a block or an item. -/
theorem MadeOf.endBlock (madeOf : b.MadeOf Attributed Written) (stops : List Text) (name : Text) :
    (b.endBlock stops name).MadeOf Attributed Written :=
  Builder.madeOf_ite madeOf.update madeOf

/-- The end of a form. -/
theorem MadeOf.endForm (madeOf : b.MadeOf Attributed Written) (name : Text) :
    (b.endForm name).MadeOf Attributed Written := by
  rw [Builder.endForm]
  apply Builder.madeOf_ite (madeOf.endBlock scopeNames name)
  split
  · exact madeOf
  · exact Builder.madeOf_ite madeOf.update madeOf.update

/-- An end tag in the body. -/
theorem MadeOf.endInBody (madeOf : b.MadeOf Attributed Written) (empty : Attributed []) (name : Text) :
    (b.endInBody name).MadeOf Attributed Written := by
  rw [Builder.endInBody]
  split
  · exact madeOf.finished
  · exact madeOf.closeTemplate.finished
  · exact (madeOf.endBlock scopeNames name).finished
  · exact (madeOf.endForm name).finished
  · have opened : (if b.inScope buttonScopeNames name then b else b.openNamed "p").MadeOf Attributed Written :=
      Builder.madeOf_ite madeOf (madeOf.openNamed empty "p")
    exact opened.update.finished
  · exact (Builder.madeOf_ite madeOf.update madeOf).finished
  · exact (Builder.madeOf_ite madeOf.update madeOf).finished
  · exact Outcome.madeOf_ite madeOf.update.finished madeOf.finished
  · exact (madeOf.endFormatting name).finished
  · exact Outcome.madeOf_ite (madeOf.endBlock scopeNames name).clearToMarker.finished madeOf.finished
  · exact (madeOf.resumeFormatting.insertVoid empty).finished
  · exact (Builder.madeOf_ite madeOf.update madeOf).finished

/-- A token in the body. -/
theorem MadeOf.inBody (madeOf : b.MadeOf Attributed Written) (empty : Attributed [])
    (here : token.MadeOf Attributed Written) : (b.inBody token).MadeOf Attributed Written := by
  cases token with
  | startTag tag => exact madeOf.startInBody here
  | endTag name => exact madeOf.endInBody empty name
  | char c => exact (madeOf.resumeFormatting.insertChar here).finished
  | comment content => exact (madeOf.insertComment content).finished
  | nul => exact madeOf.finished
  | fault => exact madeOf.finished

/-- A token whose nodes are put before a table. -/
theorem MadeOf.foster (madeOf : b.MadeOf Attributed Written) (empty : Attributed [])
    (here : token.MadeOf Attributed Written) : (b.foster token).MadeOf Attributed Written := by
  have moved : ({ b with fostering := true }.inBody token).MadeOf Attributed Written := madeOf.update.inBody empty here
  rw [Builder.foster]
  split
  · rename_i after content outcome
    rw [outcome] at moved
    exact MadeOf.done (MadeOf.update moved) content
  · rename_i after mode outcome
    rw [outcome] at moved
    exact MadeOf.again (MadeOf.update moved) mode

/-! ### In texts and tables -/

/-- A token in a text. -/
theorem MadeOf.inText (madeOf : b.MadeOf Attributed Written) (here : token.MadeOf Attributed Written) :
    (b.inText token).MadeOf Attributed Written := by
  cases token with
  | char c => exact (madeOf.insertChar here).finished
  | endTag name => exact madeOf.update.finished
  | _ => exact madeOf.finished

/-- A character in a table. -/
theorem MadeOf.charInTable (madeOf : b.MadeOf Attributed Written) (empty : Attributed [])
    (here : token.MadeOf Attributed Written) : (b.charInTable token).MadeOf Attributed Written :=
  Outcome.madeOf_ite (madeOf.update.again _) (madeOf.foster empty here)

/-- A start tag in a table. -/
theorem MadeOf.startInTable (madeOf : b.MadeOf Attributed Written) (empty : Attributed [])
    (own : Attributed tag.attributes) : (b.startInTable tag).MadeOf Attributed Written := by
  have cleared : (b.popUntil tableScopeNames).MadeOf Attributed Written := madeOf.update
  have opened := cleared.openTag own
  have form : (b.openTag tag).pop.MadeOf Attributed Written := (madeOf.openTag own).update
  rw [Builder.startInTable]
  apply Outcome.madeOf_ite (cleared.pushMarker.openTag own).update.finished
  apply Outcome.madeOf_ite opened.update.finished
  apply Outcome.madeOf_ite ((cleared.openNamed empty "colgroup").again _)
  apply Outcome.madeOf_ite opened.update.finished
  apply Outcome.madeOf_ite ((cleared.openNamed empty "tbody").again _)
  apply Outcome.madeOf_ite (Outcome.madeOf_ite (madeOf.update.again _) madeOf.finished)
  apply Outcome.madeOf_ite (madeOf.startInBody own)
  apply Outcome.madeOf_ite (madeOf.insertVoid own).finished
  apply Outcome.madeOf_ite (Outcome.madeOf_ite madeOf.finished form.update.finished)
  exact madeOf.foster empty own

/-- An end tag in a table. -/
theorem MadeOf.endInTable (madeOf : b.MadeOf Attributed Written) (empty : Attributed []) (name : Text) :
    (b.endInTable name).MadeOf Attributed Written := by
  rw [Builder.endInTable]
  apply Outcome.madeOf_ite (Outcome.madeOf_ite madeOf.update.finished madeOf.finished)
  apply Outcome.madeOf_ite madeOf.finished
  apply Outcome.madeOf_ite madeOf.closeTemplate.finished
  exact madeOf.foster empty trivial

/-- A token in a table. -/
theorem MadeOf.inTable (madeOf : b.MadeOf Attributed Written) (empty : Attributed [])
    (here : token.MadeOf Attributed Written) : (b.inTable token).MadeOf Attributed Written := by
  cases token with
  | startTag tag => exact madeOf.startInTable empty here
  | endTag name => exact madeOf.endInTable empty name
  | char c => exact madeOf.charInTable empty here
  | comment content => exact (madeOf.insertComment content).finished
  | nul => exact madeOf.charInTable empty trivial
  | fault => exact madeOf.finished

/-- A character before a table. -/
theorem MadeOf.fosterChar (madeOf : b.MadeOf Attributed Written) (empty : Attributed []) {c : Char}
    (here : Written c) : (b.fosterChar c).MadeOf Attributed Written := by
  have moved : (b.foster (.char c)).MadeOf Attributed Written := madeOf.foster empty here
  rw [Builder.fosterChar]
  split
  · rename_i outcome
    rwa [outcome] at moved
  · rename_i outcome
    rwa [outcome] at moved

/-- Characters that are put in place one after the other. -/
theorem MadeOf.foldl {put : Builder → Char → Builder}
    (step : ∀ {b c}, b.MadeOf Attributed Written → Written c → (put b c).MadeOf Attributed Written)
    (madeOf : b.MadeOf Attributed Written) {text : Text} (chars : ∀ c ∈ text, Written c) :
    (text.foldl put b).MadeOf Attributed Written := by
  induction text generalizing b with
  | nil => exact madeOf
  | cons c rest inductionHypothesis =>
    exact inductionHypothesis (step madeOf (chars c (by simp))) fun d member => chars d (by simp [member])

/-- The kept text of a table. -/
theorem MadeOf.flushTableText (madeOf : b.MadeOf Attributed Written) (empty : Attributed []) :
    b.flushTableText.MadeOf Attributed Written := by
  have chars : ∀ c ∈ b.tableText.reverse, Written c := fun c member => madeOf.tableText c (List.mem_reverse.mp member)
  have emptied : Builder.MadeOf Attributed Written { b with tableText := [] } :=
    ⟨madeOf.forest, madeOf.formatting, by simp⟩
  exact Builder.madeOf_ite (emptied.foldl (fun made here => made.insertChar here) chars)
    (emptied.foldl (fun made here => made.fosterChar empty here) chars)

/-- A token after a character in a table. -/
theorem MadeOf.inTableText (madeOf : b.MadeOf Attributed Written) (empty : Attributed [])
    (here : token.MadeOf Attributed Written) : (b.inTableText token).MadeOf Attributed Written := by
  have flushed := madeOf.flushTableText empty
  cases token with
  | char c =>
    refine ⟨madeOf.forest, madeOf.formatting, ?_⟩
    intro d member
    rcases List.mem_cons.mp member with rfl | old
    · exact here
    · exact madeOf.tableText d old
  | nul => exact madeOf.finished
  | startTag tag => exact flushed.again _
  | endTag name => exact flushed.again _
  | comment content => exact flushed.again _
  | fault => exact flushed.again _

/-- The end of a caption. -/
theorem MadeOf.closeCaption? (madeOf : b.MadeOf Attributed Written) {closed : Builder}
    (found : b.closeCaption? = some closed) : closed.MadeOf Attributed Written := by
  simp only [Builder.closeCaption?, Option.ite_none_right_eq_some, Option.some.injEq] at found
  obtain ⟨-, rfl⟩ := found
  exact madeOf.update.clearToMarker

/-- A token that closes a caption. -/
theorem MadeOf.leaveCaption (madeOf : b.MadeOf Attributed Written) {next : Builder → Outcome}
    (after : ∀ {closed : Builder}, closed.MadeOf Attributed Written → (next closed).MadeOf Attributed Written) :
    (match b.closeCaption? with
      | some closed => next closed
      | none => b.finished).MadeOf Attributed Written := by
  split
  · exact after (madeOf.closeCaption? ‹_›)
  · exact madeOf.finished

/-- A token in a caption. -/
theorem MadeOf.inCaption (madeOf : b.MadeOf Attributed Written) (empty : Attributed [])
    (here : token.MadeOf Attributed Written) : (b.inCaption token).MadeOf Attributed Written := by
  have body := madeOf.inBody empty here
  cases token with
  | startTag tag => exact Outcome.madeOf_ite (madeOf.leaveCaption fun closed => closed.again _) body
  | endTag name =>
    apply Outcome.madeOf_ite (madeOf.leaveCaption fun closed => closed.again _)
    apply Outcome.madeOf_ite (madeOf.leaveCaption fun closed => closed.update.finished)
    exact Outcome.madeOf_ite madeOf.finished body
  | _ => exact body

/-- A token that closes a group of columns. -/
theorem MadeOf.leaveColumnGroup (madeOf : b.MadeOf Attributed Written) :
    b.leaveColumnGroup.MadeOf Attributed Written :=
  Outcome.madeOf_ite (madeOf.update.again _) madeOf.finished

/-- A token in a group of columns. -/
theorem MadeOf.inColumnGroup (madeOf : b.MadeOf Attributed Written) (here : token.MadeOf Attributed Written) :
    (b.inColumnGroup token).MadeOf Attributed Written := by
  cases token with
  | char c => exact Outcome.madeOf_ite (madeOf.insertChar here).finished madeOf.leaveColumnGroup
  | comment content => exact (madeOf.insertComment content).finished
  | startTag tag =>
    apply Outcome.madeOf_ite madeOf.finished
    apply Outcome.madeOf_ite (madeOf.insertVoid here).finished
    exact Outcome.madeOf_ite (madeOf.openTemplate here).finished madeOf.leaveColumnGroup
  | endTag name =>
    apply Outcome.madeOf_ite (Outcome.madeOf_ite madeOf.update.finished madeOf.finished)
    apply Outcome.madeOf_ite madeOf.finished
    exact Outcome.madeOf_ite madeOf.closeTemplate.finished madeOf.leaveColumnGroup
  | nul => exact madeOf.leaveColumnGroup
  | fault => exact madeOf.finished

/-- A token that leaves the rows of a table. -/
theorem MadeOf.leaveTableBody (madeOf : b.MadeOf Attributed Written) : b.leaveTableBody.MadeOf Attributed Written :=
  Outcome.madeOf_ite (madeOf.update.again _) madeOf.finished

/-- A token between the rows of a table. -/
theorem MadeOf.inTableBody (madeOf : b.MadeOf Attributed Written) (empty : Attributed [])
    (here : token.MadeOf Attributed Written) : (b.inTableBody token).MadeOf Attributed Written := by
  have table := madeOf.inTable empty here
  have cleared : (b.popUntil bodyContextNames).MadeOf Attributed Written := madeOf.update
  cases token with
  | startTag tag =>
    apply Outcome.madeOf_ite (cleared.openTag here).update.finished
    apply Outcome.madeOf_ite ((cleared.openNamed empty "tr").again _)
    exact Outcome.madeOf_ite madeOf.leaveTableBody table
  | endTag name =>
    apply Outcome.madeOf_ite (Outcome.madeOf_ite madeOf.update.finished madeOf.finished)
    apply Outcome.madeOf_ite madeOf.leaveTableBody
    exact Outcome.madeOf_ite madeOf.finished table
  | _ => exact table

/-- The end of a row. -/
theorem MadeOf.closeRow? (madeOf : b.MadeOf Attributed Written) {closed : Builder}
    (found : b.closeRow? = some closed) : closed.MadeOf Attributed Written := by
  simp only [Builder.closeRow?, Option.ite_none_right_eq_some, Option.some.injEq] at found
  obtain ⟨-, rfl⟩ := found
  exact madeOf.update

/-- A token that leaves a row. -/
theorem MadeOf.leaveRow (madeOf : b.MadeOf Attributed Written) : b.leaveRow.MadeOf Attributed Written := by
  rw [Builder.leaveRow]
  split
  · exact (madeOf.closeRow? ‹_›).again _
  · exact madeOf.finished

/-- A token between the cells of a row. -/
theorem MadeOf.inRow (madeOf : b.MadeOf Attributed Written) (empty : Attributed [])
    (here : token.MadeOf Attributed Written) : (b.inRow token).MadeOf Attributed Written := by
  have table := madeOf.inTable empty here
  have cleared : (b.popUntil rowContextNames).MadeOf Attributed Written := madeOf.update
  cases token with
  | startTag tag =>
    apply Outcome.madeOf_ite (cleared.openTag here).pushMarker.update.finished
    exact Outcome.madeOf_ite madeOf.leaveRow table
  | endTag name =>
    have closed : (match b.closeRow? with
        | some closed => { closed with mode := .inTableBody }.finished
        | none => b.finished).MadeOf Attributed Written := by
      split
      · exact (madeOf.closeRow? ‹_›).update.finished
      · exact madeOf.finished
    apply Outcome.madeOf_ite closed
    apply Outcome.madeOf_ite madeOf.leaveRow
    apply Outcome.madeOf_ite (Outcome.madeOf_ite madeOf.leaveRow madeOf.finished)
    exact Outcome.madeOf_ite madeOf.finished table
  | _ => exact table

/-- A token that leaves a cell. -/
theorem MadeOf.leaveCell (madeOf : b.MadeOf Attributed Written) : b.leaveCell.MadeOf Attributed Written :=
  MadeOf.again madeOf.update.clearToMarker .inRow

/-- A token in a cell. -/
theorem MadeOf.inCell (madeOf : b.MadeOf Attributed Written) (empty : Attributed [])
    (here : token.MadeOf Attributed Written) : (b.inCell token).MadeOf Attributed Written := by
  have body := madeOf.inBody empty here
  cases token with
  | startTag tag => exact Outcome.madeOf_ite (Outcome.madeOf_ite madeOf.leaveCell madeOf.finished) body
  | endTag name =>
    have closed : ((b.endImplied impliedEndNames).popNamed name).clearToMarker.MadeOf Attributed Written :=
      MadeOf.clearToMarker madeOf.update
    apply Outcome.madeOf_ite (Outcome.madeOf_ite closed.update.finished madeOf.finished)
    apply Outcome.madeOf_ite madeOf.finished
    exact Outcome.madeOf_ite (Outcome.madeOf_ite madeOf.leaveCell madeOf.finished) body
  | _ => exact body

/-! ### In lists of choices and templates -/

/-- A token in a list of choices. -/
theorem MadeOf.inSelect (madeOf : b.MadeOf Attributed Written) (here : token.MadeOf Attributed Written) :
    (b.inSelect token).MadeOf Attributed Written := by
  have closed : b.closeSelect.resetMode.MadeOf Attributed Written := madeOf.update
  have outer (name : Text) : (if b.currentIs name then b.pop else b).MadeOf Attributed Written :=
    Builder.madeOf_ite madeOf.update madeOf
  cases token with
  | char c => exact (madeOf.insertChar here).finished
  | comment content => exact (madeOf.insertComment content).finished
  | startTag tag =>
    apply Outcome.madeOf_ite ((outer _).openTag here).finished
    apply Outcome.madeOf_ite (MadeOf.openTag (Builder.madeOf_ite (outer _).update (outer _)) here).finished
    apply Outcome.madeOf_ite (Outcome.madeOf_ite closed.finished madeOf.finished)
    apply Outcome.madeOf_ite (Outcome.madeOf_ite (madeOf.update.again _) madeOf.finished)
    exact Outcome.madeOf_ite (madeOf.startInBody here) madeOf.finished
  | endTag name =>
    have inner (condition : Prop) [Decidable condition] : (if condition then b.pop else b).MadeOf Attributed Written :=
      Builder.madeOf_ite madeOf.update madeOf
    apply Outcome.madeOf_ite (MadeOf.finished (Builder.madeOf_ite (inner _).update (inner _)))
    apply Outcome.madeOf_ite (outer _).finished
    apply Outcome.madeOf_ite (Outcome.madeOf_ite closed.finished madeOf.finished)
    exact Outcome.madeOf_ite madeOf.closeTemplate.finished madeOf.finished
  | nul => exact madeOf.finished
  | fault => exact madeOf.finished

/-- A token in a list of choices inside a table. -/
theorem MadeOf.inSelectInTable (madeOf : b.MadeOf Attributed Written) (here : token.MadeOf Attributed Written) :
    (b.inSelectInTable token).MadeOf Attributed Written := by
  have choices := madeOf.inSelect here
  cases token with
  | startTag tag => exact Outcome.madeOf_ite (madeOf.update.again _) choices
  | endTag name =>
    exact Outcome.madeOf_ite (Outcome.madeOf_ite (madeOf.update.again _) madeOf.finished) choices
  | _ => exact choices

/-- A token in a template whose content has not shown what it is. -/
theorem MadeOf.inTemplate (madeOf : b.MadeOf Attributed Written) (empty : Attributed [])
    (here : token.MadeOf Attributed Written) : (b.inTemplate token).MadeOf Attributed Written := by
  have switched (mode : InsertionMode) : (b.switchTemplate mode).MadeOf Attributed Written := madeOf.update.again mode
  have body := madeOf.inBody empty here
  cases token with
  | startTag tag =>
    apply Outcome.madeOf_ite (madeOf.startInBody here)
    apply Outcome.madeOf_ite (switched _)
    apply Outcome.madeOf_ite (switched _)
    apply Outcome.madeOf_ite (switched _)
    exact Outcome.madeOf_ite (switched _) (switched _)
  | endTag name => exact Outcome.madeOf_ite madeOf.closeTemplate.finished madeOf.finished
  | char c => exact body
  | comment content => exact body
  | nul => exact madeOf.finished
  | fault => exact madeOf.finished

/-! ### The whole -/

/-- A token in any mode. -/
theorem MadeOf.inMode (madeOf : b.MadeOf Attributed Written) (empty : Attributed [])
    (here : token.MadeOf Attributed Written) : (b.inMode token).MadeOf Attributed Written := by
  rw [Builder.inMode]
  split
  · exact madeOf.inBody empty here
  · exact madeOf.inText here
  · exact madeOf.inTable empty here
  · exact madeOf.inTableText empty here
  · exact madeOf.inCaption empty here
  · exact madeOf.inColumnGroup here
  · exact madeOf.inTableBody empty here
  · exact madeOf.inRow empty here
  · exact madeOf.inCell empty here
  · exact madeOf.inSelect here
  · exact madeOf.inSelectInTable here
  · exact madeOf.inTemplate empty here

/-- A token in one mode after another. -/
theorem MadeOf.settle (madeOf : b.MadeOf Attributed Written) (empty : Attributed [])
    (here : token.MadeOf Attributed Written) (limit : Nat) :
    (Builder.settle token limit b).1.MadeOf Attributed Written := by
  induction limit generalizing b with
  | zero => exact madeOf
  | succ limit inductionHypothesis =>
    have outcome := madeOf.inMode empty here
    rw [Builder.settle]
    split
    · rename_i same
      rwa [same] at outcome
    · rename_i same
      rw [same] at outcome
      exact inductionHypothesis (MadeOf.update outcome)

/-- A token. -/
theorem MadeOf.accept (madeOf : b.MadeOf Attributed Written) (empty : Attributed [])
    (here : token.MadeOf Attributed Written) : (b.accept token).1.MadeOf Attributed Written := by
  rw [Builder.accept]
  split
  · exact madeOf.update
  · exact madeOf.update.settle empty here _

/-- The end of the markup. -/
theorem MadeOf.finish (madeOf : b.MadeOf Attributed Written) (empty : Attributed []) :
    b.finish.MadeOf Attributed Written :=
  Builder.madeOf_ite (madeOf.flushTableText empty) madeOf

/-- Only the root is there at the start, without attributes. -/
theorem madeOf_initial (empty : Attributed []) : Builder.initial.MadeOf Attributed Written := by
  have none_ : Forest.MadeOf Attributed Written ⟨#[]⟩ := fun number draft found => by simp at found
  exact ⟨none_.create rootName empty, by simp [Builder.initial], by simp [Builder.initial]⟩

end Builder

/-! ### Trees -/

/-- A character in front of nodes. -/
theorem madeOf_consChar {c : Char} {nodes : List Node} (here : Written c)
    (inside : ∀ node ∈ nodes, node.MadeOf Attributed Written) :
    ∀ node ∈ Forest.consChar c nodes, node.MadeOf Attributed Written := by
  intro node member
  unfold Forest.consChar at member
  split at member
  · rename_i content rest
    rcases List.mem_cons.mp member with rfl | later
    · cases inside (.text content) (by simp) with
      | text chars =>
        refine .text fun d within => ?_
        rcases List.mem_cons.mp within with rfl | old
        · exact here
        · exact chars d old
    · exact inside node (by simp [later])
  · rcases List.mem_cons.mp member with rfl | later
    · exact .text fun d within => List.mem_singleton.mp within ▸ here
    · exact inside node later

/-- The nodes of children. -/
theorem madeOf_consChildren {treeOf : Nat → Node} (trees : ∀ number, (treeOf number).MadeOf Attributed Written)
    {children : List Child} (made : ∀ child ∈ children, child.MadeOf Written) {nodes : List Node}
    (inside : ∀ node ∈ nodes, node.MadeOf Attributed Written) :
    ∀ node ∈ children.foldl (Forest.consChild treeOf) nodes, node.MadeOf Attributed Written := by
  induction children generalizing nodes with
  | nil => exact inside
  | cons child rest inductionHypothesis =>
    apply inductionHypothesis fun other member => made other (by simp [member])
    cases child with
    | element number => exact List.forall_mem_cons.mpr ⟨trees number, inside⟩
    | char c => exact madeOf_consChar (made (.char c) (by simp)) inside
    | comment content => exact List.forall_mem_cons.mpr ⟨.comment content, inside⟩

/-- The tree of an element. -/
theorem Forest.MadeOf.tree {forest : Forest} (madeOf : forest.MadeOf Attributed Written) (depth number : Nat) :
    (forest.tree depth number).MadeOf Attributed Written := by
  induction depth generalizing number with
  | zero => exact .text (by simp)
  | succ depth inductionHypothesis =>
    rw [Forest.tree]
    split
    · exact .text (by simp)
    · rename_i draft found
      have made := madeOf number draft found
      exact .element made.own (madeOf_consChildren inductionHypothesis made.inside (by simp))

/-- The trees below an element. -/
theorem Forest.MadeOf.childTrees {forest : Forest} (madeOf : forest.MadeOf Attributed Written) (number : Nat) :
    ∀ node ∈ forest.childTrees number, node.MadeOf Attributed Written := by
  rw [Forest.childTrees]
  split
  · simp
  · rename_i draft found
    exact madeOf_consChildren (madeOf.tree _) (madeOf number draft found).inside (by simp)

end MapEmbed.Html
