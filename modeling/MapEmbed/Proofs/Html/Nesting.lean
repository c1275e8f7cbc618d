import MapEmbed.Proofs.Html.Accepting

/-!
# Tags that open where they stand

Some start tags close elements around them: those of blocks close a paragraph, a heading closes a heading, an item of
a list the item before it, and a link the link before it. Clean markup in which no tag does so is read as it is
written, token by token. Where the first tag stands that does, an end tag comes in, or formatting is made anew.
-/

namespace MapEmbed.Html

/-- The elements that may not stand in a paragraph. -/
def paragraphEnders : List Text :=
  names ["blockquote", "div", "h1", "h2", "h3", "h4", "h5", "h6", "li", "ol", "p", "ul"]

/-- The elements that keep an item in them from closing one around them. -/
def itemBarriers : List Text :=
  names ["blockquote", "h1", "h2", "h3", "h4", "h5", "h6", "ol", "ul"]

/-- Whether an allowed element may stand in elements with the given names, innermost first: no block in a paragraph,
no heading directly in a heading, no item in an item without a list, a quotation or a heading between them, and no
link in a link. -/
def mayStandIn (name : Text) (path : List Text) : Bool :=
  !(paragraphEnders.contains name && path.contains "p".toList) &&
  !(headingNames.contains name && path.head?.any headingNames.contains) &&
  !(name == "li".toList && (path.takeWhile fun outer => !itemBarriers.contains outer).contains "li".toList) &&
  !(name == "a".toList && path.contains "a".toList)

/-- The names of the open elements after a token, innermost first. -/
def pathAfter (path : List Text) : Token → List Text
  | .startTag tag => if voidElements.contains tag.name then path else tag.name :: path
  | .endTag _ => path.drop 1
  | _ => path

/-- Whether the element that a token opens, if it opens one, may stand in elements with the given names. -/
def Token.standsIn (path : List Text) : Token → Bool
  | .startTag tag => mayStandIn tag.name path
  | _ => true

/-- Whether every element of a text may stand in those around it. -/
def nests : List Text → List Token → Bool
  | _, [] => true
  | path, token :: rest => token.standsIn path && nests (pathAfter path token) rest

/-- The element that a formatting element was opened as. -/
def FormattingEntry.opened : FormattingEntry → OpenElement
  | .marker => rootElement
  | .element number tag => ⟨number, tag.name⟩

/-- The builder is in a body where every element that was opened is as it was written: its open elements are the
frames, with the names of the path, and the formatting elements are among them, all links with them. -/
structure Builder.Tidy (b : Builder) (frames : List Frame) (path : List Text) : Prop extends b.Tracks frames where
  whole : b.stack = frames.map Frame.element
  named : b.stack.map OpenElement.name = path ++ [rootName]
  current : (b.formatting.map FormattingEntry.opened).Sublist b.stack
  formats : ∀ entry ∈ b.formatting, endKind entry.opened.name = .formatting
  links : ∀ element ∈ b.stack, element.name = "a".toList → element ∈ b.formatting.map FormattingEntry.opened

section
variable {name : Text} {own path : List Text} {tag : Tag} {token : Token}
  {b later closed : Builder} {frames : List Frame} {amount : Nat} {front stack : List OpenElement}

/-! ### Allowed elements -/

/-- Where an allowed element may stand is told by the kind of its start tag. -/
theorem mayStandIn_of_allowed (allowed : ownAttributes? name = some own) (path : List Text) :
    mayStandIn name path = match startKind name with
      | .block => !path.contains "p".toList
      | .heading => !path.contains "p".toList && !path.head?.any headingNames.contains
      | .listItem => !path.contains "p".toList &&
        !(path.takeWhile fun outer => !itemBarriers.contains outer).contains "li".toList
      | .anchor => !path.contains "a".toList
      | _ => true := by
  have checked : ∀ entry ∈ allowedElements,
      paragraphEnders.contains entry.1 = decide (startKind entry.1 = .block ∨ startKind entry.1 = .heading ∨
        startKind entry.1 = .listItem) ∧ headingNames.contains entry.1 = decide (startKind entry.1 = .heading) ∧
      (entry.1 == "li".toList) = decide (startKind entry.1 = .listItem) ∧
      (entry.1 == "a".toList) = decide (startKind entry.1 = .anchor) := by decide
  obtain ⟨ender, heading, item, link⟩ := checked _ (Entries.mem_of_lookup allowed)
  rw [mayStandIn, ender, heading, item, link]
  generalize startKind name = kind
  cases kind <;> simp

/-- Items, links and formatting elements are told by the kind of their start tags. -/
theorem kinds_of_allowed (allowed : ownAttributes? name = some own) :
    (startKind name = .listItem ↔ name = "li".toList) ∧ (startKind name = .anchor ↔ name = "a".toList) ∧
      (endKind name = .formatting ↔ startKind name = .anchor ∨ startKind name = .formatting) := by
  have checked : ∀ entry ∈ allowedElements, (startKind entry.1 = .listItem ↔ entry.1 = "li".toList) ∧
      (startKind entry.1 = .anchor ↔ entry.1 = "a".toList) ∧
      (endKind entry.1 = .formatting ↔ startKind entry.1 = .anchor ∨ startKind entry.1 = .formatting) := by
    decide
  exact checked _ (Entries.mem_of_lookup allowed)

/-- Items are searched up to an item or a barrier. -/
theorem item_search_of_allowed (full : name ∉ voidElements) (allowed : ownAttributes? name = some own) :
    (["li".toList].contains name || (specialNames.filter fun name =>
      !(names ["address", "div", "p"]).contains name).contains name) =
      (name == "li".toList || itemBarriers.contains name) := by
  have checked : ∀ entry ∈ allowedElements, entry.1 ∉ voidElements →
      (["li".toList].contains entry.1 || (specialNames.filter fun name =>
        !(names ["address", "div", "p"]).contains name).contains entry.1) =
        (entry.1 == "li".toList || itemBarriers.contains entry.1) := by decide
  exact checked _ (Entries.mem_of_lookup allowed) full

/-- The search for an item around an item finds one if none of the barriers comes before it. -/
theorem item_search (allowed : ∀ element ∈ front, element.name ∉ voidElements ∧
      ∃ own, ownAttributes? element.name = some own) :
    (((front ++ [rootElement]).find? fun element => ["li".toList].contains element.name ||
      (specialNames.filter fun name => !(names ["address", "div", "p"]).contains name).contains element.name).any
        fun element => element.name == "li".toList) =
      ((front.map OpenElement.name).takeWhile fun outer => !itemBarriers.contains outer).contains "li".toList := by
  induction front with
  | nil => decide
  | cons element rest inductionHypothesis =>
    obtain ⟨⟨full, own, here⟩, later⟩ := List.forall_mem_cons.mp allowed
    rw [List.cons_append, List.find?_cons, item_search_of_allowed full here, List.map_cons, List.takeWhile_cons]
    have apart : itemBarriers.contains "li".toList = false := by decide
    by_cases item : element.name = "li".toList
    · rw [item, apart, beq_self_eq_true, Bool.true_or]
      simp [item]
    · rw [beq_eq_false_iff_ne.mpr item, Bool.false_or]
      cases barrier : itemBarriers.contains element.name with
      | true => simpa using item
      | false =>
        rw [Bool.not_false, if_pos rfl, List.contains_cons, beq_eq_false_iff_ne.mpr (Ne.symm item), Bool.false_or]
        exact inductionHypothesis later

namespace Builder

/-! ### Tidy builders -/

/-- The open elements of a tidy builder are allowed elements, and the root. -/
theorem Tidy.exists_front (tidy : b.Tidy frames path) : ∃ front, b.stack = front ++ [rootElement] ∧
    front.map OpenElement.name = path ∧ b.stack.Nodup ∧
    ∀ element ∈ front, element.name ∉ voidElements ∧ ∃ own, ownAttributes? element.name = some own := by
  have chain := tidy.chain
  have distinct := chain.nodup_elements
  obtain ⟨front, split⟩ := List.getLast?_eq_some_iff.mp tidy.rooted
  have named := tidy.named
  rw [split, List.map_append] at named
  rw [tidy.whole] at split ⊢
  refine ⟨front, split, (List.append_inj' named rfl).1, distinct, fun element member => ?_⟩
  obtain ⟨inner, outermost, rfl, innerSame, rootSame⟩ := List.map_eq_append_iff.mp split
  obtain ⟨root, rfl, rootElement_⟩ := List.map_eq_singleton_iff.mp rootSame
  rw [← innerSame] at member
  obtain ⟨frame, listed, rfl⟩ := List.mem_map.mp member
  obtain ⟨before, behind, rfl⟩ := List.append_of_mem listed
  rw [List.append_assoc, List.cons_append] at chain
  obtain ⟨-, held, -⟩ := Forest.holds_cut.mp chain.holds
  have numbers := chain.distinct
  rw [numbersIn_append, numbersIn_cons, numbersIn_append, numbersIn_cons] at numbers
  have zero : root.number = 0 := congrArg OpenElement.number rootElement_
  obtain ⟨⟨own, allowed, -⟩, full⟩ := held.proper (by grind)
  exact ⟨full, own, allowed⟩

/-- No formatting is resumed, because all is open. -/
theorem Tidy.resumeFormatting_eq (tidy : b.Tidy frames path) : b.resumeFormatting = b := by
  have settled : ∀ entry ∈ b.formatting, b.settled entry = true := by
    intro entry member
    cases entry with
    | marker => rfl
    | element number tag =>
      have open_ := tidy.current.subset (List.mem_map_of_mem member)
      exact List.any_eq_true.mpr ⟨_, open_, beq_self_eq_true _⟩
  have none_ : b.formatting.takeWhile (fun entry => !b.settled entry) = [] := by
    cases formatting : b.formatting with
    | nil => rfl
    | cons entry rest => simp [settled entry (by simp [formatting])]
  rw [resumeFormatting, none_]
  rfl

/-- The names of the open elements are those of the path. -/
theorem Tidy.mem_path (tidy : b.Tidy frames path) {element : OpenElement} (member : element ∈ b.stack)
    (inner : element.name ≠ rootName) : element.name ∈ path := by
  have listed := List.mem_map_of_mem (f := OpenElement.name) member
  rw [tidy.named] at listed
  simpa [inner] using listed

/-- No paragraph is closed where none is open. -/
theorem Tidy.closeParagraphInScope_eq (tidy : b.Tidy frames path) (none_ : path.contains "p".toList = false) :
    b.closeParagraphInScope = b := by
  refine if_neg fun found => ?_
  obtain ⟨element, member, fit⟩ := exists_of_reaches found
  have name := beq_iff_eq.mp fit
  have listed := tidy.mem_path member (by rw [name]; decide)
  simp [← name, listed] at none_

/-- The frame of a tidy builder's innermost element. -/
theorem Tidy.exists_top (tidy : b.Tidy frames path) : ∃ top outer, frames = top :: outer ∧
    b.stack = top.element :: outer.map Frame.element := by
  have whole := tidy.whole
  cases frames with
  | nil => simpa [whole] using tidy.rooted
  | cons top outer => exact ⟨top, outer, rfl, whole⟩

/-- A character is put at the end. -/
theorem Tidy.insertChar (tidy : b.Tidy frames path) (c : Char) : ∃ after, (b.insertChar c).Tidy after path ∧
    writtenIn after = writtenIn frames ++ [.char c] := by
  obtain ⟨top, outer, rfl, opened⟩ := tidy.exists_top
  exact ⟨_, { tidy with toTracks := tidy.toTracks.insertChar opened c, whole := opened }, writtenIn_add ..⟩

/-- An element without content is put at the end. -/
theorem Tidy.insertVoid (tidy : b.Tidy frames path) (kept : KeptTag tag) (bare : tag.name ∈ voidElements) :
    ∃ after, (b.insertVoid tag).Tidy after path ∧ writtenIn after = writtenIn frames ++ [.startTag tag] := by
  obtain ⟨top, outer, rfl, opened⟩ := tidy.exists_top
  exact ⟨_, { tidy with toTracks := tidy.toTracks.insertVoid opened kept bare, whole := opened }, writtenIn_add ..⟩

/-- An element is opened at the end. -/
theorem Tidy.openTag (tidy : b.Tidy frames path) (kept : KeptTag tag) (full : tag.name ∉ voidElements)
    (other : tag.name ≠ "a".toList) : ∃ after, (b.openTag tag).Tidy after (tag.name :: path) ∧
    writtenIn after = writtenIn frames ++ [.startTag tag] := by
  obtain ⟨top, outer, rfl, opened⟩ := tidy.exists_top
  obtain ⟨tracks, stack, formatting, number⟩ := tidy.toTracks.openTag opened kept full
  refine ⟨_, ⟨tracks, ?_, ?_, ?_, ?_, ?_⟩, writtenIn_new number tag _⟩
  · rw [stack, tidy.whole]
    rfl
  · rw [stack, List.map_cons, tidy.named, List.cons_append]
  · rw [stack, formatting]
    exact tidy.current.cons _
  · rw [formatting]
    exact tidy.formats
  · rw [stack, formatting]
    intro element member link
    rcases List.mem_cons.mp member with rfl | old
    · exact absurd link other
    · exact tidy.links element old link

/-- The oldest of three formatting elements is forgotten, but no link. -/
theorem Tidy.limitFormatting (tidy : b.Tidy frames path) (fits : tag.name = "a".toList → "a".toList ∉ path) :
    (b.limitFormatting tag).Tidy frames path := by
  rw [Builder.limitFormatting]
  split
  · have recent : b.recentFormatting ++ b.formatting.drop b.recentFormatting.length = b.formatting :=
      List.prefix_iff_eq_append.mp (List.takeWhile_prefix _)
    have fewer : (eraseLast (sameTag tag) b.recentFormatting ++ b.formatting.drop b.recentFormatting.length).Sublist
        b.formatting := by
      have erased : (eraseLast (sameTag tag) b.recentFormatting).Sublist b.recentFormatting := by
        simpa [eraseLast] using (List.eraseP_sublist (p := sameTag tag) (l := b.recentFormatting.reverse)).reverse
      have whole := erased.append_right (b.formatting.drop b.recentFormatting.length)
      rwa [recent] at whole
    refine ⟨tidy.toTracks.reformat fun entry member => tidy.formatting entry (fewer.subset member), tidy.whole, tidy.named,
      (fewer.map _).trans tidy.current, fun entry member => tidy.formats entry (fewer.subset member), ?_⟩
    intro element member link
    obtain ⟨entry, listed, rfl⟩ := List.mem_map.mp (tidy.links element member link)
    refine List.mem_map_of_mem ?_
    have other : sameTag tag entry = false := by
      cases entry with
      | marker => rfl
      | element number known =>
        have apart : known.name ≠ tag.name := fun same =>
          fits (same ▸ link) (link ▸ tidy.mem_path member (by rw [link]; decide))
        simp [sameTag, apart]
    rw [← recent] at listed
    rcases List.mem_append.mp listed with here | earlier
    · refine List.mem_append_left _ (List.mem_reverse.mpr ?_)
      exact (List.mem_eraseP_of_neg (by simp [other])).mpr (List.mem_reverse.mpr here)
    · exact List.mem_append_right _ earlier
  · exact tidy

/-- A formatting element is opened at the end. -/
theorem Tidy.openFormatting (tidy : b.Tidy frames path) (kept : KeptTag tag) (full : tag.name ∉ voidElements)
    (format : endKind tag.name = .formatting) (fits : tag.name = "a".toList → "a".toList ∉ path) :
    ∃ after, (b.openFormatting tag).Tidy after (tag.name :: path) ∧
      writtenIn after = writtenIn frames ++ [.startTag tag] := by
  have limited := tidy.limitFormatting fits
  rw [Builder.openFormatting]
  generalize b.limitFormatting tag = b at limited ⊢
  obtain ⟨top, outer, rfl, opened⟩ := limited.exists_top
  obtain ⟨tracks, stack, formatting, number⟩ := limited.toTracks.openTag opened kept full
  rw [stack, formatting]
  have noted : FormattingEntry.Kept (.element b.forest.drafts.size tag) := ⟨number, kept, full⟩
  refine ⟨_, ⟨tracks.reformat (List.forall_mem_cons.mpr ⟨noted, limited.formatting⟩), ?_, ?_, ?_,
    List.forall_mem_cons.mpr ⟨format, limited.formats⟩, ?_⟩, writtenIn_new number tag _⟩
  · exact stack.trans (by rw [limited.whole]; rfl)
  · refine (congrArg (List.map OpenElement.name) stack).trans ?_
    rw [List.map_cons, limited.named, List.cons_append]
  · exact limited.current.cons_cons _
  · intro element member link
    rcases List.mem_cons.mp (stack ▸ member : element ∈ _ :: b.stack) with rfl | old
    · exact List.mem_cons_self
    · exact List.mem_cons_of_mem _ (limited.links element old link)

/-- An item closes no item around it, if it may stand there. -/
theorem Tidy.startItem_eq (tidy : b.Tidy frames path) (item : tag.name = "li".toList)
    (none_ : path.contains "p".toList = false)
    (apart : (path.takeWhile fun outer => !itemBarriers.contains outer).contains "li".toList = false) :
    b.startItem [tag.name] tag = (b.openTag tag).finished := by
  obtain ⟨front, opened, rfl, -, allowed⟩ := tidy.exists_front
  have search := item_search allowed
  rw [apart, ← opened] at search
  rw [startItem, item]
  cases found : b.stack.find? fun element => ["li".toList].contains element.name ||
      (specialNames.filter fun name => !(names ["address", "div", "p"]).contains name).contains element.name with
  | none => simp only [tidy.closeParagraphInScope_eq none_]
  | some element =>
    rw [found] at search
    have other : ["li".toList].contains element.name = false := by simpa using search
    simp only [other, Bool.false_eq_true, if_false, tidy.closeParagraphInScope_eq none_]

/-- Whether a heading is innermost is told by the path. -/
theorem Tidy.currentIn_headings (tidy : b.Tidy frames path) :
    b.currentIn headingNames = path.head?.any headingNames.contains := by
  obtain ⟨front, opened, rfl, -, -⟩ := tidy.exists_front
  rw [currentIn, opened]
  cases front with
  | nil => decide
  | cons element rest => rfl

/-- The entry of a formatting element is that of an open element. -/
theorem Tidy.mem_path_of_entry (tidy : b.Tidy frames path) {number : Nat} {known : Tag}
    (member : .element number known ∈ b.formatting) : known.name ∈ path := by
  obtain ⟨-, ⟨own, allowed, -⟩, -⟩ := tidy.formatting _ member
  exact tidy.mem_path (tidy.current.subset (List.mem_map_of_mem member)) (ne_rootName_of_allowed allowed)

/-- A start tag that may stand where it does opens its element there. -/
theorem Tidy.accept_startTag (tidy : b.Tidy frames path) (kept : KeptTag tag)
    (stands : mayStandIn tag.name path = true) : ∃ later after, b.accept (.startTag tag) = (later, none) ∧
      later.Tidy after (pathAfter path (.startTag tag)) ∧ writtenIn after = writtenIn frames ++ [.startTag tag] := by
  obtain ⟨own, allowed, -⟩ := id kept
  have dealt (later : Builder) (same : b.startInBody tag = later.finished) : b.accept (.startTag tag) = (later, none) :=
    tidy.accept_eq (by simp) same
  rw [mayStandIn_of_allowed allowed] at stands
  obtain ⟨item, link, format⟩ := kinds_of_allowed allowed
  rcases startKind_of_allowed allowed with ⟨kind, bare⟩ | ⟨full, kinds⟩
  · obtain ⟨after, tidy_, written⟩ := tidy.insertVoid kept bare
    refine ⟨_, after, dealt (b.insertVoid tag) ?_, ?_, written⟩
    · simp only [startInBody, kind, tidy.resumeFormatting_eq]
    · simpa [pathAfter, bare] using tidy_
  · have path_ : pathAfter path (.startTag tag) = tag.name :: path := by simp [pathAfter, full]
    rw [path_]
    rcases kinds with kind | kind | kind | kind | kind | kind
    all_goals rw [kind] at stands item link format
    · obtain ⟨after, opened⟩ := tidy.openTag kept full (by simpa using link)
      refine ⟨_, after, dealt (b.openTag tag) ?_, opened⟩
      simp only [startInBody, kind, tidy.closeParagraphInScope_eq (by simpa using stands)]
    · obtain ⟨after, opened⟩ := tidy.openTag kept full (by simpa using link)
      refine ⟨_, after, dealt (b.openTag tag) ?_, opened⟩
      simp only [Bool.and_eq_true, Bool.not_eq_true'] at stands
      simp only [startInBody, kind, tidy.closeParagraphInScope_eq stands.1, tidy.currentIn_headings, stands.2,
        Bool.false_eq_true, if_false]
    · obtain ⟨after, opened⟩ := tidy.openTag kept full (by simpa using link)
      refine ⟨_, after, dealt (b.openTag tag) ?_, opened⟩
      simp only [Bool.and_eq_true, Bool.not_eq_true'] at stands
      simp only [startInBody, kind, tidy.startItem_eq (item.mp rfl) stands.1 stands.2]
    · have apart : "a".toList ∉ path := by simpa using stands
      obtain ⟨after, opened⟩ := tidy.openFormatting kept full (format.mpr (Or.inl rfl)) fun _ => apart
      refine ⟨_, after, dealt (b.openFormatting tag) ?_, opened⟩
      rw [startInBody, kind]
      dsimp only
      split
      · rw [tidy.resumeFormatting_eq]
      · rename_i number found
        obtain ⟨entry, member, same⟩ := List.exists_of_findSome?_eq_some found
        cases entry with
        | marker => simp at same
        | element other known =>
          have listed := tidy.mem_path_of_entry ((List.takeWhile_sublist _).subset member)
          have name : known.name = tag.name := by
            by_contra apart
            simp [apart] at same
          exact absurd (link.mp rfl ▸ name ▸ listed) apart
    · obtain ⟨after, opened⟩ := tidy.openFormatting kept full (format.mpr (Or.inr rfl))
        fun same => absurd (link.mpr same) (by simp)
      refine ⟨_, after, dealt (b.openFormatting tag) ?_, opened⟩
      simp only [startInBody, kind, tidy.resumeFormatting_eq]
    · obtain ⟨after, opened⟩ := tidy.openTag kept full (by simpa using link)
      refine ⟨_, after, dealt (b.openTag tag) ?_, opened⟩
      simp only [startInBody, kind, tidy.resumeFormatting_eq]

/-! ### End tags of tidy builders -/

/-- The innermost element is closed, and its end tag is written. -/
theorem Tidy.close (tidy : b.Tidy frames (name :: path)) {formatting : List FormattingEntry}
    (fewer : formatting.Sublist b.formatting)
    (current : (formatting.map FormattingEntry.opened).Sublist (b.stack.drop 1))
    (links : ∀ element ∈ b.stack.drop 1, element.name = "a".toList →
      element ∈ formatting.map FormattingEntry.opened) :
    ∃ after, Tidy { b with stack := b.stack.drop 1, formatting } after path ∧
      writtenIn after = writtenIn frames ++ [.endTag name] := by
  obtain ⟨top, outer, rfl, opened⟩ := tidy.exists_top
  have named := tidy.named
  rw [opened, List.map_cons, List.cons_append] at named
  obtain ⟨rfl, others⟩ := List.cons.inj named
  cases outer with
  | nil => simp at others
  | cons next outer =>
    have tail : b.stack.drop 1 = (next :: outer).map Frame.element := by rw [opened]; rfl
    have rooted := tidy.rooted
    rw [opened, List.map_cons, List.getLast?_cons_cons] at rooted
    refine ⟨next.take top :: outer, ⟨{ tidy.toTracks with
      chain := tidy.chain.take, listed := ?_, rooted := ?_, formatting := ?_ }, tail, ?_, current, ?_, links⟩,
      writtenIn_take top next outer⟩
    · rw [tail]
      exact .refl _
    · rw [tail]
      exact rooted
    · exact fun entry member => tidy.formatting entry (fewer.subset member)
    · rw [tail]
      exact others
    · exact fun entry member => tidy.formats entry (fewer.subset member)

/-- The innermost element is closed, which is not noted as formatting. -/
theorem Tidy.pop (tidy : b.Tidy frames (name :: path))
    (apart : ∀ element rest, b.stack = element :: rest → element ∉ b.formatting.map FormattingEntry.opened) :
    ∃ after, b.pop.Tidy after path ∧ writtenIn after = writtenIn frames ++ [.endTag name] := by
  obtain ⟨top, outer, rfl, opened⟩ := tidy.exists_top
  refine tidy.close (.refl _) ?_ fun element member => tidy.links element (List.mem_of_mem_drop member)
  have current := tidy.current
  rw [opened, List.sublist_cons_iff] at current
  rcases current with within | ⟨rest, same, -⟩
  · rw [opened]
    exact within
  · exact absurd (same ▸ List.mem_cons_self) (apart _ _ opened)

/-- Where the formatting element that was noted last is innermost, ending it closes it. -/
theorem adopt_innermost {element : OpenElement} {rest : List OpenElement} {known : Tag} {entries : List FormattingEntry}
    {rounds : Nat} (opened : b.stack = element :: rest)
    (formatting : b.formatting = .element element.number known :: entries) (named : known.name = name) :
    adopt name (rounds + 1) b = Builder.forget { b with stack := rest } element.number := by
  have recent : b.recentFormatting = .element element.number known :: entries.takeWhile FormattingEntry.isElement := by
    rw [recentFormatting, formatting]
    rfl
  have open_ : b.isOpen element.number = true := by simp [isOpen, opened]
  have reached : reaches (fun other => other.number == element.number) scopeNames b.stack = true := by
    simp [opened, reaches]
  have within : b.stack.takeWhile (fun other => !(other.number == element.number)) = [] := by simp [opened]
  have outside : (b.stack.dropWhile fun other => !(other.number == element.number)).drop 1 = rest := by simp [opened]
  rw [adopt, recent, List.findSome?_cons]
  simp only [named, if_true, open_, Bool.not_true, Bool.false_eq_true, if_false, reached, within, outside]
  rfl

/-- A formatting element is closed by its end tag. -/
theorem Tidy.endFormatting (tidy : b.Tidy frames (name :: path)) : ∃ after, (b.endFormatting name).Tidy after path ∧
    writtenIn after = writtenIn frames ++ [.endTag name] := by
  obtain ⟨top, outer, rfl, opened⟩ := tidy.exists_top
  have named := tidy.named
  rw [opened, List.map_cons, List.cons_append] at named
  obtain ⟨rfl, -⟩ := List.cons.inj named
  have numbers := tidy.chain.nodup_numbers
  rw [← tidy.whole, opened, List.map_cons, List.nodup_cons] at numbers
  have apart {element : OpenElement} (inside : element ∈ outer.map Frame.element) : element.number ≠ top.number := by
    intro same
    have listed := List.mem_map_of_mem (f := OpenElement.number) inside
    rw [same] at listed
    exact numbers.1 listed
  have current := tidy.current
  rw [opened, List.sublist_cons_iff] at current
  rcases current with within | ⟨rest, same, within⟩
  · -- the innermost element is not noted as formatting
    have stray : b.formatting.any (FormattingEntry.isNumber top.number) = false := by
      rw [List.any_eq_false]
      intro entry member noted
      have inside := within.subset (List.mem_map_of_mem member)
      cases entry with
      | marker => simp [FormattingEntry.isNumber] at noted
      | element number known => exact apart inside (beq_iff_eq.mp noted)
    have popped : b.endFormatting top.element.name = b.pop := by
      simp [Builder.endFormatting, opened, Frame.element, stray]
    rw [popped]
    refine tidy.pop fun element rest opened_ noted => ?_
    rw [opened] at opened_
    obtain ⟨rfl, -⟩ := List.cons.inj opened_
    exact apart (within.subset noted) rfl
  · -- the innermost element is the formatting element that was noted last
    obtain ⟨entry, entries, formatting, entrySame, rfl⟩ := List.map_eq_cons_iff.mp same
    have kept := tidy.formatting entry (by simp [formatting])
    cases entry with
    | marker => exact absurd kept id
    | element number known =>
      obtain rfl : number = top.number := congrArg OpenElement.number entrySame
      have knownName : known.name = top.element.name := congrArg OpenElement.name entrySame
      have ended : b.endFormatting top.element.name =
          Builder.forget { b with stack := b.stack.drop 1 } top.number := by
        have listed : b.formatting.any (FormattingEntry.isNumber top.number) = true := by
          simp [formatting, FormattingEntry.isNumber]
        have stays : (top.element.name == top.element.name && !b.formatting.any
            (FormattingEntry.isNumber top.element.number)) = false := by simp [listed, Frame.element]
        simp only [Builder.endFormatting, opened, stays, Bool.false_eq_true, if_false]
        exact adopt_innermost opened formatting knownName
      rw [ended]
      refine tidy.close List.filter_sublist ?_ fun element member link => ?_
      · rw [formatting, opened]
        have first : (FormattingEntry.element top.number known :: entries).filter
            (fun entry => !entry.isNumber top.number) = entries.filter fun entry => !entry.isNumber top.number := by
          simp [FormattingEntry.isNumber]
        rw [first]
        exact (List.filter_sublist.map _).trans within
      · rw [opened] at member
        obtain ⟨noted, listed, rfl⟩ := List.mem_map.mp (tidy.links element (List.mem_of_mem_drop (opened ▸ member)) link)
        refine List.mem_map_of_mem (List.mem_filter.mpr ⟨listed, ?_⟩)
        cases noted with
        | marker => rfl
        | element number other =>
          have different : number ≠ top.number := apart member
          simpa [FormattingEntry.isNumber] using different

/-- An element that is innermost is closed with nothing in it. -/
theorem closeThrough_eq {fits : OpenElement → Bool} {implied : List Text} {element : OpenElement}
    {rest : List OpenElement} (opened : b.stack = element :: rest) (fit : fits element = true)
    (apart : implied.contains element.name = false) : (b.endImplied implied).popThrough fits = b.pop := by
  have kept : (element :: rest).dropWhile (fun element => implied.contains element.name) = element :: rest := by
    rw [List.dropWhile_cons, apart]
    rfl
  have found : (element :: rest).dropWhile (fun element => !fits element) = element :: rest := by
    rw [List.dropWhile_cons, fit]
    rfl
  rw [endImplied, popThrough, Builder.pop, opened, kept, found]

/-- The innermost element is in scope. -/
theorem reaches_cons {fits : OpenElement → Bool} {element : OpenElement} {rest : List OpenElement}
    (fit : fits element = true) (stops : List Text) : reaches fits stops (element :: rest) = true := by
  rw [reaches, if_pos fit]

/-- The end tag of the innermost element closes it. -/
theorem Tidy.accept_endTag (tidy : b.Tidy frames (name :: path)) : ∃ later after,
    b.accept (.endTag name) = (later, none) ∧ later.Tidy after path ∧
      writtenIn after = writtenIn frames ++ [.endTag name] := by
  obtain ⟨front, opened, named, -, known⟩ := tidy.exists_front
  obtain ⟨element, rest, rfl, rfl, -⟩ := List.map_eq_cons_iff.mp named
  obtain ⟨full, own, allowed⟩ := known element List.mem_cons_self
  have dealt (later : Builder) (same : b.endInBody element.name = later.finished) :
      b.accept (.endTag element.name) = (later, none) := tidy.accept_eq (by simp) same
  have innermost : (fun other : OpenElement => other.name == element.name) element = true := beq_self_eq_true _
  have closed (implied : List Text) (apart : implied.contains element.name = false) :
      (b.endImplied implied).popNamed element.name = b.pop := closeThrough_eq opened innermost apart
  have found (stops : List Text) : reaches (fun other => other.name == element.name) stops b.stack = true := by
    rw [opened]
    exact reaches_cons innermost stops
  have inScope (stops : List Text) : b.inScope stops element.name = true := found stops
  have excepted : (impliedEndNames.filter (· != element.name)).contains element.name = false := by simp
  have popped (format : endKind element.name ≠ .formatting) :
      ∃ after, b.pop.Tidy after path ∧ writtenIn after = writtenIn frames ++ [.endTag element.name] := by
    refine tidy.pop fun current others opened_ noted => ?_
    rw [opened, List.cons_append] at opened_
    obtain ⟨rfl, -⟩ := List.cons.inj opened_
    obtain ⟨entry, listed, same⟩ := List.mem_map.mp noted
    exact format (same ▸ tidy.formats entry listed)
  rcases endKind_of_allowed full allowed with ⟨kind, apart⟩ | ⟨kind, same⟩ | kind | ⟨kind, heading⟩ | kind | kind
  · obtain ⟨after, tidy_⟩ := popped (by simp [kind])
    refine ⟨_, after, dealt b.pop ?_, tidy_⟩
    simp only [endInBody, kind, endBlock, inScope, if_true]
    rw [closed impliedEndNames (by simpa using apart)]
  · obtain ⟨after, tidy_⟩ := popped (by simp [kind])
    refine ⟨_, after, dealt b.pop ?_, tidy_⟩
    simp only [endInBody, kind, inScope, if_true, closeParagraph, endImpliedExcept]
    rw [← same, closed _ excepted]
  · obtain ⟨after, tidy_⟩ := popped (by simp [kind])
    refine ⟨_, after, dealt b.pop ?_, tidy_⟩
    simp only [endInBody, kind, endItem, inScope, if_true, endImpliedExcept]
    rw [closed _ excepted]
  · obtain ⟨after, tidy_⟩ := popped (by simp [kind])
    refine ⟨_, after, dealt b.pop ?_, tidy_⟩
    have fit : (fun other : OpenElement => headingNames.contains other.name) element = true := by simpa using heading
    have reached : b.anyInScope scopeNames headingNames = true := by
      rw [anyInScope, opened]
      exact reaches_cons fit scopeNames
    have checked : ∀ name ∈ headingNames, impliedEndNames.contains name = false := by decide
    simp only [endInBody, kind, reached, if_true]
    rw [closeThrough_eq opened fit (checked _ heading)]
  · obtain ⟨after, tidy_⟩ := tidy.endFormatting
    refine ⟨_, after, dealt _ ?_, tidy_⟩
    simp only [endInBody, kind]
  · obtain ⟨after, tidy_⟩ := popped (by simp [kind])
    refine ⟨_, after, dealt b.pop ?_, tidy_⟩
    simp only [endInBody, kind, endOrdinary, found, if_true, endImpliedExcept]
    rw [closed _ excepted]

/-- A character is put where it stands. -/
theorem Tidy.accept_char (tidy : b.Tidy frames path) (c : Char) : ∃ later after,
    b.accept (.char c) = (later, none) ∧ later.Tidy after path ∧ writtenIn after = writtenIn frames ++ [.char c] := by
  obtain ⟨after, put⟩ := tidy.insertChar c
  have dealt : b.inBody (.char c) = (b.insertChar c).finished := by rw [Builder.inBody, tidy.resumeFormatting_eq]
  exact ⟨_, after, tidy.accept_eq (by simp) dealt, put⟩

/-- At the start nothing stands in the root. -/
theorem tidy_initial : initial.Tidy [⟨0, ⟨rootName, []⟩, [], [], []⟩] [] where
  toTracks := tracks_initial
  whole := rfl
  named := rfl
  current := List.nil_sublist _
  formats := by simp [initial]
  links := by simp [initial, rootName]

end Builder

end
end MapEmbed.Html
