import MapEmbed.Proofs.Html.Growth

/-!
# How the builder gets on

In a body the builder follows the frames of its forest: the open elements are among them. What it does to the open
elements and to the list of formatting elements leaves the tree as it is; what it puts into the innermost element
comes at the end of the text, after the end tags of what was closed meanwhile. So with every token the text grows by
what the token weighs, or, where formatting is resumed, by more.
-/

namespace MapEmbed.Html

/-- What a token adds to a tree: an element counts twice, because it can have two tags. -/
def Token.weight : Token → Nat
  | .startTag _ => 2
  | .char _ => 1
  | _ => 0

/-- What tokens in a row add to a tree. -/
def weigh : List Token → Nat
  | [] => 0
  | token :: rest => token.weight + weigh rest

/-- Of a text came another, with so much added at its end; or there is more in it than that, by an element at least. -/
def Grows (amount : Nat) (old new : List Token) : Prop :=
  weigh new = weigh old + amount ∧ old <+: new ∨ weigh old + amount + 2 ≤ weigh new

/-- The root as an open element. -/
def rootElement : OpenElement := ⟨0, Builder.rootName⟩

/-- A formatting element that can be made anew. -/
def FormattingEntry.Kept : FormattingEntry → Prop
  | .marker => False
  | .element number tag => number ≠ 0 ∧ KeptTag tag ∧ tag.name ∉ voidElements

/-- The builder is in a body, and its open elements are among the frames. -/
structure Builder.Tracks (b : Builder) (frames : List Frame) : Prop where
  chain : b.forest.Chain frames
  listed : b.stack.Sublist (frames.map Frame.element)
  rooted : b.stack.getLast? = some rootElement
  inBody : b.mode = .inBody
  settled : b.fostering = false
  ready : b.dropsLineFeed = false
  formatting : ∀ entry ∈ b.formatting, entry.Kept

/-- However a builder got where it is, it gets on by so much to another. -/
def Builder.Advances (b : Builder) (amount : Nat) (later : Builder) : Prop :=
  ∀ frames, b.Tracks frames → ∃ after, later.Tracks after ∧ Grows amount (writtenIn frames) (writtenIn after)

section
variable {old middle new more : List Token} {amount other : Nat} {b later last : Builder} {frames : List Frame}
  {stack open_ : List OpenElement} {formatting : List FormattingEntry} {tag : Tag} {name : Text} {top : Frame}
  {outer : List Frame}

/-! ### Weights -/

/-- Tokens in a row add up. -/
theorem weigh_append (front back : List Token) : weigh (front ++ back) = weigh front + weigh back := by
  induction front with
  | nil => exact (Nat.zero_add _).symm
  | cons token rest inductionHypothesis => rw [List.cons_append, weigh, weigh, inductionHypothesis, Nat.add_assoc]

/-- End tags add nothing. -/
theorem weigh_endTags (closed : List OpenElement) : weigh (closed.map fun element => .endTag element.name) = 0 := by
  induction closed with
  | nil => rfl
  | cons element rest inductionHypothesis => exact (Nat.zero_add _).trans inductionHypothesis

/-- Something at the end of a text. -/
theorem grows_append (old : List Token) (weight : weigh more = amount) : Grows amount old (old ++ more) :=
  Or.inl ⟨by rw [weigh_append, weight], List.prefix_append old more⟩

/-- A text is what came of it without anything added. -/
theorem Grows.refl (old : List Token) : Grows 0 old old :=
  Or.inl ⟨rfl, List.prefix_refl old⟩

/-- What is added in two steps is added up. -/
theorem Grows.trans (first : Grows amount old middle) (second : Grows other middle new) :
    Grows (amount + other) old new := by
  rcases first with ⟨weight, starts⟩ | much
  · rcases second with ⟨weight', starts'⟩ | much
    · exact Or.inl ⟨by omega, starts.trans starts'⟩
    · exact Or.inr (by omega)
  · rcases second with ⟨weight', -⟩ | more
    · exact Or.inr (by omega)
    · exact Or.inr (by omega)

/-- An element more than expected is more. -/
theorem Grows.weaken (grows : Grows (amount + other) old new) (element : 2 ≤ other) : Grows amount old new := by
  rcases grows with ⟨weight, -⟩ | much
  · exact Or.inr (by omega)
  · exact Or.inr (by omega)

namespace Builder

/-- A builder gets on in two steps. -/
theorem Advances.trans (first : b.Advances amount later) (second : later.Advances other last) :
    b.Advances (amount + other) last := by
  intro frames tracks
  obtain ⟨between, tracks, grows⟩ := first frames tracks
  obtain ⟨after, tracks, further⟩ := second between tracks
  exact ⟨after, tracks, grows.trans further⟩

/-- A builder stays where it is. -/
theorem Advances.refl (b : Builder) : b.Advances 0 b :=
  fun frames tracks => ⟨frames, tracks, .refl _⟩

/-- An element more than expected is more. -/
theorem Advances.weaken (advances : b.Advances (amount + other) later) (element : 2 ≤ other) : b.Advances amount later := by
  intro frames tracks
  obtain ⟨after, tracks, grows⟩ := advances frames tracks
  exact ⟨after, tracks, grows.weaken element⟩

/-- A step of two kinds. -/
theorem advances_ite {condition : Prop} [Decidable condition] (yes : condition → b.Advances amount later)
    (no : ¬condition → b.Advances amount last) : b.Advances amount (if condition then later else last) := by
  split
  · exact yes ‹_›
  · exact no ‹_›

/-! ### Leaving elements open or not -/

/-- Fewer elements are open. -/
theorem Tracks.restack (tracks : b.Tracks frames) (fewer : stack.Sublist b.stack)
    (rooted : stack.getLast? = some rootElement) : Tracks { b with stack } frames :=
  { tracks with listed := fewer.trans tracks.listed, rooted }

/-- Other formatting elements can be made anew. -/
theorem Tracks.reformat (tracks : b.Tracks frames) (kept : ∀ entry ∈ formatting, entry.Kept) :
    Tracks { b with formatting } frames :=
  { tracks with formatting := kept }

/-- An element for which a search stops is not searched. -/
theorem mem_dropWhile {passed : OpenElement → Bool} {element : OpenElement} (member : element ∈ stack)
    (stops : passed element = false) : element ∈ stack.dropWhile passed := by
  induction stack with
  | nil => simp at member
  | cons first rest inductionHypothesis =>
    rw [List.dropWhile_cons]
    split
    · rename_i passes
      rcases List.mem_cons.mp member with rfl | further
      · simp [stops] at passes
      · exact inductionHypothesis further
    · exact member

/-- A row that ends in a row ends in the same element, unless it is empty. -/
theorem getLast?_of_suffix {part : List OpenElement} (ends : part <:+ stack) (some_ : part ≠ []) :
    part.getLast? = stack.getLast? := by
  obtain ⟨front, rfl⟩ := ends
  rw [List.getLast?_append, List.getLast?_eq_some_getLast some_, Option.some_or]

/-- The root stays open where elements are closed that are not the root. -/
theorem rooted_dropWhile {passed : OpenElement → Bool} (rooted : stack.getLast? = some rootElement)
    (stops : passed rootElement = false) : (stack.dropWhile passed).getLast? = some rootElement := by
  rw [← rooted]
  exact getLast?_of_suffix (List.dropWhile_suffix _)
    (List.ne_nil_of_mem (mem_dropWhile (List.mem_of_getLast? rooted) stops))

/-- The root stays open where another element is closed with all in it. -/
theorem rooted_drop_dropWhile {fits : OpenElement → Bool} {element : OpenElement}
    (rooted : stack.getLast? = some rootElement) (member : element ∈ stack) (fit : fits element = true)
    (stops : fits rootElement = false) :
    ((stack.dropWhile fun element => !fits element).drop 1).getLast? = some rootElement := by
  have found : element ∈ stack.dropWhile fun element => !fits element := mem_dropWhile member (by simp [fit])
  have first := List.head?_dropWhile_not (fun element => !fits element) stack
  have last := getLast?_of_suffix (List.dropWhile_suffix _) (List.ne_nil_of_mem found)
  cases reached : stack.dropWhile fun element => !fits element with
  | nil => simp [reached] at found
  | cons innermost rest =>
    rw [reached] at first last
    cases rest with
    | nil =>
      -- the root would be the one that fits
      obtain rfl : innermost = rootElement := by simpa [rooted] using last
      simp [stops] at first
    | cons outer others => simpa [rooted] using last

/-- A search through the open elements finds one that fits. -/
theorem exists_of_reaches {fits : OpenElement → Bool} {stops : List Text} (found : reaches fits stops stack = true) :
    ∃ element ∈ stack, fits element = true := by
  induction stack with
  | nil => simp [reaches] at found
  | cons first rest inductionHypothesis =>
    rw [reaches] at found
    split at found
    · exact ⟨first, List.mem_cons_self, ‹_›⟩
    · split at found
      · simp at found
      · obtain ⟨element, member, fit⟩ := inductionHypothesis found
        exact ⟨element, List.mem_cons_of_mem _ member, fit⟩

/-- An element is closed that has the open elements in it that end by themselves. -/
theorem Tracks.closeThrough (tracks : b.Tracks frames) {fits : OpenElement → Bool} {implied : List Text}
    (found : ∃ element ∈ b.stack, fits element = true) (inside : fits rootElement = false)
    (apart : ∀ element, fits element = true → implied.contains element.name = false)
    (root : implied.contains rootName = false) : ((b.endImplied implied).popThrough fits).Tracks frames := by
  obtain ⟨element, member, fit⟩ := found
  refine tracks.restack ?_ ?_
  · exact (List.drop_sublist 1 _).trans ((List.dropWhile_sublist _).trans (List.dropWhile_sublist _))
  · exact rooted_drop_dropWhile (rooted_dropWhile tracks.rooted root) (mem_dropWhile member (apart element fit)) fit inside

/-- The innermost element is closed, if it is not the root. -/
theorem Tracks.pop (tracks : b.Tracks frames) {current : OpenElement} (opened : b.stack = current :: open_)
    (inner : current ≠ rootElement) : b.pop.Tracks frames := by
  refine tracks.restack (List.drop_sublist 1 _) ?_
  have last := tracks.rooted
  rw [opened] at last ⊢
  cases open_ with
  | nil => exact absurd (by simpa using last) inner
  | cons second others => simpa using last

/-- What leaves the frames as they are adds nothing. -/
theorem advances_of_tracks (tracks : ∀ frames, b.Tracks frames → later.Tracks frames) : b.Advances 0 later :=
  fun frames tracked => ⟨frames, tracks frames tracked, .refl _⟩

/-- The innermost paragraph is closed. -/
theorem Tracks.closeParagraph (tracks : b.Tracks frames) (found : b.inScope buttonScopeNames "p".toList = true) :
    b.closeParagraph.Tracks frames := by
  refine tracks.closeThrough (exists_of_reaches found) (by decide) (fun element fit => ?_) (by decide)
  rw [beq_iff_eq.mp fit]
  decide

/-- A paragraph is closed. -/
theorem advances_closeParagraphInScope : b.Advances 0 b.closeParagraphInScope :=
  advances_ite (fun found => advances_of_tracks fun _ tracks => tracks.closeParagraph found) fun _ => .refl b

/-! ### Putting something into the innermost element -/

/-- What follows the first of a row in a longer row follows it there. -/
theorem sublist_of_append {first : OpenElement} {part front back : List OpenElement} (apart : first ∉ front)
    (within : (first :: part).Sublist (front ++ back)) : (first :: part).Sublist back := by
  induction front with
  | nil => exact within
  | cons other rest inductionHypothesis =>
    rw [List.mem_cons, not_or] at apart
    rw [List.cons_append, List.sublist_cons_iff] at within
    rcases within with within | ⟨others, same, -⟩
    · exact inductionHypothesis apart.2 within
    · exact absurd (List.cons.inj same).1 apart.1

/-- The innermost open element is the innermost frame once those inside it are closed. -/
theorem Tracks.front (tracks : b.Tracks frames) : ∃ top outer open_ closed, b.stack = top.element :: open_ ∧
    b.Tracks (top :: outer) ∧ frames.map Frame.element = closed ++ (top :: outer).map Frame.element ∧
    writtenIn (top :: outer) = writtenIn frames ++ closed.map fun element => .endTag element.name := by
  cases opened : b.stack with
  | nil => simpa [opened] using tracks.rooted
  | cons innermost open_ =>
    have listed := tracks.listed
    rw [opened] at listed
    have member := listed.subset List.mem_cons_self
    cases frames with
    | nil => simp at member
    | cons frame rest =>
      obtain ⟨closed, top, outer, chain, rfl, split, -, written⟩ := tracks.chain.closeTo member
      have apart : top.element ∉ closed := by
        have distinct := tracks.chain.nodup_elements
        rw [split, List.nodup_append] at distinct
        exact fun inside => distinct.2.2 _ inside _ List.mem_cons_self rfl
      rw [split] at listed
      exact ⟨top, outer, open_, closed, rfl,
        { tracks with chain, listed := opened ▸ sublist_of_append apart listed }, split, written⟩

/-- A new node comes last in the innermost element. -/
theorem Tracks.place_eq (tracks : b.Tracks frames) (opened : b.stack = top.element :: open_) :
    b.place = .lastIn top.number := by
  simp [place, placeIn, opened, tracks.settled, Frame.element]

/-- A character is put into the innermost element. -/
theorem Tracks.insertChar (tracks : b.Tracks (top :: outer)) (opened : b.stack = top.element :: open_) (c : Char) :
    (b.insertChar c).Tracks (top.add (.char c) [.char c] [] :: outer) := by
  have same : b.insertChar c = { b with forest := b.forest.insert (.lastIn top.number) (.char c) } := by
    rw [Builder.insertChar, insertChild, tracks.place_eq opened]
  rw [same]
  exact { tracks with chain := tracks.chain.insertChar c }

/-- A new element is put into the innermost one. -/
theorem Tracks.openTag_eq (tracks : b.Tracks frames) (opened : b.stack = top.element :: open_) (tag : Tag) :
    b.openTag tag =
      { b with
        forest := (b.forest.create tag.name tag.attributes).2.insert (.lastIn top.number)
          (.element b.forest.drafts.size)
        stack := ⟨b.forest.drafts.size, tag.name⟩ :: b.stack } := by
  rw [Builder.openTag, tracks.place_eq opened]
  rfl

/-- An element is opened in the innermost one. -/
theorem Tracks.openTag (tracks : b.Tracks (top :: outer)) (opened : b.stack = top.element :: open_) (kept : KeptTag tag)
    (full : tag.name ∉ voidElements) :
    (b.openTag tag).Tracks (⟨b.forest.drafts.size, tag, [], [], []⟩ :: top :: outer) ∧
      (b.openTag tag).stack = ⟨b.forest.drafts.size, tag.name⟩ :: b.stack ∧
      (b.openTag tag).formatting = b.formatting ∧ b.forest.drafts.size ≠ 0 := by
  rw [tracks.openTag_eq opened]
  refine ⟨{ tracks with chain := tracks.chain.openTag kept full, listed := tracks.listed.cons_cons _, rooted := ?_ },
    rfl, rfl, ?_⟩
  · rw [← tracks.rooted, opened, List.getLast?_cons_cons]
  · exact Nat.ne_zero_of_lt (tracks.chain.known top.number (number_mem_numbersIn List.mem_cons_self))

/-- An element without content is put into the innermost one. -/
theorem Tracks.insertVoid (tracks : b.Tracks (top :: outer)) (opened : b.stack = top.element :: open_)
    (kept : KeptTag tag) (bare : tag.name ∈ voidElements) :
    (b.insertVoid tag).Tracks
      (top.add (.element b.forest.drafts.size) [.startTag tag] [b.forest.drafts.size] :: outer) := by
  rw [Builder.insertVoid, tracks.openTag_eq opened]
  exact { tracks with chain := tracks.chain.insertVoid kept bare }

/-- What is put into the innermost element is put at the end of the text, but for end tags. -/
theorem Tracks.grows_front (tracks : b.Tracks frames)
    (put : ∀ top outer open_, b.Tracks (top :: outer) → b.stack = top.element :: open_ →
      ∃ after, later.Tracks after ∧ Grows amount (writtenIn (top :: outer)) (writtenIn after)) :
    ∃ after, later.Tracks after ∧ Grows amount (writtenIn frames) (writtenIn after) := by
  obtain ⟨top, outer, open_, closed, opened, front, -, written⟩ := tracks.front
  obtain ⟨after, tracks, grows⟩ := put top outer open_ front opened
  have ended := grows_append (writtenIn frames) (weigh_endTags closed)
  rw [← written] at ended
  exact ⟨after, tracks, (Nat.zero_add amount ▸ ended.trans grows)⟩

/-- The text grows by a character. -/
theorem advances_insertChar (c : Char) : b.Advances 1 (b.insertChar c) := by
  intro frames tracks
  refine tracks.grows_front fun top outer open_ front opened => ⟨_, front.insertChar opened c, ?_⟩
  rw [writtenIn_add]
  exact grows_append _ rfl

/-- The text grows by an element. -/
theorem advances_openTag (kept : KeptTag tag) (full : tag.name ∉ voidElements) : b.Advances 2 (b.openTag tag) := by
  intro frames tracks
  refine tracks.grows_front fun top outer open_ front opened => ?_
  obtain ⟨after, -, -, number⟩ := front.openTag opened kept full
  refine ⟨_, after, ?_⟩
  rw [writtenIn_new number]
  exact grows_append _ rfl

/-- The text grows by an element without content. -/
theorem advances_insertVoid (kept : KeptTag tag) (bare : tag.name ∈ voidElements) : b.Advances 2 (b.insertVoid tag) := by
  intro frames tracks
  refine tracks.grows_front fun top outer open_ front opened => ⟨_, front.insertVoid opened kept bare, ?_⟩
  rw [writtenIn_add]
  exact grows_append _ rfl

/-! ### Formatting elements -/

/-- A formatting element is forgotten. -/
theorem advances_forget (number : Nat) : b.Advances 0 (b.forget number) := by
  refine fun frames tracks => ⟨frames, tracks.reformat fun entry member => ?_, .refl _⟩
  exact tracks.formatting entry (List.mem_of_mem_filter member)

/-- An element other than the root is taken out of the open ones. -/
theorem advances_closeNumber {number : Nat} (inner : number ≠ 0) : b.Advances 0 (b.closeNumber number) := by
  refine fun frames tracks => ⟨frames, tracks.restack List.filter_sublist ?_, .refl _⟩
  obtain ⟨front, split⟩ := List.getLast?_eq_some_iff.mp tracks.rooted
  simp [split, rootElement, Ne.symm inner]

/-- A formatting element is opened and noted. -/
theorem advances_note (kept : KeptTag tag) (full : tag.name ∉ voidElements) :
    b.Advances 2 (match (b.openTag tag).stack with
      | [] => b.openTag tag
      | current :: _ => { b.openTag tag with
          formatting := .element current.number tag :: (b.openTag tag).formatting }) := by
  intro frames tracks
  refine tracks.grows_front fun top outer open_ front opened => ?_
  obtain ⟨after, stack, formatting, number⟩ := front.openTag opened kept full
  rw [stack]
  refine ⟨_, after.reformat (List.forall_mem_cons.mpr ⟨⟨number, kept, full⟩, after.formatting⟩), ?_⟩
  rw [writtenIn_new number]
  exact grows_append _ rfl

/-- Formatting elements are opened again. -/
theorem advances_reopen {entries : List FormattingEntry} (kept : ∀ entry ∈ entries, entry.Kept) :
    b.Advances (2 * entries.length) (b.reopen entries) := by
  induction entries with
  | nil => exact .refl b
  | cons entry later inductionHypothesis =>
    have resumed := inductionHypothesis fun other member => kept other (List.mem_cons_of_mem _ member)
    cases entry with
    | marker => exact absurd (kept .marker List.mem_cons_self) id
    | element number tag =>
      obtain ⟨-, kept, full⟩ := kept (.element number tag) List.mem_cons_self
      exact resumed.trans (advances_note kept full)

/-- Formatting is resumed: the text grows only if there is formatting that is no longer open. -/
theorem advances_resumeFormatting : b.Advances 0 b.resumeFormatting := by
  intro frames tracks
  have among {entries : List FormattingEntry} (part : entries.Sublist b.formatting) : ∀ entry ∈ entries, entry.Kept :=
    fun entry member => tracks.formatting entry (part.subset member)
  rw [resumeFormatting]
  have closed := among (List.takeWhile_sublist fun entry => !b.settled entry)
  obtain ⟨after, tracks, grows⟩ := advances_reopen closed frames (tracks.reformat (among (List.drop_sublist _ _)))
  refine ⟨after, tracks, ?_⟩
  cases resumed : b.formatting.takeWhile fun entry => !b.settled entry with
  | nil =>
    rw [resumed] at grows
    exact grows
  | cons entry later =>
    rw [resumed, ← Nat.zero_add (2 * _)] at grows
    exact grows.weaken (by rw [List.length_cons]; omega)

/-- The oldest of three formatting elements is forgotten. -/
theorem advances_limitFormatting (tag : Tag) : b.Advances 0 (b.limitFormatting tag) := by
  refine advances_ite (fun _ frames tracks => ⟨frames, tracks.reformat fun entry member => ?_, .refl _⟩) fun _ => .refl b
  apply tracks.formatting
  rcases List.mem_append.mp member with recent | earlier
  · have kept := List.mem_of_mem_eraseP (List.mem_reverse.mp recent)
    exact (List.takeWhile_sublist _).subset (List.mem_reverse.mp kept)
  · exact List.mem_of_mem_drop earlier

/-- A formatting element is opened. -/
theorem advances_openFormatting (kept : KeptTag tag) (full : tag.name ∉ voidElements) :
    b.Advances 2 (b.openFormatting tag) :=
  (advances_limitFormatting tag).trans (advances_note kept full)

end Builder

end
end MapEmbed.Html
