import MapEmbed.Proofs.Html.Adopting

/-!
# Clean markup in a body

Each token of clean markup is dealt with in the body at once, and none changes what the following characters mean. So
a fragment of clean markup is read by its tokens alone, and what is made of it has at least as much in it as the tokens:
nothing that is read gets lost.
-/

namespace MapEmbed.Html

/-- A token that is written for a node: a tag of an element that is kept, or a character. -/
def Token.Kept : Token → Prop
  | .startTag tag => KeptTag tag
  | .endTag name => name ∉ voidElements ∧ ∃ own, ownAttributes? name = some own
  | .char _ => True
  | _ => False

section
variable {names : ReferenceTable} {name : Text} {own : List Text} {tag : Tag} {token : Token} {b : Builder}
  {frames : List Frame}

/-! ### Allowed elements -/

/-- The root is not an element that authors may write. -/
theorem ne_rootName_of_allowed (allowed : ownAttributes? name = some own) : name ≠ Builder.rootName := by
  have checked : ∀ entry ∈ allowedElements, entry.1 ≠ Builder.rootName := by decide
  exact checked _ (Entries.mem_of_lookup allowed)

/-- The start tags of allowed elements are of seven kinds. -/
theorem startKind_of_allowed (allowed : ownAttributes? name = some own) :
    startKind name = .void ∧ name ∈ voidElements ∨ name ∉ voidElements ∧
      (startKind name = .block ∨ startKind name = .heading ∨ startKind name = .listItem ∨ startKind name = .anchor ∨
        startKind name = .formatting ∨ startKind name = .ordinary) := by
  have checked : ∀ entry ∈ allowedElements, startKind entry.1 = .void ∧ entry.1 ∈ voidElements ∨
      entry.1 ∉ voidElements ∧ (startKind entry.1 = .block ∨ startKind entry.1 = .heading ∨
        startKind entry.1 = .listItem ∨ startKind entry.1 = .anchor ∨ startKind entry.1 = .formatting ∨
        startKind entry.1 = .ordinary) := by decide
  exact checked _ (Entries.mem_of_lookup allowed)

/-- The end tags of allowed elements are of six kinds. -/
theorem endKind_of_allowed (full : name ∉ voidElements) (allowed : ownAttributes? name = some own) :
    endKind name = .block ∧ name ∉ impliedEndNames ∨ endKind name = .paragraph ∧ name = "p".toList ∨
      endKind name = .listItem ∨ endKind name = .heading ∧ name ∈ headingNames ∨ endKind name = .formatting ∨
      endKind name = .ordinary := by
  have checked : ∀ entry ∈ allowedElements, entry.1 ∉ voidElements →
      endKind entry.1 = .block ∧ entry.1 ∉ impliedEndNames ∨ endKind entry.1 = .paragraph ∧ entry.1 = "p".toList ∨
        endKind entry.1 = .listItem ∨ endKind entry.1 = .heading ∧ entry.1 ∈ headingNames ∨
        endKind entry.1 = .formatting ∨ endKind entry.1 = .ordinary := by decide
  exact checked _ (Entries.mem_of_lookup allowed) full

namespace Builder

/-! ### Start tags -/

/-- An element is closed that is open, with all that is open in it. -/
theorem Tracks.closeNamed (tracks : b.Tracks frames) {element : OpenElement} (member : element ∈ b.stack)
    (inner : element.name ≠ rootName) : ((b.endImpliedExcept element.name).popNamed element.name).Tracks frames := by
  refine tracks.closeThrough ⟨element, member, beq_self_eq_true _⟩ ?_ (fun other fit => ?_) ?_
  · simpa [rootElement] using Ne.symm inner
  · simp [beq_iff_eq.mp fit]
  · have checked : rootName ∉ impliedEndNames := by decide
    simp [checked]

/-- Closing an element that is open adds nothing. -/
theorem advances_closeNamed {element : OpenElement} (member : element ∈ b.stack) (inner : element.name ≠ rootName) :
    b.Advances 0 ((b.endImpliedExcept element.name).popNamed element.name) :=
  advances_of_tracks fun _ tracks => tracks.closeNamed member inner

/-- An item of a list is opened, after the item before it is closed. -/
theorem advances_startItem (kept : KeptTag tag) (full : tag.name ∉ voidElements) :
    ∃ later, b.startItem [tag.name] tag = later.finished ∧ b.Advances 2 later := by
  obtain ⟨own, allowed, -⟩ := id kept
  refine ⟨_, rfl, Advances.trans ?_ (advances_closeParagraphInScope.trans (advances_openTag kept full))⟩
  split
  · rename_i element found
    refine advances_ite (fun item => ?_) fun _ => .refl b
    obtain same : element.name = tag.name := by simpa using item
    exact advances_closeNamed (List.mem_of_find?_eq_some found) (same ▸ ne_rootName_of_allowed allowed)
  · exact .refl b

/-- A heading is opened, after a heading around it is closed. -/
theorem advances_startHeading (kept : KeptTag tag) (full : tag.name ∉ voidElements) (outer : Builder) :
    outer.Advances 2 ((if outer.currentIn headingNames then outer.pop else outer).openTag tag) := by
  refine Advances.trans (advances_ite (fun heading => ?_) fun _ => .refl outer) (advances_openTag kept full)
  rw [currentIn] at heading
  split at heading
  · simp at heading
  · rename_i current rest opened
    refine advances_of_tracks fun _ tracks => tracks.pop opened ?_
    rintro rfl
    exact absurd heading (by decide)

/-- A link is opened, after a link around it is closed. -/
theorem advances_startAnchor (kept : KeptTag tag) (full : tag.name ∉ voidElements) (open? : Option Nat)
    (known : ∀ frames, b.Tracks frames → ∀ number, open? = some number → number ≠ 0) :
    b.Advances 2 ((match open? with
      | none => b
      | some number => ((b.endFormatting tag.name).forget number).closeNumber number).resumeFormatting.openFormatting
        tag) := by
  obtain ⟨own, allowed, -⟩ := id kept
  refine Advances.trans ?_ (advances_resumeFormatting.trans (advances_openFormatting kept full))
  cases open? with
  | none => exact .refl b
  | some number =>
    intro frames tracks
    have ended := advances_endFormatting (b := b) (ne_rootName_of_allowed allowed)
    have forgotten := ended.trans (advances_forget number)
    exact forgotten.trans (advances_closeNumber (known frames tracks number rfl)) frames tracks

/-- The start tag of an allowed element brings the builder on by that element. -/
theorem advances_startInBody (kept : KeptTag tag) : ∃ later, b.startInBody tag = later.finished ∧ b.Advances 2 later := by
  obtain ⟨own, allowed, -⟩ := id kept
  rw [startInBody]
  rcases startKind_of_allowed allowed with ⟨kind, bare⟩ | ⟨full, kind | kind | kind | kind | kind | kind⟩
  · rw [kind]
    exact ⟨_, rfl, advances_resumeFormatting.trans (advances_insertVoid kept bare)⟩
  · rw [kind]
    exact ⟨_, rfl, advances_closeParagraphInScope.trans (advances_openTag kept full)⟩
  · rw [kind]
    exact ⟨_, rfl, advances_closeParagraphInScope.trans (advances_startHeading kept full _)⟩
  · rw [kind]
    exact advances_startItem kept full
  · rw [kind]
    refine ⟨_, rfl, advances_startAnchor kept full _ fun frames tracks number found => ?_⟩
    obtain ⟨entry, member, same⟩ := List.exists_of_findSome?_eq_some found
    have here := tracks.formatting entry ((List.takeWhile_sublist _).subset member)
    cases entry with
    | marker => exact absurd here id
    | element other known =>
      simp only [Option.ite_none_right_eq_some, Option.some.injEq] at same
      exact same.2 ▸ here.1
  · rw [kind]
    exact ⟨_, rfl, advances_resumeFormatting.trans (advances_openFormatting kept full)⟩
  · rw [kind]
    exact ⟨_, rfl, advances_resumeFormatting.trans (advances_openTag kept full)⟩

/-! ### End tags -/

/-- A block is closed with what ends by itself in it. -/
theorem advances_endBlock (stops : List Text) (inner : name ≠ rootName) (apart : name ∉ impliedEndNames) :
    b.Advances 0 (b.endBlock stops name) := by
  refine advances_ite (fun found => ?_) fun _ => .refl b
  refine advances_of_tracks fun _ tracks =>
    tracks.closeThrough (exists_of_reaches found) ?_ (fun element fit => ?_) (by decide)
  · simpa [rootElement] using Ne.symm inner
  · simpa [beq_iff_eq.mp fit] using apart

/-- An item is closed. -/
theorem advances_endItem (stops : List Text) (inner : name ≠ rootName) : b.Advances 0 (b.endItem stops name) := by
  refine advances_ite (fun found => ?_) fun _ => .refl b
  obtain ⟨element, member, fit⟩ := exists_of_reaches found
  obtain rfl : element.name = name := beq_iff_eq.mp fit
  exact advances_closeNamed member inner

/-- A paragraph is closed, which is opened before if there is none. -/
theorem advances_endParagraph : b.Advances 0
    (if b.inScope buttonScopeNames "p".toList then b else b.openNamed "p").closeParagraph := by
  split
  · rename_i found
    obtain ⟨element, member, fit⟩ := exists_of_reaches found
    have closed := advances_closeNamed member (by rw [beq_iff_eq.mp fit]; decide)
    rwa [beq_iff_eq.mp fit] at closed
  · have kept : KeptTag ⟨"p".toList, []⟩ := ⟨[], by decide, rfl⟩
    have inner : "p".toList ≠ rootName := by decide
    have opened := advances_openTag (b := b) kept (by decide)
    have closed := @advances_closeNamed (b.openNamed "p") ⟨b.forest.drafts.size, "p".toList⟩
      List.mem_cons_self inner
    exact @Advances.weaken 0 2 _ _ (opened.trans closed) (Nat.le_refl 2)

/-- A heading is closed, whichever it is. -/
theorem advances_endHeading : ∃ later, (if b.anyInScope scopeNames headingNames then
      ((b.endImplied impliedEndNames).popThrough fun element => headingNames.contains element.name).finished
    else b.finished) = later.finished ∧ b.Advances 0 later := by
  split
  · rename_i found
    refine ⟨_, rfl, advances_of_tracks fun _ tracks =>
      tracks.closeThrough (exists_of_reaches found) (by decide) (fun element fit => ?_) (by decide)⟩
    have checked : ∀ name ∈ headingNames, impliedEndNames.contains name = false := by decide
    exact checked element.name (List.contains_iff_mem.mp fit)
  · exact ⟨_, rfl, .refl b⟩

/-- The end tag of an allowed element closes elements, or resumes a paragraph. -/
theorem advances_endInBody (full : name ∉ voidElements) (allowed : ownAttributes? name = some own) :
    ∃ later, b.endInBody name = later.finished ∧ b.Advances 0 later := by
  have inner := ne_rootName_of_allowed allowed
  rw [endInBody]
  rcases endKind_of_allowed full allowed with ⟨kind, apart⟩ | ⟨kind, rfl⟩ | kind | ⟨kind, -⟩ | kind | kind
  · rw [kind]
    exact ⟨_, rfl, advances_endBlock scopeNames inner apart⟩
  · rw [kind]
    exact ⟨_, rfl, advances_endParagraph⟩
  · rw [kind]
    exact ⟨_, rfl, advances_endItem listScopeNames inner⟩
  · rw [kind]
    exact advances_endHeading
  · rw [kind]
    exact ⟨_, rfl, advances_endFormatting inner⟩
  · rw [kind]
    exact ⟨_, rfl, advances_endOrdinary inner⟩

/-! ### Tokens -/

/-- A token that is dealt with in the body is dealt with. -/
theorem Tracks.accept_eq (tracks : b.Tracks frames) (apart : token ≠ .fault) {later : Builder}
    (dealt : b.inBody token = later.finished) : b.accept token = (later, none) := by
  have ready : { b with dropsLineFeed := false } = b := by rw [← tracks.ready]
  have limit : 2 * b.stack.length + 8 = 2 * b.stack.length + 7 + 1 := rfl
  rw [accept, ready, if_neg (by simp [apart, tracks.ready]), limit, settle, inMode, tracks.inBody]
  simp only [dealt, finished]

/-- A token of clean markup is dealt with in the body, and brings the builder on by what it weighs. -/
theorem Tracks.accept (tracks : b.Tracks frames) (kept : token.Kept) : ∃ later after, b.accept token = (later, none) ∧
    later.Tracks after ∧ Grows token.weight (writtenIn frames) (writtenIn after) := by
  have dealt : ∃ later, b.inBody token = later.finished ∧ b.Advances token.weight later := by
    cases token with
    | startTag tag => exact advances_startInBody kept
    | endTag name =>
      obtain ⟨full, own, allowed⟩ := kept
      exact advances_endInBody full allowed
    | char c => exact ⟨_, rfl, advances_resumeFormatting.trans (advances_insertChar c)⟩
    | nul => exact absurd kept id
    | comment content => exact absurd kept id
    | fault => exact absurd kept id
  obtain ⟨later, dealt, advances⟩ := dealt
  obtain ⟨after, tracked, grows⟩ := advances frames tracks
  refine ⟨later, after, tracks.accept_eq ?_ dealt, tracked, grows⟩
  rintro rfl
  exact kept

/-- Deals with tokens one after the other. -/
def acceptAll (b : Builder) (given : List Token) : Builder :=
  given.foldl (fun b token => (b.accept token).1) b

/-- Tokens in a row are dealt with one after the other. -/
theorem acceptAll_append (b : Builder) (front back : List Token) :
    b.acceptAll (front ++ back) = (b.acceptAll front).acceptAll back :=
  List.foldl_append

/-- Tokens are dealt with one after the other, and none changes how the lexer goes on. -/
inductive Accepts : Builder → List Token → Builder → Prop where
  | nil (b : Builder) : Accepts b [] b
  | cons {b next after : Builder} {token : Token} {rest : List Token} (here : b.accept token = (next, none))
      (later : Accepts next rest after) : Accepts b (token :: rest) after

/-- A token that is dealt with. -/
theorem accepts_singleton {next : Builder} (here : b.accept token = (next, none)) : b.Accepts [token] next :=
  .cons here (.nil next)

/-- Tokens in a row are dealt with if all parts of the row are. -/
theorem accepts_append {front back : List Token} {after : Builder} :
    b.Accepts (front ++ back) after ↔ ∃ between, b.Accepts front between ∧ between.Accepts back after := by
  constructor
  · intro accepts
    induction front generalizing b with
    | nil => exact ⟨b, .nil b, accepts⟩
    | cons token rest inductionHypothesis =>
      cases accepts with
      | cons here later =>
        obtain ⟨between, first, second⟩ := inductionHypothesis later
        exact ⟨between, .cons here first, second⟩
  · rintro ⟨between, first, second⟩
    induction first with
    | nil b => exact second
    | cons here later inductionHypothesis => exact .cons here (inductionHypothesis second)

/-- Tokens of clean markup bring the builder on by what they weigh, and none changes how the lexer goes on. -/
theorem Tracks.acceptAll (tracks : b.Tracks frames) {given : List Token} (kept : ∀ token ∈ given, token.Kept) :
    b.Accepts given (b.acceptAll given) ∧
      ∃ after, (b.acceptAll given).Tracks after ∧ Grows (weigh given) (writtenIn frames) (writtenIn after) := by
  induction given generalizing b frames with
  | nil => exact ⟨.nil b, frames, tracks, .refl _⟩
  | cons token rest inductionHypothesis =>
    obtain ⟨here, later⟩ := List.forall_mem_cons.mp kept
    obtain ⟨next, between, dealt, tracked, grows⟩ := tracks.accept here
    obtain ⟨accepts, after, tracked, further⟩ := inductionHypothesis tracked later
    have first : b.acceptAll (token :: rest) = next.acceptAll rest := by
      rw [Builder.acceptAll, List.foldl_cons, dealt]
      rfl
    exact ⟨first ▸ .cons dealt accepts, after, first ▸ tracked, grows.trans further⟩

/-- At the start only the root is there. -/
theorem tracks_initial : initial.Tracks [⟨0, ⟨rootName, []⟩, [], [], []⟩] where
  chain := ⟨⟨⟨rfl, .nil, fun inner => absurd rfl inner⟩, trivial⟩, rfl, by simp [numbersIn, Frame.numbers],
    by simp [numbersIn, Frame.numbers, initial, Forest.create]⟩
  listed := .refl _
  rooted := rfl
  inBody := rfl
  settled := rfl
  ready := rfl
  formatting := by simp [initial]

end Builder

/-! ### Fragments -/

/-- The lexer stays as it is while such tokens are dealt with. -/
theorem Builder.Accepts.parser {given : List Token} {after : Builder} (accepts : b.Accepts given after)
    (lexer : Lexer) : given.foldl Parser.accept ⟨lexer, b⟩ = ⟨lexer, after⟩ := by
  induction accepts with
  | nil b => rfl
  | cons here later inductionHypothesis =>
    rw [List.foldl_cons, Parser.accept, here]
    exact inductionHypothesis

/-- A text is read by its tokens, if none of them changes how the lexer goes on. -/
theorem Builder.Accepts.feedAll {lexer : Lexer} {text : Text} {after : Builder}
    (accepts : b.Accepts (lexer.readAll names text) after) :
    (text.foldl (Parser.feed names) ⟨lexer, b⟩).finish names = after.finish.forest.childTrees 0 := by
  induction text generalizing lexer b with
  | nil =>
    have ended : (lexer.finish names).foldl Parser.accept ⟨lexer, b⟩ = ⟨lexer, after⟩ := accepts.parser lexer
    simp only [List.foldl_nil, Parser.finish, ended]
  | cons c rest inductionHypothesis =>
    rw [Lexer.readAll_cons] at accepts
    obtain ⟨between, here, later⟩ := Builder.accepts_append.mp accepts
    have fed : Parser.feed names ⟨lexer, b⟩ c = ⟨(lexer.step names c).2, between⟩ := here.parser _
    rw [List.foldl_cons, fed]
    exact inductionHypothesis later

/-- A fragment is read by its tokens, if none of them changes how the lexer goes on. -/
theorem parseFragmentWith_of_accepts {markup : Text} {after : Builder}
    (accepts : Builder.initial.Accepts (tokens names markup) after) :
    parseFragmentWith names markup = after.finish.forest.childTrees 0 :=
  accepts.feedAll

/-- A fragment of clean markup is read by its tokens. -/
theorem parseFragmentWith_eq {markup : Text} (kept : ∀ token ∈ tokens names markup, token.Kept) :
    parseFragmentWith names markup = (Builder.initial.acceptAll (tokens names markup)).forest.childTrees 0 := by
  obtain ⟨accepts, after, tracked, -⟩ := Builder.tracks_initial.acceptAll kept
  have finished : (Builder.initial.acceptAll (tokens names markup)).finish =
      Builder.initial.acceptAll (tokens names markup) := if_neg (by rw [tracked.inBody]; simp)
  rw [parseFragmentWith_of_accepts accepts, finished]

end
end MapEmbed.Html
