import Mathlib.Data.List.TakeWhile
import MapEmbed.Proofs.Html.Nesting

/-!
# Tags that close what they stand in

A tag that may not stand where it does closes an element around it before its own is opened, or makes formatting anew.
So the tree that is built has another tag there than the text, or more elements than the text has, and whatever the
text goes on with, that stays so. Clean markup is built as it is written exactly if every element may stand where it
does.
-/

namespace MapEmbed.Html

/-- A text is no continuation of another, and none of it is: they differ in a token, or it has more in it. -/
def Departs (whole new : List Token) : Prop :=
  (weigh new = weigh whole ∧ ∃ common one other, one ≠ other ∧ common ++ [one] <+: whole ∧ common ++ [other] <+: new) ∨
    weigh whole + 2 ≤ weigh new

section
variable {name : Text} {own path : List Text} {tag : Tag} {given whole new last more : List Token}
  {b later closed : Builder} {frames : List Frame} {front stack : List OpenElement}

/-! ### Texts that differ -/

/-- What is added after texts differ does not bring them together. -/
theorem Departs.grows (departs : Departs whole new) (grows : Grows (weigh more) new last) :
    Departs (whole ++ more) last := by
  have sum := weigh_append whole more
  rcases departs with ⟨weight, common, one, other, apart, here, there⟩ | much
  · rcases grows with ⟨further, starts⟩ | beyond
    · exact Or.inl ⟨by omega, common, one, other, apart, here.trans (List.prefix_append _ _), there.trans starts⟩
    · exact Or.inr (by omega)
  · rcases grows with ⟨further, -⟩ | beyond
    · exact Or.inr (by omega)
    · exact Or.inr (by omega)

/-- Texts that differ do so whatever elements are closed at the end. -/
theorem Departs.ne (departs : Departs whole new) (closed : List OpenElement) :
    new ++ closed.map (fun element => .endTag element.name) ≠ whole := by
  rintro rfl
  rw [Departs, weigh_append, weigh_endTags] at departs
  rcases departs with ⟨-, common, one, other, apart, here, there⟩ | much
  · have same := List.prefix_of_prefix_length_le here (there.trans (List.prefix_append _ _)) (by simp)
    exact apart (by simpa using same.eq_of_length (by simp))
  · omega

/-! ### Where elements lead in a text -/

/-- After allowed markup the same elements are open as before. -/
theorem AllowedMarkup.foldl_pathAfter (allowed : AllowedMarkup given) (path : List Text) :
    given.foldl pathAfter path = path := by
  induction allowed generalizing path with
  | nil => rfl
  | char c later inductionHypothesis => exact inductionHypothesis path
  | nul later inductionHypothesis => exact inductionHypothesis path
  | void allowed bare later inductionHypothesis =>
    rw [List.foldl_cons, pathAfter, if_pos (List.contains_iff_mem.mpr bare)]
    exact inductionHypothesis path
  | element allowed full content later insideHypothesis inductionHypothesis =>
    rw [List.foldl_cons, List.foldl_append, insideHypothesis, List.foldl_cons, pathAfter, pathAfter,
      if_neg (by simpa using full)]
    exact inductionHypothesis path

/-- Elements in a row may stand where they do if the first ones may, and the others where the first ones lead. -/
theorem nests_append (path : List Text) (front back : List Token) :
    nests path (front ++ back) = (nests path front && nests (front.foldl pathAfter path) back) := by
  induction front generalizing path with
  | nil => rfl
  | cons token rest inductionHypothesis =>
    rw [List.cons_append, nests, nests, inductionHypothesis, List.foldl_cons, Bool.and_assoc]

/-- The elements of an element may stand in it, and it and those behind it may stand in what is around it. -/
theorem nests_element (path : List Text) {inside rest : List Token} (full : tag.name ∉ voidElements)
    (content : AllowedMarkup inside) :
    nests path (.startTag tag :: (inside ++ .endTag tag.name :: rest)) =
      (mayStandIn tag.name path && (nests (tag.name :: path) inside && nests path rest)) := by
  have inner : pathAfter path (.startTag tag) = tag.name :: path := if_neg (by simpa using full)
  rw [nests, inner, nests_append, content.foldl_pathAfter]
  rfl

namespace Builder

/-! ### Closing an element around a tag -/

/-- No search through the open elements stops at an allowed element. -/
theorem not_scope_of_allowed (allowed : ownAttributes? name = some own) :
    scopeNames.contains name = false ∧ buttonScopeNames.contains name = false := by
  have checked : ∀ entry ∈ allowedElements,
      scopeNames.contains entry.1 = false ∧ buttonScopeNames.contains entry.1 = false := by decide
  exact checked _ (Entries.mem_of_lookup allowed)

/-- A search finds what fits if it stops at nothing before. -/
theorem reaches_of_mem {fits : OpenElement → Bool} {stops : List Text}
    (passes : ∀ element ∈ front, stops.contains element.name = false) (found : ∃ element ∈ front, fits element = true) :
    reaches fits stops (front ++ stack) = true := by
  induction front with
  | nil => simp at found
  | cons first rest inductionHypothesis =>
    obtain ⟨here, later⟩ := List.forall_mem_cons.mp passes
    rw [List.cons_append]
    by_cases fit : fits first = true
    · exact reaches_cons fit stops
    · rw [reaches, if_neg fit, here, if_neg Bool.false_ne_true]
      obtain ⟨element, member, fits_⟩ := found
      rcases List.mem_cons.mp member with rfl | further
      · exact absurd fits_ fit
      · exact inductionHypothesis later ⟨element, further, fits_⟩

/-- A paragraph around a place is in scope there. -/
theorem Tidy.inScope_paragraph (tidy : b.Tidy frames path) (around : path.contains "p".toList = true) :
    b.inScope buttonScopeNames "p".toList = true := by
  obtain ⟨front, opened, rfl, -, known⟩ := tidy.exists_front
  obtain ⟨element, member, name⟩ := List.mem_map.mp (List.contains_iff_mem.mp around)
  rw [inScope, opened]
  refine reaches_of_mem (fun other listed => ?_) ⟨element, member, beq_iff_eq.mpr name⟩
  obtain ⟨-, own, allowed⟩ := known other listed
  exact (not_scope_of_allowed allowed).2

/-- What is put into an element that is not the innermost of the frames is put after an end tag. -/
theorem Tracks.departs (tracks : b.Tracks frames) (left : b.stack.head? ≠ (frames.map Frame.element).head?)
    (advances : b.Advances 2 later) (tag : Tag) :
    ∃ after, later.Tracks after ∧ Departs (writtenIn frames ++ [.startTag tag]) (writtenIn after) := by
  obtain ⟨top, outer, open_, closed, opened, front, split, written⟩ := tracks.front
  obtain ⟨after, tracked, grows⟩ := advances _ front
  refine ⟨after, tracked, ?_⟩
  have weight : weigh (writtenIn (top :: outer)) = weigh (writtenIn frames) := by
    rw [written, weigh_append, weigh_endTags, Nat.add_zero]
  have longer : weigh (writtenIn frames ++ [.startTag tag]) = weigh (writtenIn frames) + 2 := weigh_append _ _
  cases closed with
  | nil =>
    rw [split, opened] at left
    exact absurd rfl left
  | cons first others =>
    rcases grows with ⟨same, starts⟩ | much
    · refine Or.inl ⟨by omega, writtenIn frames, .startTag tag, .endTag first.name, by simp, List.prefix_refl _, ?_⟩
      rw [written] at starts
      refine List.IsPrefix.trans ?_ starts
      exact (List.prefix_append_right_inj _).mpr (List.cons_prefix_cons.mpr ⟨rfl, List.nil_prefix⟩)
    · exact Or.inr (by omega)

/-- What follows when the innermost element of a tidy builder was closed departs from what is written. -/
theorem Tidy.departs (tidy : b.Tidy frames path) (tracks : closed.Tracks frames) (inner : closed.stack <:+ b.stack.drop 1)
    (advances : closed.Advances 2 later) (tag : Tag) :
    ∃ after, later.Tracks after ∧ Departs (writtenIn frames ++ [.startTag tag]) (writtenIn after) := by
  refine tracks.departs (fun same => ?_) advances tag
  obtain ⟨top, outer, rfl, opened⟩ := tidy.exists_top
  have distinct := tidy.chain.nodup_elements
  rw [List.map_cons, List.nodup_cons] at distinct
  rw [opened] at inner
  exact distinct.1 (inner.subset (List.mem_of_head? same))

/-- Where elements are closed with what ends by itself in them, those around them are open. -/
theorem closeThrough_suffix (fits : OpenElement → Bool) (implied : List Text) :
    ((b.endImplied implied).popThrough fits).stack <:+ b.stack.drop 1 :=
  suffix_drop_one ((List.dropWhile_suffix _).trans (List.dropWhile_suffix _))

/-- A tag before which a paragraph is closed departs from what is written. -/
theorem Tidy.departs_paragraph (tidy : b.Tidy frames path) (around : path.contains "p".toList = true)
    (advances : b.closeParagraphInScope.Advances 2 later) (tag : Tag) :
    ∃ after, later.Tracks after ∧ Departs (writtenIn frames ++ [.startTag tag]) (writtenIn after) := by
  have found := tidy.inScope_paragraph around
  have closes : b.closeParagraphInScope = b.closeParagraph := if_pos found
  rw [closes] at advances
  exact tidy.departs (tidy.closeParagraph found) (closeThrough_suffix _ _) advances tag

/-- A heading directly in a heading departs from what is written. -/
theorem Tidy.departs_heading (tidy : b.Tidy frames path) (kept : KeptTag tag) (full : tag.name ∉ voidElements)
    (apart : path.contains "p".toList = false) (around : path.head?.any headingNames.contains = true) :
    ∃ after, ((if b.closeParagraphInScope.currentIn headingNames then b.closeParagraphInScope.pop
        else b.closeParagraphInScope).openTag tag).Tracks after ∧
      Departs (writtenIn frames ++ [.startTag tag]) (writtenIn after) := by
  rw [← tidy.currentIn_headings] at around
  rw [tidy.closeParagraphInScope_eq apart, if_pos around]
  obtain ⟨top, outer, rfl, opened⟩ := tidy.exists_top
  refine tidy.departs (tidy.toTracks.pop opened ?_) (List.suffix_refl _) (advances_openTag kept full) tag
  intro root
  rw [currentIn, opened, root] at around
  have outside : headingNames.contains rootName = false := by decide
  exact absurd (outside.symm.trans around) Bool.false_ne_true

/-- An item around which an item is closed departs from what is written. -/
theorem Tidy.departs_item (tidy : b.Tidy frames path) (kept : KeptTag tag) (full : tag.name ∉ voidElements)
    (item : tag.name = "li".toList) (around : path.contains "p".toList = true ∨
      (path.takeWhile fun outer => !itemBarriers.contains outer).contains "li".toList = true) :
    ∃ (later : Builder) (after : List Frame), b.startItem [tag.name] tag = later.finished ∧ later.Tracks after ∧
      Departs (writtenIn frames ++ [.startTag tag]) (writtenIn after) := by
  obtain ⟨front, opened, rfl, -, allowed⟩ := tidy.exists_front
  have search := item_search allowed
  rw [← opened] at search
  have opens {closed : Builder} : closed.Advances 2 (closed.closeParagraphInScope.openTag tag) :=
    advances_closeParagraphInScope.trans (advances_openTag kept full)
  rw [startItem, item]
  cases found : b.stack.find? fun element => ["li".toList].contains element.name ||
      (specialNames.filter fun name => !(names ["address", "div", "p"]).contains name).contains element.name with
  | none =>
    rw [found] at search
    have paragraph := around.resolve_right (by rw [← search]; exact Bool.false_ne_true)
    obtain ⟨after, departs⟩ := tidy.departs_paragraph paragraph (advances_openTag kept full) tag
    exact ⟨_, after, rfl, departs⟩
  | some element =>
    dsimp only
    split
    · rename_i listed
      have name : element.name = "li".toList := by simpa using listed
      have closes := tidy.toTracks.closeNamed (List.mem_of_find?_eq_some found) (by rw [name]; decide)
      obtain ⟨after, departs⟩ := tidy.departs closes (closeThrough_suffix _ _) opens tag
      exact ⟨_, after, rfl, departs⟩
    · rename_i other
      rw [found] at search
      have paragraph := around.resolve_right (by rw [← search]; exact fun same => other (by simpa using same))
      obtain ⟨after, departs⟩ := tidy.departs_paragraph paragraph (advances_openTag kept full) tag
      exact ⟨_, after, rfl, departs⟩

/-- A link around a place is the formatting element that its end tag ends there. -/
theorem Tidy.exists_link (tidy : b.Tidy frames path) (around : "a".toList ∈ path) :
    ∃ number tag, (b.recentFormatting.findSome? fun entry =>
        match entry with
        | .marker => none
        | .element number tag => if tag.name = "a".toList then some (number, tag) else none) = some (number, tag) ∧
      tag.name = "a".toList ∧ .element number tag ∈ b.recentFormatting ∧ b.isOpen number = true ∧
      reaches (fun element => element.number == number) scopeNames b.stack = true := by
  obtain ⟨front, opened, rfl, -, known⟩ := tidy.exists_front
  have recent : b.recentFormatting = b.formatting := by
    refine List.takeWhile_eq_self_iff.mpr fun entry member => ?_
    cases entry with
    | marker => exact absurd (tidy.formatting _ member) id
    | element number tag => rfl
  obtain ⟨element, member, name⟩ := List.mem_map.mp around
  obtain ⟨entry, listed, same⟩ := List.mem_map.mp (tidy.links element (by simp [opened, member]) name)
  cases search : b.formatting.findSome? fun entry =>
      match entry with
      | .marker => none
      | .element number tag => if tag.name = "a".toList then some (number, tag) else none with
  | none =>
    have passed := List.findSome?_eq_none_iff.mp search entry listed
    cases entry with
    | marker => exact absurd (tidy.formatting _ listed) id
    | element number tag =>
      have named : tag.name = "a".toList := (congrArg OpenElement.name same).trans name
      simp [named] at passed
  | some found =>
    obtain ⟨other, noted, fits⟩ := List.exists_of_findSome?_eq_some search
    cases other with
    | marker => simp at fits
    | element number tag =>
      simp only [Option.ite_none_right_eq_some, Option.some.injEq] at fits
      obtain ⟨named, rfl⟩ := fits
      have open_ : (⟨number, tag.name⟩ : OpenElement) ∈ b.stack := tidy.current.subset (List.mem_map_of_mem noted)
      have inside : (⟨number, tag.name⟩ : OpenElement) ∈ front := by
        rw [opened] at open_
        refine (List.mem_append.mp open_).resolve_right fun root => ?_
        have rooted : tag.name = rootName := congrArg OpenElement.name (List.mem_singleton.mp root)
        exact absurd (named.symm.trans rooted) (by decide)
      refine ⟨number, tag, by rw [recent, search], named, recent ▸ noted, ?_, ?_⟩
      · exact List.any_eq_true.mpr ⟨_, open_, beq_self_eq_true _⟩
      · rw [opened]
        refine reaches_of_mem (fun other listed => ?_) ⟨_, inside, beq_self_eq_true _⟩
        obtain ⟨-, own, allowed⟩ := known other listed
        exact (not_scope_of_allowed allowed).1

/-- The end tag of a link closes it, or takes blocks out of it. -/
theorem Tidy.endFormatting_link (tidy : b.Tidy frames path) (around : "a".toList ∈ path) :
    (∃ after, (b.endFormatting "a".toList).Tracks after ∧ weigh (writtenIn frames) + 2 ≤ weigh (writtenIn after)) ∨
      (b.endFormatting "a".toList).Tracks frames ∧ (b.endFormatting "a".toList).stack <:+ b.stack.drop 1 := by
  obtain ⟨number, tag, found, -, -, open_, reached⟩ := tidy.exists_link around
  obtain ⟨top, outer, rfl, opened⟩ := tidy.exists_top
  have adopts : b.endFormatting "a".toList = adopt "a".toList (7 + 1) b := by
    rw [Builder.endFormatting, opened]
    refine if_neg fun stray => ?_
    simp only [Bool.and_eq_true, beq_iff_eq, Bool.not_eq_true', List.any_eq_false] at stray
    obtain ⟨entry, listed, same⟩ := List.mem_map.mp (tidy.links top.element (by simp [opened]) stray.1)
    cases entry with
    | marker => exact absurd (tidy.formatting _ listed) id
    | element other known =>
      exact stray.2 _ listed (beq_iff_eq.mpr (congrArg OpenElement.number same))
  rw [adopts]
  exact tidy.toTracks.adopt_found (fun b => advances_adopt (by decide) 7 b) found open_ reached

/-- The start tag of a link ends a link around it first. -/
theorem Tidy.startInBody_link (tidy : b.Tidy frames path) (around : "a".toList ∈ path)
    (kind : startKind tag.name = .anchor) (link : tag.name = "a".toList) : ∃ number, number ≠ 0 ∧ b.startInBody tag =
      ((((b.endFormatting tag.name).forget number).closeNumber number).resumeFormatting.openFormatting tag).finished := by
  obtain ⟨noted, known, -, named, listed, -⟩ := tidy.exists_link around
  rw [startInBody, kind]
  dsimp only
  split
  · rename_i none_
    have passed := List.findSome?_eq_none_iff.mp none_ _ listed
    simp [named, link] at passed
  · rename_i number found
    obtain ⟨entry, member, same⟩ := List.exists_of_findSome?_eq_some found
    have here := tidy.formatting entry ((List.takeWhile_sublist _).subset member)
    cases entry with
    | marker => exact absurd here id
    | element other known =>
      simp only [Option.ite_none_right_eq_some, Option.some.injEq] at same
      exact ⟨number, same.2 ▸ here.1, rfl⟩

/-- A link in a link departs from what is written. -/
theorem Tidy.departs_anchor (tidy : b.Tidy frames path) (kept : KeptTag tag) (full : tag.name ∉ voidElements)
    (link : tag.name = "a".toList) (around : "a".toList ∈ path) {number : Nat} (inner : number ≠ 0) :
    ∃ after, ((((b.endFormatting tag.name).forget number).closeNumber number).resumeFormatting.openFormatting
        tag).Tracks after ∧ Departs (writtenIn frames ++ [.startTag tag]) (writtenIn after) := by
  have opens {ended : Builder} : ended.Advances 2
      (((ended.forget number).closeNumber number).resumeFormatting.openFormatting tag) :=
    ((advances_forget number).trans (advances_closeNumber inner)).trans
      (advances_resumeFormatting.trans (advances_openFormatting kept full))
  rw [link]
  rcases tidy.endFormatting_link around with ⟨between, tracks, much⟩ | ⟨tracks, closes⟩
  · obtain ⟨after, tracked, grows⟩ := opens between tracks
    have longer : weigh (writtenIn frames ++ [.startTag tag]) = weigh (writtenIn frames) + 2 := weigh_append _ _
    refine ⟨after, tracked, Or.inr ?_⟩
    rcases grows with ⟨weight, -⟩ | more
    · omega
    · omega
  · exact tidy.departs tracks closes opens tag

/-- A tag that may not stand where it does departs from what is written. -/
theorem Tidy.accept_misfit (tidy : b.Tidy frames path) (kept : KeptTag tag)
    (misfit : mayStandIn tag.name path = false) : ∃ later after, b.accept (.startTag tag) = (later, none) ∧
      later.Tracks after ∧ Departs (writtenIn frames ++ [.startTag tag]) (writtenIn after) := by
  obtain ⟨own, allowed, -⟩ := id kept
  have dealt {later : Builder} (same : b.startInBody tag = later.finished) : b.accept (.startTag tag) = (later, none) :=
    tidy.accept_eq (by simp) same
  rw [mayStandIn_of_allowed allowed] at misfit
  obtain ⟨item, link, -⟩ := kinds_of_allowed allowed
  rcases startKind_of_allowed allowed with ⟨kind, -⟩ | ⟨full, kind | kind | kind | kind | kind | kind⟩
  all_goals
    rw [kind] at misfit
    dsimp only at misfit
  · simp at misfit
  · obtain ⟨after, departs⟩ := tidy.departs_paragraph (by simpa using misfit) (advances_openTag kept full) tag
    exact ⟨_, after, dealt (by rw [startInBody, kind]), departs⟩
  · cases around : path.contains "p".toList with
    | true =>
      obtain ⟨after, departs⟩ := tidy.departs_paragraph around (advances_startHeading kept full _) tag
      exact ⟨_, after, dealt (by rw [startInBody, kind]), departs⟩
    | false =>
      rw [around] at misfit
      obtain ⟨after, departs⟩ := tidy.departs_heading kept full around (by simpa using misfit)
      exact ⟨_, after, dealt (by rw [startInBody, kind]), departs⟩
  · rw [Bool.and_eq_false_iff, Bool.not_eq_false', Bool.not_eq_false'] at misfit
    obtain ⟨later, after, starts, departs⟩ := tidy.departs_item kept full (item.mp kind) misfit
    exact ⟨later, after, dealt (by rw [startInBody, kind]; exact starts), departs⟩
  · have around : "a".toList ∈ path := by simpa using misfit
    obtain ⟨number, inner, starts⟩ := tidy.startInBody_link around kind (link.mp kind)
    obtain ⟨after, departs⟩ := tidy.departs_anchor kept full (link.mp kind) around inner
    exact ⟨_, after, dealt starts, departs⟩
  · simp at misfit
  · simp at misfit

/-! ### Allowed markup -/

/-- The first of tokens in a row is dealt with before the others. -/
theorem acceptAll_cons {token : Token} (dealt : b.accept token = (later, none)) (rest : List Token) :
    b.acceptAll (token :: rest) = later.acceptAll rest := by
  rw [acceptAll, List.foldl_cons, dealt]
  rfl

/-- Once the tree departs from what is written, it does so whatever follows. -/
theorem Tracks.acceptAll_departs (tracks : b.Tracks frames) (departs : Departs whole (writtenIn frames))
    (kept : ∀ token ∈ more, token.Kept) :
    ∃ after, (b.acceptAll more).Tracks after ∧ Departs (whole ++ more) (writtenIn after) := by
  obtain ⟨-, after, tracked, grows⟩ := tracks.acceptAll kept
  exact ⟨after, tracked, departs.grows grows⟩

/-- Allowed markup whose elements may stand where they do is built as it is written. -/
theorem Tidy.acceptAll (tidy : b.Tidy frames path) (allowed : AllowedMarkup given) (kept : ∀ token ∈ given, token.Kept)
    (nested : nests path given = true) :
    ∃ after, (b.acceptAll given).Tidy after path ∧ writtenIn after = writtenIn frames ++ given := by
  induction allowed generalizing b frames path with
  | nil => exact ⟨frames, tidy, (List.append_nil _).symm⟩
  | char c later inductionHypothesis =>
    obtain ⟨next, between, dealt, tidy, written⟩ := tidy.accept_char c
    obtain ⟨after, tidy, further⟩ := inductionHypothesis tidy (List.forall_mem_cons.mp kept).2 nested
    exact ⟨after, acceptAll_cons dealt _ ▸ tidy, by rw [further, written, List.append_assoc, List.singleton_append]⟩
  | nul later inductionHypothesis => exact absurd (kept .nul List.mem_cons_self) id
  | @void tag rest allowed bare later inductionHypothesis =>
    obtain ⟨stands, nested⟩ := (Bool.and_eq_true _ _).mp nested
    obtain ⟨here, others⟩ := List.forall_mem_cons.mp kept
    obtain ⟨next, between, dealt, tidy, written⟩ := tidy.accept_startTag here stands
    obtain ⟨after, tidy, further⟩ := inductionHypothesis tidy others nested
    have stays : pathAfter path (.startTag tag) = path := if_pos (List.contains_iff_mem.mpr bare)
    exact ⟨after, acceptAll_cons dealt _ ▸ stays ▸ tidy,
      by rw [further, written, List.append_assoc, List.singleton_append]⟩
  | @element tag inside rest allowed full content later insideHypothesis inductionHypothesis =>
    rw [nests_element path full content, Bool.and_eq_true, Bool.and_eq_true] at nested
    obtain ⟨here, others⟩ := List.forall_mem_cons.mp kept
    obtain ⟨within, behind⟩ := List.forall_mem_append.mp others
    have enters : pathAfter path (.startTag tag) = tag.name :: path := if_neg (by simpa using full)
    obtain ⟨opened, frames₁, dealt, tidy, written₁⟩ := tidy.accept_startTag here nested.1
    obtain ⟨frames₂, tidy, written₂⟩ := insideHypothesis (enters ▸ tidy) within nested.2.1
    obtain ⟨closed, frames₃, ended, tidy, written₃⟩ := tidy.accept_endTag
    obtain ⟨after, tidy, written₄⟩ := inductionHypothesis tidy (List.forall_mem_cons.mp behind).2 nested.2.2
    refine ⟨after, ?_, ?_⟩
    · rw [acceptAll_cons dealt, acceptAll_append, acceptAll_cons ended]
      exact tidy
    · rw [written₄, written₃, written₂, written₁]
      simp

/-- Allowed markup with an element that may not stand where it does departs from what is written. -/
theorem Tidy.acceptAll_departs (tidy : b.Tidy frames path) (allowed : AllowedMarkup given)
    (kept : ∀ token ∈ given, token.Kept) (strays : nests path given = false) :
    ∃ after, (b.acceptAll given).Tracks after ∧ Departs (writtenIn frames ++ given) (writtenIn after) := by
  induction allowed generalizing b frames path with
  | nil => simp [nests] at strays
  | char c later inductionHypothesis =>
    obtain ⟨next, between, dealt, tidy, written⟩ := tidy.accept_char c
    have further := inductionHypothesis tidy (List.forall_mem_cons.mp kept).2 strays
    rwa [written, List.append_assoc, List.singleton_append, ← acceptAll_cons dealt] at further
  | nul later inductionHypothesis => exact absurd (kept .nul List.mem_cons_self) id
  | @void tag rest allowed bare later inductionHypothesis =>
    obtain ⟨here, others⟩ := List.forall_mem_cons.mp kept
    cases stands : mayStandIn tag.name path with
    | false =>
      obtain ⟨next, between, dealt, tracks, departs⟩ := tidy.accept_misfit here stands
      have further := tracks.acceptAll_departs departs others
      rwa [List.append_assoc, List.singleton_append, ← acceptAll_cons dealt] at further
    | true =>
      obtain ⟨next, between, dealt, tidy, written⟩ := tidy.accept_startTag here stands
      have later : nests (pathAfter path (.startTag tag)) rest = false := by
        rwa [nests, Token.standsIn, stands, Bool.true_and] at strays
      have further := inductionHypothesis tidy others later
      rwa [written, List.append_assoc, List.singleton_append, ← acceptAll_cons dealt] at further
  | @element tag inside rest allowed full content later insideHypothesis inductionHypothesis =>
    obtain ⟨here, others⟩ := List.forall_mem_cons.mp kept
    obtain ⟨within, behind⟩ := List.forall_mem_append.mp others
    rw [nests_element path full content] at strays
    cases stands : mayStandIn tag.name path with
    | false =>
      obtain ⟨next, between, dealt, tracks, departs⟩ := tidy.accept_misfit here stands
      have further := tracks.acceptAll_departs departs others
      rwa [List.append_assoc, List.singleton_append, ← acceptAll_cons dealt] at further
    | true =>
      have enters : pathAfter path (.startTag tag) = tag.name :: path := if_neg (by simpa using full)
      obtain ⟨opened, frames₁, dealt, tidy, written₁⟩ := tidy.accept_startTag here stands
      rw [enters] at tidy
      rw [acceptAll_cons dealt, acceptAll_append]
      have split : writtenIn frames ++ .startTag tag :: (inside ++ .endTag tag.name :: rest) =
          (writtenIn frames₁ ++ inside) ++ .endTag tag.name :: rest := by
        rw [written₁]
        simp
      rw [split]
      cases nested : nests (tag.name :: path) inside with
      | false =>
        obtain ⟨between, tracks, departs⟩ := insideHypothesis tidy within nested
        exact tracks.acceptAll_departs departs behind
      | true =>
        obtain ⟨frames₂, tidy, written₂⟩ := tidy.acceptAll content within nested
        obtain ⟨closed, frames₃, ended, tidy, written₃⟩ := tidy.accept_endTag
        have further := inductionHypothesis tidy (List.forall_mem_cons.mp behind).2 (by simpa [stands, nested] using strays)
        rwa [written₃, written₂, List.append_assoc _ [_], List.singleton_append, ← acceptAll_cons ended] at further

end Builder

end
end MapEmbed.Html
