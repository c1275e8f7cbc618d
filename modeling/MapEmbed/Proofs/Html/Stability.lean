import MapEmbed.Proofs.Html.Departing
import MapEmbed.Proofs.Html.Emitting

/-!
# Cleaning twice

Clean markup that is cleaned again stays as it is exactly if it is read as the nodes that it was written for. Three
things can keep it from that. Cleaning takes elements away after the markup was read, so those that are left may stand
in others that no markup puts them in, and their start tags close what is around them. A carriage return, which only a
reference can have put into a text or a value, is written as it is, and read as a line feed. And a byte order mark in
front is not read at all.
-/

namespace MapEmbed.Html

/-- Not the character that is no text. -/
def NotNul (c : Char) : Prop := c.toNat ≠ 0

/-- What clean markup consists of: allowed elements and characters that are written as they are. -/
structure CleanTokens (given : List Token) : Prop where
  allowed : AllowedMarkup given
  kept : ∀ token ∈ given, token.Kept
  writable : ∀ token ∈ given, token.Writable
  whole : ∀ token ∈ given, token.MadeOf (LegalAttributes NotNul) NotNul

/-- The clean markup of a fragment is read as it was meant: its elements may stand where they do, no carriage return is
in it, and no byte order mark in front. -/
structure Settled (names : ReferenceTable) (markup : Text) : Prop where
  nested : nests [] (emittedNodes (parseFragmentWith names markup)) = true
  feeds : '\r' ∉ sanitizeWith names markup
  unmarked : (sanitizeWith names markup).head? ≠ some (Char.ofNat 0xFEFF)

section
variable {Plain : Char → Prop} {names : ReferenceTable} {given other : List Token} {token : Token} {b : Builder}
  {frames : List Frame} {markup : Text}

/-! ### Tokens of clean markup -/

/-- No known reference has a NUL character in it or stands for one. -/
theorem plainTable_namedReferences : PlainTable NotNul namedReferences := by
  have checked : (namedReferences.all fun entry =>
      entry.1.all (fun c => c.toNat != 0) && entry.2.all fun c => c.toNat != 0) = true := by decide
  intro entry listed
  have here := List.all_eq_true.mp checked entry listed
  simpa [NotNul] using here

/-- Fewer attributes in another order are still what attributes are. -/
theorem keeps_legalAttributes (own : List Text) (attributes : List (Text × Text))
    (legal : LegalAttributes Plain attributes) : LegalAttributes Plain (keptEntries own attributes) := by
  refine ⟨?_, fun entry member => legal.2 entry (mem_keptEntries.mp member).1⟩
  exact ((sortByName_perm _).map Prod.fst).nodup_iff.mpr (legal.1.sublist (List.filter_sublist.map Prod.fst))

/-- The tokens of a fragment are those of clean markup. -/
theorem cleanTokens_emittedNodes (whole : PlainTable NotNul names) (markup : Text) :
    CleanTokens (emittedNodes (parseFragmentWith names markup)) := by
  have made := madeOf_parseFragmentWith (fun _ => id) whole markup
  have kept := kept_emittedNodes keeps_legalAttributes _ made
  exact ⟨allowedMarkup_emittedNodes _, fun token member => (kept token member).1,
    writable_emittedNodes _ named_of_mem_parseFragmentWith, fun token member => (kept token member).2⟩

/-- A token without NUL characters is read as it is. -/
theorem reread_eq_self (whole : ∀ c, Plain c → NotNul c) (kept : token.Kept)
    (made : token.MadeOf (LegalAttributes Plain) Plain) : token.reread = token := by
  cases token with
  | startTag tag =>
    have same : (tag.attributes.map fun entry => (entry.1, entry.2.map withoutNul)) = tag.attributes := by
      refine (List.map_congr_left fun entry member => ?_).trans (List.map_id _)
      have value : entry.2.map withoutNul = entry.2.map id :=
        List.map_congr_left fun c inside => if_neg (whole c ((made.2 entry member).2 c inside))
      exact Prod.ext rfl (value.trans (List.map_id _))
    rw [Token.reread, same]
  | endTag name => rfl
  | char c => exact if_neg (whole c made)
  | nul => exact absurd kept id
  | comment content => exact absurd kept id
  | fault => exact absurd kept id

/-- Tokens without NUL characters are read as they are. -/
theorem map_reread_eq_self (whole : ∀ c, Plain c → NotNul c) (kept : ∀ token ∈ given, token.Kept)
    (made : ∀ token ∈ given, token.MadeOf (LegalAttributes Plain) Plain) : given.map Token.reread = given :=
  (List.map_congr_left fun token member => reread_eq_self whole (kept token member) (made token member)).trans
    (List.map_id given)

/-- Written tokens are read as they are. -/
theorem CleanTokens.yields (clean : CleanTokens given) (sound : Sound names) : Yields names (writeTokens given) given := by
  have yields := yields_writeTokens sound clean.writable
  rwa [map_reread_eq_self (fun _ => id) clean.kept clean.whole] at yields

/-- Clean markup tells its tokens. -/
theorem CleanTokens.eq_of_writeTokens (first : CleanTokens given) (second : CleanTokens other)
    (same : writeTokens given = writeTokens other) : given = other := by
  have read := (first.yields sound_namedReferences).readAll_eq []
  rw [same] at read
  exact read.symm.trans ((second.yields sound_namedReferences).readAll_eq [])

/-- Fewer tokens are still those of clean markup, if what is missing is a character in front. -/
theorem CleanTokens.withoutMarkToken (clean : CleanTokens given) : CleanTokens (withoutMarkToken given) where
  allowed := clean.allowed.withoutMarkToken
  kept := fun token member => clean.kept token (mem_of_mem_withoutMarkToken member)
  writable := fun token member => clean.writable token (mem_of_mem_withoutMarkToken member)
  whole := fun token member => clean.whole token (mem_of_mem_withoutMarkToken member)

/-- Without carriage returns clean markup is read as its tokens, but for a byte order mark in front. -/
theorem CleanTokens.tokens_eq (clean : CleanTokens given) (sound : Sound names) (feeds : '\r' ∉ writeTokens given) :
    tokens names (writeTokens given) = Html.withoutMarkToken given := by
  apply Yields.tokens_eq
  have fewer : '\r' ∉ withoutMark (writeTokens given) := by
    rw [withoutMark_writeTokens clean.writable]
    intro member
    obtain ⟨token, listed, inside⟩ := List.mem_flatMap.mp member
    exact feeds (List.mem_flatMap.mpr ⟨token, mem_of_mem_withoutMarkToken listed, inside⟩)
  rw [normalizeLines_eq_self fewer, withoutMark_writeTokens clean.writable]
  exact clean.withoutMarkToken.yields sound

/-- Clean markup starts with a byte order mark exactly if its first token is one. -/
theorem head?_writeTokens_eq_mark (writable : ∀ token ∈ given, token.Writable) :
    (writeTokens given).head? = some (Char.ofNat 0xFEFF) ↔ given.head? = some (.char (Char.ofNat 0xFEFF)) := by
  have same := withoutMark_writeTokens writable
  cases given with
  | nil => simp [writeTokens]
  | cons token rest =>
    rw [Html.withoutMarkToken] at same
    split at same
    · rename_i mark
      subst mark
      exact iff_of_true rfl rfl
    · rename_i other
      refine iff_of_false (fun mark => ?_) (by simpa using other)
      obtain ⟨text, split_⟩ := List.head?_eq_some_iff.mp mark
      have shorter := congrArg List.length same
      have number : (Char.ofNat 0xFEFF).toNat = 0xFEFF := by decide
      rw [split_, withoutMark, if_pos number, List.length_cons] at shorter
      omega

/-- Tokens without a byte order mark in front stay as they are. -/
theorem withoutMarkToken_eq_self (unmarked : given.head? ≠ some (.char (Char.ofNat 0xFEFF))) :
    withoutMarkToken given = given := by
  cases given with
  | nil => rfl
  | cons token rest => exact if_neg fun mark => unmarked (congrArg some mark)

/-! ### Carriage returns -/

/-- No NUL character and no carriage return. -/
def NotReturn (c : Char) : Prop := NotNul c ∧ c ≠ '\r'

/-- A line feed is neither. -/
theorem notReturn_feed : NotReturn '\n' :=
  ⟨(by decide : '\n'.toNat ≠ 0), by decide⟩

/-- Tokens without carriage returns have normal line ends. -/
theorem normalTokens_eq_self (made : ∀ token ∈ given, token.MadeOf (LegalAttributes NotReturn) NotReturn) :
    normalTokens given = given := by
  induction given with
  | nil => rfl
  | cons token rest inductionHypothesis =>
    obtain ⟨here, later⟩ := List.forall_mem_cons.mp made
    have same : token.normal = token := by
      cases token with
      | startTag tag =>
        have attributes : tag.attributes.map normalAttribute = tag.attributes := by
          refine (List.map_congr_left fun entry member => ?_).trans (List.map_id _)
          exact Prod.ext rfl (normalizeLines_eq_self fun return_ => ((here.2 entry member).2 _ return_).2 rfl)
        rw [Token.normal, attributes]
      | char c => exact congrArg Token.char (if_neg here.2)
      | _ => rfl
    have other : ¬(token = .char '\r' ∧ rest.head? = some (.char '\n')) := by
      rintro ⟨rfl, -⟩
      exact here.2 rfl
    rw [normalTokens, if_neg other, same, inductionHypothesis later]

/-- Tokens with normal line ends are written as they are, and have no carriage returns. -/
theorem kept_normal (kept : token.Kept) (made : token.MadeOf (LegalAttributes NotNul) NotNul) :
    token.normal.Kept ∧ token.normal.MadeOf (LegalAttributes NotReturn) NotReturn := by
  cases token with
  | startTag tag =>
    refine ⟨kept.normal, by rw [keys_normalAttribute]; exact made.1, fun entry member => ?_⟩
    obtain ⟨old, listed, rfl⟩ := List.mem_map.mp member
    obtain ⟨named, plain⟩ := made.2 old listed
    refine ⟨named, fun c inside => ⟨?_, ?_⟩⟩
    · rcases mem_normalizeLines inside with rfl | before
      · exact notReturn_feed.1
      · exact plain c before
    · rintro rfl
      exact return_not_mem_normalizeLines old.2 inside
  | endTag name => exact ⟨kept, trivial⟩
  | char c =>
    refine ⟨trivial, ?_⟩
    by_cases return_ : c = '\r'
    · rw [Token.normal, if_pos return_]
      exact notReturn_feed
    · rw [Token.normal, if_neg return_]
      exact ⟨made, return_⟩
  | nul => exact absurd kept id
  | comment content => exact absurd kept id
  | fault => exact absurd kept id

/-- What is made of tokens one after the other is made of what they are made of. -/
theorem Builder.MadeOf.acceptAll {Attributed : List (Text × Text) → Prop} {Written : Char → Prop}
    (madeOf : b.MadeOf Attributed Written) (empty : Attributed [])
    (made : ∀ token ∈ given, token.MadeOf Attributed Written) : (b.acceptAll given).MadeOf Attributed Written := by
  induction given generalizing b with
  | nil => exact madeOf
  | cons token rest inductionHypothesis =>
    obtain ⟨here, later⟩ := List.forall_mem_cons.mp made
    exact inductionHypothesis (madeOf.accept empty here) later

/-- Clean markup that is cleaned again has no carriage returns. -/
theorem return_not_mem_sanitizeWith (sound : Sound names) (clean : CleanTokens given) :
    '\r' ∉ sanitizeWith names (writeTokens given) := by
  have normal : ∀ token ∈ normalTokens (withoutMarkToken given),
      token.Kept ∧ token.MadeOf (LegalAttributes NotReturn) NotReturn := by
    intro token member
    obtain ⟨old, listed, rfl⟩ := exists_of_mem_normalTokens member
    have among := mem_of_mem_withoutMarkToken listed
    exact kept_normal (clean.kept old among) (clean.whole old among)
  have read : tokens names (writeTokens given) = normalTokens (withoutMarkToken given) := by
    rw [tokens_writeTokens sound clean.writable]
    exact map_reread_eq_self (fun _ => And.left) (fun token member => (normal token member).1)
      fun token member => (normal token member).2
  rw [← read] at normal
  have made := (Builder.madeOf_initial legalAttributes_nil).acceptAll legalAttributes_nil
    fun token member => (normal token member).2
  have again := parseFragmentWith_eq fun token member => (normal token member).1
  have nodes := again ▸ made.forest.childTrees 0
  have emitted := kept_emittedNodes keeps_legalAttributes _ nodes
  rw [sanitizeWith, ← writeTokens_emittedNodes,
    ← normalTokens_eq_self fun token member => (emitted token member).2,
    ← normalizeLines_writeTokens (writable_emittedNodes _ named_of_mem_parseFragmentWith)]
  exact return_not_mem_normalizeLines _

/-! ### The tree of clean markup -/

/-- The tree under construction writes what its frames have written, and their end tags. -/
theorem Builder.Tracks.emittedNodes_eq (tracks : b.Tracks frames) : ∃ closed : List OpenElement,
    emittedNodes (b.forest.childTrees 0) = writtenIn frames ++ closed.map fun element => .endTag element.name := by
  cases frames with
  | nil => simpa using tracks.chain.rooted
  | cons inner rest => exact tracks.chain.emittedNodes_childTrees

/-- Where nothing but the root is open, the tokens tell the tree. -/
theorem Builder.Tidy.childTrees_eq (tidy : b.Tidy frames []) :
    (writtenIn frames).foldr Token.gather [[]] = [b.forest.childTrees 0] := by
  obtain ⟨front, opened, empty, -, -⟩ := tidy.exists_front
  obtain rfl := List.map_eq_nil_iff.mp empty
  have whole := tidy.whole
  rw [opened, List.nil_append] at whole
  obtain ⟨root, rfl, same⟩ := List.map_eq_singleton_iff.mp whole.symm
  have number : root.number = 0 := congrArg OpenElement.number same
  obtain ⟨draft, row, -⟩ := tidy.chain.holds.1
  have deep := tidy.chain.length_le
  rw [numbersIn_cons] at deep
  have gathered := row.gather_eq (show root.used.length ≤ b.forest.drafts.size by simp at deep; omega) [] []
  rw [number] at draft
  rw [writtenIn, writtenIn, List.nil_append, Frame.written, if_pos number, gathered, Forest.childTrees, draft]
  rfl

/-- Clean markup whose elements may stand where they do is read as the nodes that it was written for. -/
theorem CleanTokens.parse_eq (clean : CleanTokens given) (read : tokens names (writeTokens given) = given)
    (nested : nests [] given = true) :
    given.foldr Token.gather [[]] = [parseFragmentWith names (writeTokens given)] := by
  obtain ⟨after, tidy, written⟩ := Builder.tidy_initial.acceptAll clean.allowed clean.kept nested
  rw [parseFragmentWith_eq (read.symm ▸ clean.kept), read, ← tidy.childTrees_eq, written]
  rfl

/-- Clean markup with an element that may not stand where it does is not read as what it was written for. -/
theorem CleanTokens.emittedNodes_ne (clean : CleanTokens given) (read : tokens names (writeTokens given) = given)
    (strays : nests [] given = false) : emittedNodes (parseFragmentWith names (writeTokens given)) ≠ given := by
  obtain ⟨after, tracks, departs⟩ := Builder.tidy_initial.acceptAll_departs clean.allowed clean.kept strays
  obtain ⟨closed, emitted⟩ := tracks.emittedNodes_eq
  rw [parseFragmentWith_eq (read.symm ▸ clean.kept), read, emitted]
  exact departs.ne closed

/-- Clean markup with a byte order mark in front is not read as what it was written for. -/
theorem CleanTokens.emittedNodes_ne_of_mark {rest : List Token}
    (clean : CleanTokens (.char (Char.ofNat 0xFEFF) :: rest))
    (read : tokens names (writeTokens (.char (Char.ofNat 0xFEFF) :: rest)) = rest) :
    emittedNodes (parseFragmentWith names (writeTokens (.char (Char.ofNat 0xFEFF) :: rest))) ≠
      .char (Char.ofNat 0xFEFF) :: rest := by
  have kept := (List.forall_mem_cons.mp clean.kept).2
  obtain ⟨-, after, tracks, grows⟩ := Builder.tracks_initial.acceptAll kept
  obtain ⟨closed, emitted⟩ := tracks.emittedNodes_eq
  rw [parseFragmentWith_eq (read.symm ▸ kept), read, emitted]
  intro same
  have weight := congrArg weigh same
  rw [weigh_append, weigh_endTags] at weight
  have start : weigh (writtenIn [⟨0, ⟨Builder.rootName, []⟩, [], [], []⟩]) = 0 := rfl
  have mark : weigh (.char (Char.ofNat 0xFEFF) :: rest) = 1 + weigh rest := weigh_append [_] rest
  rcases grows with ⟨less, -⟩ | more
  · omega
  · omega

/-! ### Cleaning twice -/

/-- Clean markup is the same after it is cleaned again exactly if it is settled, and exactly then it is read as the nodes
that were kept when it was written. -/
theorem sanitizeWith_sanitizeWith (sound : Sound names) (whole : PlainTable NotNul names) (markup : Text) :
    (sanitizeWith names (sanitizeWith names markup) = sanitizeWith names markup ↔ Settled names markup) ∧
      (parseFragmentWith names (sanitizeWith names markup) = keptNodes (parseFragmentWith names markup) [] ↔
        Settled names markup) := by
  have clean := cleanTokens_emittedNodes whole markup
  have again := cleanTokens_emittedNodes whole (sanitizeWith names markup)
  have written : sanitizeWith names markup = writeTokens (emittedNodes (parseFragmentWith names markup)) :=
    (writeTokens_emittedNodes _).symm
  have kept := gather_emittedNodes (parseFragmentWith names markup) [] []
  -- what the nodes write that are kept is what was written
  have same : parseFragmentWith names (sanitizeWith names markup) = keptNodes (parseFragmentWith names markup) [] →
      sanitizeWith names (sanitizeWith names markup) = sanitizeWith names markup := by
    intro read
    rw [sanitizeWith, read, ← writeTokens_emittedNodes, emittedNodes_keptNodes, emittedNodes, List.append_nil, written]
  have reads : Settled names markup →
      parseFragmentWith names (sanitizeWith names markup) = keptNodes (parseFragmentWith names markup) [] := by
    rintro ⟨nested, feeds, unmarked⟩
    rw [written] at feeds unmarked ⊢
    rw [Ne, head?_writeTokens_eq_mark clean.writable] at unmarked
    have read := clean.tokens_eq sound feeds
    rw [withoutMarkToken_eq_self unmarked] at read
    exact (List.cons.inj ((clean.parse_eq read nested).symm.trans kept)).1
  have settled : sanitizeWith names (sanitizeWith names markup) = sanitizeWith names markup → Settled names markup := by
    intro stable
    have feeds : '\r' ∉ sanitizeWith names markup := by
      rw [← stable, written]
      exact return_not_mem_sanitizeWith sound clean
    have back : emittedNodes (parseFragmentWith names (sanitizeWith names markup)) =
        emittedNodes (parseFragmentWith names markup) := by
      refine again.eq_of_writeTokens clean ?_
      rw [writeTokens_emittedNodes, ← written]
      exact stable
    rw [written] at back
    have read := clean.tokens_eq sound (written ▸ feeds)
    have unmarked : (emittedNodes (parseFragmentWith names markup)).head? ≠ some (.char (Char.ofNat 0xFEFF)) := by
      intro mark
      obtain ⟨rest, split⟩ := List.head?_eq_some_iff.mp mark
      rw [split] at clean read back
      rw [withoutMarkToken, if_pos rfl] at read
      exact clean.emittedNodes_ne_of_mark read back
    rw [withoutMarkToken_eq_self unmarked] at read
    refine ⟨?_, feeds, ?_⟩
    · by_contra strays
      exact clean.emittedNodes_ne read (by simpa using strays) back
    · rw [written, Ne, head?_writeTokens_eq_mark clean.writable]
      exact unmarked
  exact ⟨⟨settled, fun here => same (reads here)⟩, ⟨fun here => settled (same here), reads⟩⟩

/-- Formatting that goes through paragraphs is written for each of them, and so it stays. -/
theorem sanitize_sanitize_paragraphs :
    sanitize (sanitize "<p><b>a<p>b&amp;</b>".toList) = sanitize "<p><b>a<p>b&amp;</b>".toList ∧
      parseFragment (sanitize "<p><b>a<p>b&amp;</b>".toList) = keptNodes (parseFragment "<p><b>a<p>b&amp;</b>".toList) [] := by
  have settled : Settled namedReferences "<p><b>a<p>b&amp;</b>".toList :=
    ⟨by decide +kernel, by decide +kernel, by decide +kernel⟩
  obtain ⟨stable, read⟩ :=
    sanitizeWith_sanitizeWith sound_namedReferences plainTable_namedReferences "<p><b>a<p>b&amp;</b>".toList
  exact ⟨stable.mpr settled, read.mpr settled⟩

/-- A form around a heading in a heading is taken away, and then the inner heading closes the outer one. -/
theorem sanitize_sanitize_headings : sanitize (sanitize "<h1><form><h2>x</h2></form></h1>".toList) ≠
    sanitize "<h1><form><h2>x</h2></form></h1>".toList := by
  decide +kernel

end
end MapEmbed.Html
