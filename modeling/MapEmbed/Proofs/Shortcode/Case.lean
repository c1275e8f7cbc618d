import MapEmbed.Proofs.Shortcode.Grammar

/-!
# Names in any case

A search that ignores the case of names may find a shortcode where the exact search finds none, and it may end one at a
closing tag that the exact search passes over. Up to the first shortcode that is not written as the exact search wants
it, in its opening tag or in its closing tag, the two searches cut a text in the same way. If there is none, they cut
all of it in the same way, and only then.
-/

namespace MapEmbed.Shortcode

/-- A shortcode whose tag is one of the given ones, letter by letter, and whose closing tag is that of its opening
tag. -/
structure Occurrence.Verbatim (tags : List Text) (o : Occurrence) : Prop where
  listed : o.tag ∈ tags
  closing : ∀ content written, o.body = .enclosing content written → written = o.tag

/-- Whether a closing tag is that of the opening tag can be read off the body. -/
theorem Occurrence.verbatim_iff {tags : List Text} {o : Occurrence} :
    o.Verbatim tags ↔ o.tag ∈ tags ∧
      match o.body with
      | .enclosing _ written => written = o.tag
      | _ => True := by
  constructor
  · rintro ⟨listed, closing⟩
    refine ⟨listed, ?_⟩
    split
    · rename_i content written bodied
      exact closing content written bodied
    · trivial
  · rintro ⟨listed, closing⟩
    refine ⟨listed, fun content written bodied => ?_⟩
    rwa [bodied] at closing

instance (tags : List Text) (o : Occurrence) : Decidable (o.Verbatim tags) :=
  match bodied : o.body with
  | .enclosing _ written =>
    decidable_of_iff (o.tag ∈ tags ∧ written = o.tag) (by simp [Occurrence.verbatim_iff, bodied])
  | .selfClosing => decidable_of_iff (o.tag ∈ tags) (by simp [Occurrence.verbatim_iff, bodied])
  | .unclosed => decidable_of_iff (o.tag ∈ tags) (by simp [Occurrence.verbatim_iff, bodied])

/-! ### Where names are written -/

/-- The name of an occurrence stands behind a bracket. -/
theorem Occurrence.tag_inside (o : Occurrence) : '[' :: o.tag <:+: o.source := by
  unfold Occurrence.source Occurrence.opening
  cases o.brackets.before with
  | true => exact ⟨['['], _, by simp; rfl⟩
  | false => exact ⟨[], _, by simp; rfl⟩

/-- The name of its closing tag stands behind a bracket and a slash. -/
theorem Occurrence.closing_inside {o : Occurrence} {content written : Text} (body : o.body = .enclosing content written) :
    '[' :: '/' :: written <:+: o.source := by
  refine ⟨o.opening ++ content, ']' :: (if o.brackets.after then [']'] else []), ?_⟩
  simp [Occurrence.source, Occurrence.afterOpening, body, Body.source]

section
variable {mode : CaseMode} {tags : List Text}

/-! ### What the exact search misses -/

/-- What is the same letter by letter is the same in every mode. -/
theorem same_of_exact {tag written : Text} (same : CaseMode.exact.same tag written = true) :
    mode.same tag written = true :=
  (same_exact tag written).mp same ▸ same_self mode written

/-- Where no tag is taken in some mode, none is taken in the exact one. -/
theorem takeFirstTag?_exact {text : Text} (missed : takeFirstTag? mode tags text = none) :
    takeFirstTag? .exact tags text = none := by
  apply List.findSome?_eq_none_iff.mpr
  intro tag listed
  have other := List.findSome?_eq_none_iff.mp missed tag listed
  simp only [takeTag?, ite_eq_right_iff, reduceCtorEq, imp_false, Bool.and_eq_true, not_and] at other ⊢
  exact fun same => other (same_of_exact same)

/-- Where nothing closes in some mode, nothing closes in the exact one. -/
theorem splitAtClosing?_exact {tag text : Text} (named : IsName tag) (free : splitAtClosing? mode tag text = none) :
    splitAtClosing? .exact tag text = none := by
  rw [splitAtClosing?_eq_none_iff named] at free ⊢
  rintro ⟨written, same, inside⟩
  exact free ⟨written, same_of_exact same, inside⟩

/-- Where no occurrence is taken in some mode, none is taken in the exact one. -/
theorem take?_exact (named : ∀ tag ∈ tags, IsName tag) {text : Text}
    (missed : Occurrence.take? mode tags text = none) : Occurrence.take? .exact tags text = none := by
  by_cases closes : ']' ∈ text
  · rw [Occurrence.take?_eq_none_iff named closes] at missed ⊢
    exact takeFirstTag?_exact missed
  · -- no opening tag ends in a text without closing bracket
    cases taken : Occurrence.take? .exact tags text with
    | none => rfl
    | some found =>
      have whole := Occurrence.source_append taken
      have bracket : ']' ∈ found.1.source := by
        simp only [Occurrence.source, Occurrence.opening]
        split <;> split <;> simp
      have inside : ']' ∈ '[' :: text := by
        rw [whole]
        exact List.mem_append_left _ bracket
      exact absurd inside (by simp [closes])

/-- A gap of some mode is vacant in the exact one. -/
theorem Vacant.exact (named : ∀ tag ∈ tags, IsName tag) {front back : Text} (vacant : Vacant mode tags front back) :
    Vacant .exact tags front back := by
  induction front with
  | nil => trivial
  | cons c rest inductionHypothesis =>
    exact ⟨fun bracket => take?_exact named (vacant.1 bracket), inductionHypothesis vacant.2⟩

/-- A body that stands in some mode stands in the exact one if its closing tag is that of the opening tag. -/
theorem Body.Stands.exact {tag after : Text} {body : Body} (named : IsName tag) (stands : body.Stands mode tag after)
    (closing : ∀ content written, body = .enclosing content written → written = tag) :
    body.Stands .exact tag after := by
  cases body with
  | selfClosing => trivial
  | unclosed => exact splitAtClosing?_exact named stands
  | enclosing content written =>
    exact ⟨splitAtClosing?_exact named stands.1, (same_exact tag written).mpr (closing content written rfl)⟩

/-- An occurrence that stands in some mode stands in the exact one if it is written for it. -/
theorem Occurrence.Stands.exact (named : ∀ tag ∈ tags, IsName tag) {o : Occurrence} {rest : Text}
    (stands : o.Stands mode tags rest) (verbatim : o.Verbatim tags) : o.Stands .exact tags rest where
  listed := ⟨o.tag, verbatim.listed, (same_exact o.tag o.tag).mpr rfl⟩
  apart := stands.apart
  closed := stands.closed
  open_ := stands.open_
  body := stands.body.exact (named o.tag verbatim.listed) verbatim.closing
  ended := stands.ended

/-- What stands in the exact mode is written for it. -/
theorem Occurrence.Stands.verbatim {o : Occurrence} {rest : Text} (stands : o.Stands .exact tags rest) :
    o.Verbatim tags where
  listed := mem_of_stands stands
  closing := by
    intro content written bodied
    have body := stands.body
    rw [bodied] at body
    exact (same_exact o.tag written).mp body.2

/-! ### Where the two searches agree -/

namespace Segmentation

/-- What is cut off in some mode is cut off in the exact mode as long as all of it is written for that. -/
theorem ofText_exact_append (named : ∀ tag ∈ tags, IsName tag) {front later : List (Text × Occurrence)} {tail : Text}
    (cuts : Cuts mode tags (front ++ later) tail) (verbatim : ∀ piece ∈ front, piece.2.Verbatim tags) :
    (ofText .exact tags (textOf (front ++ later) tail)).pieces =
      front ++ (ofText .exact tags (textOf later tail)).pieces := by
  induction front with
  | nil => rfl
  | cons piece others inductionHypothesis =>
    obtain ⟨gap, o⟩ := piece
    rw [List.cons_append] at cuts ⊢
    obtain ⟨vacant, stands, cutsLater⟩ := cuts
    have written : o.Verbatim tags := verbatim (gap, o) List.mem_cons_self
    have further := inductionHypothesis cutsLater fun piece member => verbatim piece (List.mem_cons_of_mem _ member)
    rw [textOf, ofText_vacant_source named (vacant.exact named) (stands.exact named written), further]
    rfl

/-- A cut in some mode is the cut in the exact one if all of it is written for that. -/
theorem cuts_exact (named : ∀ tag ∈ tags, IsName tag) {pieces : List (Text × Occurrence)} {tail : Text}
    (cuts : Cuts mode tags pieces tail) (verbatim : ∀ piece ∈ pieces, piece.2.Verbatim tags) :
    Cuts .exact tags pieces tail := by
  induction pieces with
  | nil => exact Vacant.exact named cuts
  | cons piece others inductionHypothesis =>
    obtain ⟨gap, o⟩ := piece
    obtain ⟨vacant, stands, later⟩ := cuts
    exact ⟨vacant.exact named, stands.exact named (verbatim (gap, o) List.mem_cons_self),
      inductionHypothesis later fun piece member => verbatim piece (List.mem_cons_of_mem _ member)⟩

/-- The shortcodes before the first one that is not written for the exact search are the first ones that it finds. -/
theorem takeWhile_prefix_exact (named : ∀ tag ∈ tags, IsName tag) (mode : CaseMode) (text : Text) :
    (ofText mode tags text).pieces.takeWhile (fun piece => decide (piece.2.Verbatim tags)) <+:
      (ofText .exact tags text).pieces := by
  have whole := textOf_ofText mode tags text
  have cuts : Cuts mode tags (ofText mode tags text).pieces (ofText mode tags text).tail := cuts_scan named 0 text
  rw [← @List.takeWhile_append_dropWhile _ (fun piece => decide (piece.2.Verbatim tags)) (ofText mode tags text).pieces]
    at cuts whole
  have agreed := ofText_exact_append named cuts fun piece member =>
    of_decide_eq_true (List.all_eq_true.mp List.all_takeWhile piece member)
  rw [whole] at agreed
  exact ⟨_, agreed.symm⟩

/-- A search in some mode finds what the exact one finds if and only if all that it finds is written for that. -/
theorem ofText_eq_exact_iff (named : ∀ tag ∈ tags, IsName tag) (mode : CaseMode) (text : Text) :
    ofText mode tags text = ofText .exact tags text ↔ ∀ o ∈ (ofText mode tags text).occurrences, o.Verbatim tags := by
  constructor
  · intro same o member
    rw [same] at member
    obtain ⟨piece, listed, rfl⟩ := List.mem_map.mp member
    obtain ⟨rest, stands⟩ := exists_stands_of_mem (cuts_scan named 0 text) piece listed
    exact stands.verbatim
  · intro verbatim
    have cuts := cuts_exact named (cuts_scan named 0 text) fun piece member =>
      verbatim piece.2 (List.mem_map_of_mem member)
    exact ((ofText_eq_iff named).mpr ⟨textOf_ofText mode tags text, cuts⟩).symm

end Segmentation

end

end MapEmbed.Shortcode
