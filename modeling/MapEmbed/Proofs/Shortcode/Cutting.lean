import MapEmbed.Proofs.Shortcode.Standing
import MapEmbed.Shortcode.Segmentation

/-!
# The cut of a text

A text is cut into gaps and occurrences in exactly one way: no occurrence starts in a gap, each stands where it
is, and the pieces make up the text. `Cuts` says this of given pieces. It holds of the pieces that cutting
returns, and whenever it holds of pieces, cutting the text they make up returns them. To know the cut of a text
that was put together it is therefore enough to look at its pieces one by one.
-/

namespace MapEmbed.Shortcode

/-- No occurrence starts in `front` when `back` follows it. -/
def Vacant (mode : CaseMode) (tags : List Text) : Text → Text → Prop
  | [], _ => True
  | c :: rest, back =>
    (c = '[' → Occurrence.take? mode tags (rest ++ back) = none) ∧ Vacant mode tags rest back

/-- Whether a text is vacant can be found out character by character. -/
def Vacant.decide (mode : CaseMode) (tags : List Text) (back : Text) :
    (front : Text) → Decidable (Vacant mode tags front back)
  | [] => isTrue trivial
  | c :: rest =>
    have := Vacant.decide mode tags back rest
    inferInstanceAs (Decidable ((c = '[' → Occurrence.take? mode tags (rest ++ back) = none) ∧
      Vacant mode tags rest back))

instance (mode : CaseMode) (tags : List Text) (front back : Text) : Decidable (Vacant mode tags front back) :=
  Vacant.decide mode tags back front

/-- Whether a tag is taken in front of a bracket does not depend on what the bracket opens: no name holds one. -/
theorem takeTag?_before_bracket {mode : CaseMode} {tag front : Text} (named : IsName tag) (first second : Text)
    (missed : takeTag? mode (front ++ '[' :: first) tag = none) :
    takeTag? mode (front ++ '[' :: second) tag = none := by
  simp only [takeTag?, ite_eq_right_iff, reduceCtorEq, imp_false, Bool.and_eq_true, not_and] at missed ⊢
  intro same
  by_cases inside : tag.length ≤ front.length
  · rw [List.take_append_of_le_length inside] at missed same
    rw [List.drop_append_of_le_length inside] at missed ⊢
    have ends := missed same
    cases left : front.drop tag.length with
    | nil =>
      rw [left] at ends
      exact ends
    | cons c others =>
      rw [left] at ends
      exact ends
  · have bracket : '[' ∈ (front ++ '[' :: second).take tag.length := by
      rw [List.take_append, List.take_of_length_le (by omega)]
      obtain ⟨further, left⟩ : ∃ n, tag.length - front.length = n + 1 := ⟨tag.length - front.length - 1, by omega⟩
      simp [left]
    rw [same_of_mem named (by decide) bracket] at same
    exact absurd same (by decide)

/-- A reading that fails although a bracket closes finds no tag. -/
theorem Occurrence.take?_eq_none_iff {mode : CaseMode} {tags : List Text} (named : ∀ tag ∈ tags, IsName tag)
    {text : Text} (closes : ']' ∈ text) :
    Occurrence.take? mode tags text = none ↔ takeFirstTag? mode tags (takeBracket '[' text).2 = none := by
  have inner : ']' ∈ (takeBracket '[' text).2 := by
    have whole := takeBracket_append '[' text
    rw [← whole, List.mem_append] at closes
    rcases closes with bracket | inside
    · split at bracket <;> simp at bracket
    · exact inside
  unfold Occurrence.take?
  simp only
  cases tagged : takeFirstTag? mode tags (takeBracket '[' text).2 with
  | none => simp
  | some found =>
    obtain ⟨written, after⟩ := found
    obtain ⟨⟨tag, listed, same⟩, -⟩ := takeFirstTag?_listed tagged
    have follows : ']' ∈ after := by
      rw [takeFirstTag?_append tagged, List.mem_append] at inner
      rcases inner with bracket | later
      · exact absurd bracket (not_mem_name (same_name same (named tag listed)) (by decide))
      · exact later
    simp only [reduceCtorEq, iff_false]
    cases attributed : takeAttributes? after with
    | none => exact absurd follows (takeAttributes?_eq_none_iff.mp attributed)
    | some parts => simp

/-- A gap before a bracket stays vacant whatever the bracket opens, as long as no tag comes to stand right behind it. -/
theorem Vacant.congr {mode : CaseMode} {tags : List Text} (named : ∀ tag ∈ tags, IsName tag)
    {front first second : Text} (closes : ']' ∈ first ∧ ']' ∈ second)
    (behind : takeFirstTag? mode tags first = none → takeFirstTag? mode tags second = none)
    (vacant : Vacant mode tags front ('[' :: first)) : Vacant mode tags front ('[' :: second) := by
  have later (text : Text) (missed : takeFirstTag? mode tags (text ++ '[' :: first) = none) :
      takeFirstTag? mode tags (text ++ '[' :: second) = none := by
    apply List.findSome?_eq_none_iff.mpr
    intro tag listed
    exact takeTag?_before_bracket (named tag listed) first second (List.findSome?_eq_none_iff.mp missed tag listed)
  induction front with
  | nil => trivial
  | cons c rest ih =>
    obtain ⟨here, others⟩ := vacant
    refine ⟨fun bracket => ?_, ih others⟩
    have missed := here bracket
    rw [Occurrence.take?_eq_none_iff named (by simp [closes.1])] at missed
    rw [Occurrence.take?_eq_none_iff named (by simp [closes.2])]
    cases rest with
    | nil =>
      simp only [List.nil_append, takeBracket_cons] at missed ⊢
      exact behind missed
    | cons d inside =>
      by_cases opened : d = '['
      · simp only [opened, List.cons_append, takeBracket_cons] at missed ⊢
        exact later inside missed
      · have other (back : Text) : ((d :: inside) ++ back).head? ≠ some '[' := by simp [opened]
        rw [takeBracket_of_head? (other _)] at missed ⊢
        exact later (d :: inside) missed

namespace Segmentation

/-- The text that pieces and a tail make up. -/
def textOf : List (Text × Occurrence) → Text → Text
  | [], tail => tail
  | (gap, o) :: rest, tail => gap ++ (o.source ++ textOf rest tail)

/-- Pieces and a tail that a text is cut into: gaps are vacant and occurrences stand. -/
def Cuts (mode : CaseMode) (tags : List Text) : List (Text × Occurrence) → Text → Prop
  | [], tail => Vacant mode tags tail []
  | (gap, o) :: rest, tail =>
    Vacant mode tags gap (o.source ++ textOf rest tail) ∧ o.Stands mode tags (textOf rest tail) ∧
      Cuts mode tags rest tail

/-- The text of a segmentation, piece by piece. -/
theorem toText_eq (s : Segmentation) : s.toText = textOf s.pieces s.tail := by
  obtain ⟨pieces, tail⟩ := s
  have counted (number : Nat) :
      replaceFrom (fun _ o => o.source) number pieces tail = textOf pieces tail := by
    induction pieces generalizing number with
    | nil => rfl
    | cons piece rest ih => simp only [replaceFrom, textOf, ih]
  exact counted 0

/-- Passing over characters is cutting what is left. -/
theorem scan_drop (mode : CaseMode) (tags : List Text) (passed : Nat) (text : Text) :
    scan mode tags passed text = scan mode tags 0 (text.drop passed) := by
  induction passed generalizing text with
  | zero => rfl
  | succ passed ih =>
    cases text with
    | nil => simp [scan]
    | cons c rest => rw [scan, ih, List.drop_succ_cons]

/-- Where an occurrence is taken, the cut goes on after it. -/
theorem scan_taken {mode : CaseMode} {tags : List Text} {rest after : Text} {o : Occurrence}
    (taken : Occurrence.take? mode tags rest = some (o, after)) :
    scan mode tags 0 ('[' :: rest) = (scan mode tags 0 after).pushOccurrence o := by
  have left : rest.drop (rest.length - after.length) = after := Occurrence.drop_source taken
  simp only [scan, taken, if_true]
  rw [scan_drop, left]

/-- Where none is, the character belongs to the gap. -/
theorem scan_char {mode : CaseMode} {tags : List Text} {c : Char} {rest : Text}
    (free : c = '[' → Occurrence.take? mode tags rest = none) :
    scan mode tags 0 (c :: rest) = (scan mode tags 0 rest).pushChar c := by
  by_cases bracket : c = '['
  · simp [scan, bracket, free bracket]
  · simp [scan, bracket]

/-- Characters in front of a cut join its first gap. -/
def pushText (text : Text) : Segmentation → Segmentation
  | ⟨[], tail⟩ => ⟨[], text ++ tail⟩
  | ⟨(gap, o) :: rest, tail⟩ => ⟨(text ++ gap, o) :: rest, tail⟩

/-- A vacant text joins the gap that follows. -/
theorem scan_vacant {mode : CaseMode} {tags : List Text} {front : Text} (back : Text)
    (vacant : Vacant mode tags front back) :
    scan mode tags 0 (front ++ back) = (scan mode tags 0 back).pushText front := by
  induction front with
  | nil =>
    rw [List.nil_append]
    obtain ⟨pieces, tail⟩ := scan mode tags 0 back
    cases pieces <;> rfl
  | cons c rest ih =>
    obtain ⟨here, later⟩ := vacant
    rw [List.cons_append, scan_char here, ih later]
    obtain ⟨pieces, tail⟩ := scan mode tags 0 back
    cases pieces <;> rfl

/-- Pieces into which a text can be cut are those into which it is cut. -/
theorem ofText_textOf {mode : CaseMode} {tags : List Text} (named : ∀ tag ∈ tags, IsName tag)
    {pieces : List (Text × Occurrence)} {tail : Text} (cuts : Cuts mode tags pieces tail) :
    ofText mode tags (textOf pieces tail) = ⟨pieces, tail⟩ := by
  unfold ofText
  induction pieces with
  | nil =>
    have whole := scan_vacant [] cuts
    simpa [textOf, scan, plain, pushText] using whole
  | cons piece rest ih =>
    obtain ⟨gap, o⟩ := piece
    obtain ⟨vacant, stands, later⟩ := cuts
    have taken : Occurrence.take? mode tags (o.inner ++ textOf rest tail) = some (o, textOf rest tail) :=
      Occurrence.take?_stands named stands
    have occurrence : scan mode tags 0 (o.source ++ textOf rest tail) = ⟨([], o) :: rest, tail⟩ := by
      rw [o.source_eq, List.cons_append, scan_taken taken, ih later]
      rfl
    rw [textOf, scan_vacant _ vacant, occurrence]
    simp [pushText]

/-- A character joins the first gap if no occurrence starts at it. -/
theorem cuts_pushChar {mode : CaseMode} {tags : List Text} {c : Char} {s : Segmentation}
    (free : c = '[' → Occurrence.take? mode tags (textOf s.pieces s.tail) = none)
    (cuts : Cuts mode tags s.pieces s.tail) :
    Cuts mode tags (s.pushChar c).pieces (s.pushChar c).tail := by
  obtain ⟨pieces, tail⟩ := s
  cases pieces with
  | nil =>
    refine ⟨fun bracket => ?_, cuts⟩
    rw [List.append_nil]
    exact free bracket
  | cons piece rest =>
    obtain ⟨gap, o⟩ := piece
    obtain ⟨vacant, stands, later⟩ := cuts
    exact ⟨⟨free, vacant⟩, stands, later⟩

/-- Into its pieces a text can be cut. -/
theorem cuts_scan {mode : CaseMode} {tags : List Text} (named : ∀ tag ∈ tags, IsName tag) (passed : Nat)
    (text : Text) : Cuts mode tags (scan mode tags passed text).pieces (scan mode tags passed text).tail := by
  fun_induction scan mode tags passed text with
  | case1 => trivial
  | case2 passed c rest ih => exact ih
  | case3 rest o after taken ih =>
    have stands : o.Stands mode tags after := Occurrence.stands_take? named taken
    have left : textOf (scan mode tags (rest.length - after.length) rest).pieces
        (scan mode tags (rest.length - after.length) rest).tail = after := by
      rw [← toText_eq, toText_scan, Occurrence.drop_source taken]
    exact ⟨trivial, left.symm ▸ stands, ih⟩
  | case4 rest missed ih =>
    have whole : textOf (scan mode tags 0 rest).pieces (scan mode tags 0 rest).tail = rest := by
      rw [← toText_eq, toText_scan, List.drop_zero]
    exact cuts_pushChar (fun _ => whole.symm ▸ missed) ih
  | case5 c rest other ih => exact cuts_pushChar (fun bracket => absurd bracket other) ih

/-- The cut of a text consists of vacant gaps and standing occurrences that make up the text, and there is no
other such cut. -/
theorem ofText_eq_iff {mode : CaseMode} {tags : List Text} (named : ∀ tag ∈ tags, IsName tag) {text : Text}
    {s : Segmentation} :
    ofText mode tags text = s ↔ textOf s.pieces s.tail = text ∧ Cuts mode tags s.pieces s.tail := by
  constructor
  · rintro rfl
    refine ⟨?_, cuts_scan named 0 text⟩
    rw [← toText_eq, toText_ofText]
  · rintro ⟨rfl, cuts⟩
    exact ofText_textOf named cuts

/-- The pieces of a cut make up the text. -/
theorem textOf_ofText (mode : CaseMode) (tags : List Text) (text : Text) :
    textOf (ofText mode tags text).pieces (ofText mode tags text).tail = text :=
  (toText_eq _).symm.trans (toText_ofText mode tags text)

/-- A text that starts with a vacant gap and an occurrence that stands there is cut behind the occurrence, and then as
the rest is cut. -/
theorem ofText_vacant_source {mode : CaseMode} {tags : List Text} (named : ∀ tag ∈ tags, IsName tag)
    {front rest : Text} {o : Occurrence} (vacant : Vacant mode tags front (o.source ++ rest))
    (stands : o.Stands mode tags rest) :
    ofText mode tags (front ++ (o.source ++ rest)) =
      ⟨(front, o) :: (ofText mode tags rest).pieces, (ofText mode tags rest).tail⟩ := by
  rw [ofText_eq_iff named]
  simp only [textOf, Cuts, textOf_ofText]
  exact ⟨trivial, vacant, stands, cuts_scan named 0 rest⟩

/-- The source of an occurrence is written in the text that is cut. -/
theorem source_inside {pieces : List (Text × Occurrence)} (tail : Text) :
    ∀ piece ∈ pieces, piece.2.source <:+: textOf pieces tail := by
  induction pieces with
  | nil => simp
  | cons first others inductionHypothesis =>
    intro piece member
    cases List.mem_cons.mp member with
    | inl here => exact ⟨first.1, textOf others tail, by rw [here, textOf, List.append_assoc]⟩
    | inr later =>
      obtain ⟨before, after, whole⟩ := inductionHypothesis piece later
      exact ⟨first.1 ++ (first.2.source ++ before), after, by simp [textOf, ← whole]⟩

/-- Every occurrence of a cut stands somewhere. -/
theorem exists_stands_of_mem {mode : CaseMode} {tags : List Text} {pieces : List (Text × Occurrence)} {tail : Text}
    (cuts : Cuts mode tags pieces tail) : ∀ piece ∈ pieces, ∃ rest, piece.2.Stands mode tags rest := by
  induction pieces with
  | nil => simp
  | cons first others inductionHypothesis =>
    intro piece member
    rcases List.mem_cons.mp member with rfl | later
    · exact ⟨_, cuts.2.1⟩
    · exact inductionHypothesis cuts.2.2 piece later

end Segmentation
end MapEmbed.Shortcode
