import MapEmbed.Proofs.File.Encoding
import MapEmbed.Text.Edit

/-!
# Texts by byte positions

A position counts bytes of the UTF-8 form. A text can be cut at a position only if that lies at the start of a
character or at the end of the text; everywhere else a slice fails. The functions here fail where slices do, and the
laws say exactly when they do not: a cut at a position is a front of that many bytes and the rest. Edits that can be
applied with such slices are applied in the same way by the total function, which cuts anywhere.
-/

namespace MapEmbed.Text

/-! ### Sizes -/

/-- Only the empty text takes up no byte. -/
theorem eq_nil_of_byteSize {text : Text} (none_ : text.byteSize = 0) : text = [] := by
  cases text with
  | nil => rfl
  | cons c rest =>
    have positive := c.utf8Size_pos
    rw [byteSize_cons] at none_
    omega

/-- A front grows by the size of the character that joins it. -/
theorem byteSize_concat (front : Text) (c : Char) : byteSize (front ++ [c]) = front.byteSize + c.utf8Size := by
  rw [byteSize_append, byteSize_cons, byteSize_nil, Nat.add_zero]

/-- Of two fronts of a text the one with fewer bytes is a front of the other. -/
theorem exists_between {front back longer left : Text} (same : front ++ back = longer ++ left)
    (sizes : front.byteSize ≤ longer.byteSize) : ∃ between, longer = front ++ between ∧ back = between ++ left := by
  rcases List.append_eq_append_iff.mp same with ⟨between, whole, rest⟩ | ⟨between, whole, rest⟩
  · exact ⟨between, whole, rest⟩
  · have nothing : between = [] := by
      apply eq_nil_of_byteSize
      have added := congrArg byteSize whole
      rw [byteSize_append] at added
      omega
    subst nothing
    exact ⟨[], by simpa using whole.symm, by simpa using rest.symm⟩

/-- Two fronts of a text with as many bytes are the same. -/
theorem append_inj_of_byteSize {front back other left : Text} (same : front ++ back = other ++ left)
    (sizes : front.byteSize = other.byteSize) : front = other ∧ back = left := by
  obtain ⟨between, rfl, rfl⟩ := exists_between same (Nat.le_of_eq sizes)
  have nothing : between = [] := by
    apply eq_nil_of_byteSize
    rw [byteSize_append] at sizes
    omega
  simp [nothing]

/-! ### Slices -/

/-- Cuts a text at a position, which must not lie inside a character or beyond the end. -/
def splitAtByte? : Text → Nat → Option (Text × Text)
  | [], bytes => if bytes = 0 then some ([], []) else none
  | c :: rest, bytes =>
    if bytes = 0 then some ([], c :: rest)
    else if c.utf8Size ≤ bytes then
      (splitAtByte? rest (bytes - c.utf8Size)).map fun (front, back) => (c :: front, back)
    else none

/-- The text from a position on. -/
def dropBytes? (text : Text) (start : Nat) : Option Text :=
  (splitAtByte? text start).map Prod.snd

/-- The text between two positions. -/
def slice? (text : Text) (span : Span) : Option Text :=
  if span.start ≤ span.stop then
    (dropBytes? text span.start).bind fun back => (splitAtByte? back (span.stop - span.start)).map Prod.fst
  else none

/-- A text is cut behind any front of it. -/
theorem splitAtByte?_append (front back : Text) : splitAtByte? (front ++ back) front.byteSize = some (front, back) := by
  induction front with
  | nil => cases back <;> simp [splitAtByte?]
  | cons c rest inductionHypothesis =>
    have positive := c.utf8Size_pos
    have some_ : ¬c.utf8Size + byteSize rest = 0 := by omega
    rw [List.cons_append, byteSize_cons, splitAtByte?, if_neg some_, if_pos (Nat.le_add_right _ _),
      Nat.add_sub_cancel_left, inductionHypothesis, Option.map_some]

/-- A cut at a position is a front of that many bytes and the rest. -/
theorem splitAtByte?_eq_some_iff {text front back : Text} {bytes : Nat} :
    splitAtByte? text bytes = some (front, back) ↔ text = front ++ back ∧ front.byteSize = bytes := by
  constructor
  · intro cut
    induction text generalizing front bytes with
    | nil =>
      simp only [splitAtByte?, Option.ite_none_right_eq_some, Option.some.injEq, Prod.mk.injEq] at cut
      obtain ⟨rfl, rfl, rfl⟩ := cut
      exact ⟨rfl, rfl⟩
    | cons c rest inductionHypothesis =>
      simp only [splitAtByte?] at cut
      split at cut
      · rename_i none_
        simp only [Option.some.injEq, Prod.mk.injEq] at cut
        obtain ⟨rfl, rfl⟩ := cut
        exact ⟨rfl, none_.symm⟩
      · split at cut
        · obtain ⟨⟨inner, left⟩, found, same⟩ := Option.map_eq_some_iff.mp cut
          simp only [Prod.mk.injEq] at same
          obtain ⟨rfl, rfl⟩ := same
          obtain ⟨rfl, sizes⟩ := inductionHypothesis found
          refine ⟨rfl, ?_⟩
          rw [byteSize_cons]
          omega
        · simp at cut
  · rintro ⟨rfl, rfl⟩
    exact splitAtByte?_append front back

/-- Where a text can be cut, the total cut is the same. -/
theorem splitAtByte_of_splitAtByte? {text front back : Text} {bytes : Nat}
    (cut : splitAtByte? text bytes = some (front, back)) : splitAtByte text bytes = (front, back) := by
  obtain ⟨rfl, rfl⟩ := splitAtByte?_eq_some_iff.mp cut
  clear cut
  induction front with
  | nil => cases back <;> simp [splitAtByte]
  | cons c rest inductionHypothesis =>
    have positive := c.utf8Size_pos
    have some_ : ¬c.utf8Size + byteSize rest = 0 := by omega
    rw [List.cons_append, byteSize_cons, splitAtByte, if_neg some_, Nat.add_sub_cancel_left, inductionHypothesis]

/-- The text behind a front starts at the size of the front. -/
@[simp] theorem dropBytes?_append (front back : Text) : dropBytes? (front ++ back) front.byteSize = some back := by
  rw [dropBytes?, splitAtByte?_append, Option.map_some]

/-- A slice is what stands between a front and a rest, from the size of the front on. -/
theorem slice?_eq_some_iff {text inner : Text} {span : Span} :
    slice? text span = some inner ↔
      ∃ front back, text = front ++ (inner ++ back) ∧ span = ⟨front.byteSize, front.byteSize + inner.byteSize⟩ := by
  obtain ⟨start, stop⟩ := span
  constructor
  · intro sliced
    simp only [slice?, dropBytes?, Option.ite_none_right_eq_some, Option.bind_eq_some_iff, Option.map_eq_some_iff,
      Prod.exists] at sliced
    obtain ⟨ordered, behind, ⟨front, _, cut, rfl⟩, _, back, again, rfl⟩ := sliced
    obtain ⟨rfl, rfl⟩ := splitAtByte?_eq_some_iff.mp cut
    obtain ⟨rfl, sizes⟩ := splitAtByte?_eq_some_iff.mp again
    refine ⟨front, back, rfl, ?_⟩
    rw [sizes]
    congr
    omega
  · rintro ⟨front, back, rfl, same⟩
    obtain ⟨rfl, rfl⟩ := Span.mk.inj same
    simp [slice?, splitAtByte?_append]

/-- What stands between a front and a rest is the slice of its bytes. -/
theorem slice?_append (front inner back : Text) :
    slice? (front ++ (inner ++ back)) ⟨front.byteSize, front.byteSize + inner.byteSize⟩ = some inner :=
  slice?_eq_some_iff.mpr ⟨front, back, rfl, rfl⟩

/-- A slice behind a front is a front of what follows there. -/
theorem slice?_front_iff {front back inner : Text} {bytes : Nat} :
    slice? (front ++ back) ⟨front.byteSize, front.byteSize + bytes⟩ = some inner ↔
      inner.byteSize = bytes ∧ ∃ left, back = inner ++ left := by
  rw [slice?_eq_some_iff]
  constructor
  · rintro ⟨other, left, whole, same⟩
    obtain ⟨sizes, more⟩ := Span.mk.inj same
    obtain ⟨rfl, rfl⟩ := append_inj_of_byteSize whole sizes
    exact ⟨by omega, left, rfl⟩
  · rintro ⟨rfl, left, rfl⟩
    exact ⟨front, left, rfl, rfl⟩

/-- A character that starts inside a slice is one of the slice. -/
theorem mem_of_slice? {text inner before after : Text} {span : Span} {c : Char}
    (sliced : slice? text span = some inner) (whole : text = before ++ c :: after)
    (starts : span.start ≤ before.byteSize) (stops : before.byteSize < span.stop) : c ∈ inner := by
  obtain ⟨front, back, same, rfl⟩ := slice?_eq_some_iff.mp sliced
  obtain ⟨between, rfl, left⟩ := exists_between (same.symm.trans whole) starts
  rw [byteSize_append] at stops
  obtain ⟨more, rfl, first⟩ := exists_between left.symm (by simp only at stops; omega)
  cases more with
  | nil => simp at stops
  | cons d others =>
    obtain ⟨rfl, -⟩ := List.cons.inj first
    simp

/-! ### Single bytes -/

/-- The byte at a position. -/
def byteAt? (text : Text) (position : Nat) : Option UInt8 :=
  (Utf8.encode text)[position]?

/-- Whether the byte at a position is that of a seven-bit character. -/
def standsAt (text : Text) (position : Nat) (c : Char) : Bool :=
  byteAt? text position == some (UInt8.ofNat c.toNat)

/-- A text has as many bytes as its size says. -/
theorem length_encode (text : Text) : (Utf8.encode text).length = text.byteSize := by
  induction text with
  | nil => rfl
  | cons c rest inductionHypothesis =>
    have split : Utf8.encode (c :: rest) = String.utf8EncodeChar c ++ Utf8.encode rest := rfl
    rw [split, List.length_append, inductionHypothesis, String.length_utf8EncodeChar, byteSize_cons]

/-- The bytes behind a front are those of what follows. -/
theorem byteAt?_append (front back : Text) (position : Nat) :
    byteAt? (front ++ back) (front.byteSize + position) = byteAt? back position := by
  have split : Utf8.encode (front ++ back) = Utf8.encode front ++ Utf8.encode back := by simp [Utf8.encode]
  rw [byteAt?, split, ← length_encode, List.getElem?_append_right (Nat.le_add_right _ _), Nat.add_sub_cancel_left,
    byteAt?]

/-- There is a byte exactly before the end of the text. -/
theorem byteAt?_eq_none_iff {text : Text} {position : Nat} :
    byteAt? text position = none ↔ text.byteSize ≤ position := by
  rw [byteAt?, List.getElem?_eq_none_iff, length_encode]

/-- Where a character starts there is a byte. -/
theorem byteAt?_front (front rest : Text) (c : Char) : byteAt? (front ++ c :: rest) front.byteSize ≠ none := by
  have positive := c.utf8Size_pos
  rw [ne_eq, byteAt?_eq_none_iff, byteSize_append, byteSize_cons]
  omega

/-- The bytes of a character beyond seven bits are beyond seven bits. -/
theorem le_of_mem_utf8EncodeChar {c : Char} (wide : 128 ≤ c.toNat) {byte : UInt8}
    (member : byte ∈ String.utf8EncodeChar c) : 128 ≤ byte.toNat := by
  have wide : ¬c.val.toNat ≤ 127 := Nat.not_le.mpr wide
  simp only [String.utf8EncodeChar, wide, if_false] at member
  split at member
  · simp only [List.mem_cons, List.not_mem_nil, or_false] at member
    rcases member with rfl | rfl <;> simp only [UInt8.toNat_ofNat'] <;> omega
  · split at member
    · simp only [List.mem_cons, List.not_mem_nil, or_false] at member
      rcases member with rfl | rfl | rfl <;> simp only [UInt8.toNat_ofNat'] <;> omega
    · simp only [List.mem_cons, List.not_mem_nil, or_false] at member
      rcases member with rfl | rfl | rfl | rfl <;> simp only [UInt8.toNat_ofNat'] <;> omega

/-- At the start of a character the byte of a seven-bit character stands only if the character is that one. -/
theorem standsAt_front (front rest : Text) {c : Char} (small : c.toNat < 128) :
    standsAt (front ++ rest) front.byteSize c = (rest.head? == some c) := by
  have behind := byteAt?_append front rest 0
  rw [Nat.add_zero] at behind
  rw [standsAt, behind, byteAt?]
  cases rest with
  | nil => rfl
  | cons d others =>
    have split : Utf8.encode (d :: others) = String.utf8EncodeChar d ++ Utf8.encode others := rfl
    rw [split, List.head?_cons, Bool.eq_iff_iff, beq_iff_eq, beq_iff_eq, Option.some.injEq]
    by_cases ascii : d.toNat < 128
    · rw [Utf8.utf8EncodeChar_of_ascii ascii, List.cons_append, List.getElem?_cons_zero, Option.some.injEq]
      constructor
      · intro same
        have numbers := congrArg UInt8.toNat same
        simp only [UInt8.toNat_ofNat'] at numbers
        have equal : d.toNat = c.toNat := by omega
        rw [← Char.ofNat_toNat d, equal, Char.ofNat_toNat]
      · rintro rfl
        rfl
    · have first : 0 < (String.utf8EncodeChar d).length := by
        rw [String.length_utf8EncodeChar]
        exact d.utf8Size_pos
      rw [List.getElem?_append_left first, List.getElem?_eq_getElem first, Option.some.injEq]
      constructor
      · intro same
        have wide := le_of_mem_utf8EncodeChar (Nat.le_of_not_lt ascii) (List.getElem_mem first)
        rw [same, UInt8.toNat_ofNat'] at wide
        omega
      · rintro rfl
        exact absurd small ascii

/-- Behind a character stands the first of those that follow. -/
theorem standsAt_next (front rest : Text) (c : Char) {d : Char} (small : d.toNat < 128) :
    standsAt (front ++ c :: rest) (front.byteSize + c.utf8Size) d = (rest.head? == some d) := by
  have behind := standsAt_front (front ++ [c]) rest small
  rwa [byteSize_concat, List.append_assoc, List.singleton_append] at behind

/-- Inside a character no seven-bit character stands. -/
theorem standsAt_inside (front rest : Text) {c d : Char} (small : c.toNat < 128) {position : Nat}
    (after : 0 < position) (inside : position < d.utf8Size) :
    standsAt (front ++ d :: rest) (front.byteSize + position) c = false := by
  have wide : 128 ≤ d.toNat := by
    apply Nat.le_of_not_lt
    intro ascii
    have size := congrArg List.length (Utf8.utf8EncodeChar_of_ascii ascii)
    rw [String.length_utf8EncodeChar, List.length_singleton] at size
    omega
  have split : Utf8.encode (d :: rest) = String.utf8EncodeChar d ++ Utf8.encode rest := rfl
  have within : position < (String.utf8EncodeChar d).length := by rwa [String.length_utf8EncodeChar]
  rw [standsAt, byteAt?_append, byteAt?, split, List.getElem?_append_left within, List.getElem?_eq_getElem within]
  apply Bool.eq_false_iff.mpr
  intro same
  have byte := le_of_mem_utf8EncodeChar wide (List.getElem_mem within)
  rw [beq_iff_eq, Option.some.injEq] at same
  rw [same, UInt8.toNat_ofNat'] at byte
  omega

/-! ### Searching -/

/-- The position of the first place where a word stands. -/
def offsetOf? (word : Text) : Text → Option Nat
  | [] => if word.isEmpty then some 0 else none
  | c :: rest => if word.isPrefixOf (c :: rest) then some 0 else (offsetOf? word rest).map (c.utf8Size + ·)

/-! ### Edits -/

/-- Applies edits to a text, copying from a position on, with slices that may fail. -/
def applyEditsFrom? (text : Text) (last : Nat) : List Edit → Option Text
  | [] => dropBytes? text last
  | edit :: rest => do
    let kept ← slice? text ⟨last, edit.span.start⟩
    let later ← applyEditsFrom? text edit.span.stop rest
    return kept ++ (edit.replacement ++ later)

/-- Applies edits in one pass from left to right, with slices that may fail. -/
def applyEdits? (text : Text) (edits : List Edit) : Option Text :=
  applyEditsFrom? text 0 edits

/-- Copying that goes on from a position succeeds only if the text can be cut there. -/
theorem exists_front_of_applyEditsFrom? {text out : Text} {last : Nat} {edits : List Edit}
    (applied : applyEditsFrom? text last edits = some out) : ∃ front back, text = front ++ back ∧ front.byteSize = last := by
  cases edits with
  | nil =>
    obtain ⟨⟨front, back⟩, cut, -⟩ := Option.map_eq_some_iff.mp applied
    exact ⟨front, back, splitAtByte?_eq_some_iff.mp cut⟩
  | cons edit rest =>
    obtain ⟨kept, sliced, -⟩ := Option.bind_eq_some_iff.mp applied
    obtain ⟨front, back, whole, same⟩ := slice?_eq_some_iff.mp sliced
    exact ⟨front, kept ++ back, whole, (Span.mk.inj same).1.symm⟩

/-- Edits that can be applied with slices are applied in the same way to the text that is left. -/
theorem applyEditsFrom_of_applyEditsFrom? {front rest out : Text} {edits : List Edit}
    (forward : ∀ edit ∈ edits, edit.span.start ≤ edit.span.stop)
    (applied : applyEditsFrom? (front ++ rest) front.byteSize edits = some out) :
    applyEditsFrom front.byteSize rest edits = out := by
  induction edits generalizing front rest out with
  | nil => simpa [applyEditsFrom?, applyEditsFrom] using applied
  | cons edit others inductionHypothesis =>
    obtain ⟨⟨start, stop⟩, replacement⟩ := edit
    have ordered : start ≤ stop := forward _ List.mem_cons_self
    obtain ⟨kept, sliced, applied⟩ := Option.bind_eq_some_iff.mp applied
    obtain ⟨later, further, same⟩ := Option.bind_eq_some_iff.mp applied
    obtain ⟨other, left, whole, places⟩ := slice?_eq_some_iff.mp sliced
    obtain ⟨sizes, starts⟩ := Span.mk.inj places
    obtain ⟨rfl, rfl⟩ := append_inj_of_byteSize whole sizes
    simp only at starts
    obtain ⟨long, back, split, stops⟩ := exists_front_of_applyEditsFrom? further
    rw [← List.append_assoc] at split
    obtain ⟨removed, rfl, rfl⟩ := exists_between split (by simp only [byteSize_append, ← starts, stops]; exact ordered)
    simp only [byteSize_append] at stops
    have cut : splitAtByte (kept ++ (removed ++ back)) (start - front.byteSize) = (kept, removed ++ back) := by
      apply splitAtByte_of_splitAtByte?
      rw [starts, Nat.add_sub_cancel_left, splitAtByte?_append]
    have again : splitAtByte (removed ++ back) (stop - start) = (removed, back) := by
      apply splitAtByte_of_splitAtByte?
      rw [← stops, starts, Nat.add_sub_cancel_left, splitAtByte?_append]
    have position : (front ++ kept ++ removed).byteSize = stop := by simp only [byteSize_append, stops]
    have parts : front ++ (kept ++ (removed ++ back)) = (front ++ kept ++ removed) ++ back := by simp
    simp only at further
    rw [parts, ← position] at further
    have tail := inductionHypothesis (fun edit member => forward edit (List.mem_cons_of_mem _ member)) further
    rw [position] at tail
    simp only [applyEditsFrom, cut, again, tail]
    simpa using same

/-- Edits that can be applied with slices are applied in the same way without. -/
theorem applyEdits_of_applyEdits? {text out : Text} {edits : List Edit}
    (forward : ∀ edit ∈ edits, edit.span.start ≤ edit.span.stop) (applied : applyEdits? text edits = some out) :
    applyEdits text edits = out :=
  @applyEditsFrom_of_applyEditsFrom? [] text out edits forward applied

end MapEmbed.Text
