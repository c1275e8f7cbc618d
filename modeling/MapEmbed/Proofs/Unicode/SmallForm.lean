import Mathlib.Data.List.Sort
import MapEmbed.Unicode.Letter
import MapEmbed.Unicode.Class

/-!
# Small forms are final

Lowering a text twice is lowering it once, and a word stays a word. Both are facts about the table of case runs.
They are checked run by run and not point by point: where the images of a run lie is decided by their bounds, and
where the bounds of two runs overlap, by their parity. The tables are in order, so one pass over them is enough if the
runs are taken in the order of their images.
-/

namespace MapEmbed.Unicode

namespace CaseRun

/-- The image of the first code point of a run. -/
def lowest (run : CaseRun) : Nat := ((run.first : Int) + run.shift).toNat

/-- The image of the last code point of a run. -/
def highest (run : CaseRun) : Nat := ((run.last : Int) + run.shift).toNat

/-- A run that holds every second code point, or only one, has images of one parity. -/
def alternates (run : CaseRun) : Bool := Nat.blt 0 run.lowest && (run.stride == 2 || run.first == run.last)

/-- No image of a run is held by another one: the bounds are apart, or every image has the other parity. -/
def misses (run other : CaseRun) : Bool :=
  Nat.blt run.highest other.first || Nat.blt other.last run.lowest ||
    (run.alternates && other.stride == 2 && (run.lowest + other.first) % 2 == 1)

/-- Every image of a run is the code point of a character. -/
def landsOnCharacters (run : CaseRun) : Bool :=
  Nat.blt run.highest 0xD800 || (Nat.blt 0xDFFF run.lowest && Nat.blt run.highest 0x110000)

/-- The images of a run lie between those of its ends. -/
theorem image?_bounds {run : CaseRun} {point image : Nat} (found : run.image? point = some image) :
    run.lowest ≤ image ∧ image ≤ run.highest := by
  simp only [image?, Option.ite_none_right_eq_some, Option.some.injEq] at found
  obtain ⟨⟨lower, upper, -⟩, rfl⟩ := found
  unfold lowest highest
  constructor
  · omega
  · omega

/-- The images of an alternating run have the parity of the lowest one. -/
theorem image?_parity {run : CaseRun} {point image : Nat} (alternating : run.alternates = true)
    (found : run.image? point = some image) : image % 2 = run.lowest % 2 := by
  simp only [image?, Option.ite_none_right_eq_some, Option.some.injEq] at found
  obtain ⟨⟨lower, upper, step⟩, rfl⟩ := found
  simp only [alternates, Bool.and_eq_true, Bool.or_eq_true, beq_iff_eq, Nat.blt_eq] at alternating
  obtain ⟨positive, two | single⟩ := alternating
  · rw [two] at step
    unfold lowest at positive ⊢
    omega
  · have only : point = run.first := by omega
    rw [only, lowest]

/-- The code point of an image is that of a character. -/
theorem isValidChar_image {run : CaseRun} {point image : Nat} (lands : run.landsOnCharacters = true)
    (found : run.image? point = some image) : image.isValidChar := by
  obtain ⟨low, high⟩ := image?_bounds found
  simp only [landsOnCharacters, Bool.or_eq_true, Bool.and_eq_true, Nat.blt_eq] at lands
  unfold Nat.isValidChar
  omega

/-- A run that misses another maps nothing into it. -/
theorem image?_eq_none_of_misses {run other : CaseRun} {point image : Nat} (apart : run.misses other = true)
    (found : run.image? point = some image) : other.image? image = none := by
  obtain ⟨low, high⟩ := image?_bounds found
  simp only [misses, Bool.or_eq_true, Bool.and_eq_true, beq_iff_eq, Nat.blt_eq] at apart
  simp only [image?, ite_eq_right_iff, reduceCtorEq, imp_false]
  rintro ⟨lower, upper, step⟩
  obtain (below | above) | ⟨⟨alternating, two⟩, odd⟩ := apart
  · omega
  · omega
  · have parity := image?_parity alternating found
    rw [two] at step
    omega

end CaseRun

/-- Whether one of the ranges holds everything between two code points. -/
def Ranges.covers : Ranges → Nat → Nat → Bool
  | [], _, _ => false
  | (low, high) :: rest, first, last => Nat.ble low first && (Nat.ble last high || covers rest first last)

/-- Every code point between the two is found. -/
theorem Ranges.includes_of_covers {ranges : Ranges} {first last point : Nat}
    (covered : ranges.covers first last = true) (lower : first ≤ point) (upper : point ≤ last) :
    ranges.includes point = true := by
  induction ranges with
  | nil => simp [covers] at covered
  | cons range rest inductionHypothesis =>
    obtain ⟨low, high⟩ := range
    simp only [covers, Bool.and_eq_true, Bool.or_eq_true, Nat.ble_eq] at covered
    obtain ⟨above, here | later⟩ := covered
    · rw [includes, if_neg (by omega), if_pos (by omega)]
    · rw [includes, if_neg (by omega), inductionHypothesis later, ite_self]

namespace CaseRun

/-- The number of steps from the first to the last code point of a run. -/
def steps (run : CaseRun) : Nat := (run.last - run.first) / run.stride

/-- Every image of a run is found in the ranges: one of them holds them all, or each is found on its own. -/
def landsIn (run : CaseRun) (ranges : Ranges) : Bool :=
  ranges.covers run.lowest run.highest ||
    (Nat.blt 0 run.lowest && (List.range (run.steps + 1)).all fun step =>
      ranges.covers (run.lowest + step * run.stride) (run.lowest + step * run.stride))

/-- The image of a run that lands in the ranges is found there. -/
theorem includes_image {run : CaseRun} {ranges : Ranges} {point image : Nat} (lands : run.landsIn ranges = true)
    (found : run.image? point = some image) : ranges.includes image = true := by
  simp only [landsIn, Bool.or_eq_true, Bool.and_eq_true, List.all_eq_true, List.mem_range, Nat.blt_eq] at lands
  obtain covered | ⟨positive, each⟩ := lands
  · obtain ⟨low, high⟩ := image?_bounds found
    exact Ranges.includes_of_covers covered low high
  · simp only [image?, Option.ite_none_right_eq_some, Option.some.injEq] at found
    obtain ⟨⟨lower, upper, step⟩, rfl⟩ := found
    have counted := each ((point - run.first) / run.stride)
      (Nat.lt_succ_of_le (Nat.div_le_div_right (by omega)))
    have distance := Nat.div_mul_cancel (Nat.dvd_of_mod_eq_zero step)
    rw [distance] at counted
    have same : ((point : Int) + run.shift).toNat = run.lowest + (point - run.first) := by
      unfold lowest at positive ⊢
      omega
    rw [same]
    exact Ranges.includes_of_covers counted (Nat.le_refl _) (Nat.le_refl _)

/-! ### One pass over a table -/

/-- Runs in the order of a number that each of them has. -/
def inOrder (key : CaseRun → Nat) (runs : List CaseRun) : List CaseRun :=
  runs.insertionSort fun run other => key run ≤ key other

/-- The order is that of the numbers. -/
theorem pairwise_inOrder (key : CaseRun → Nat) (runs : List CaseRun) :
    (inOrder key runs).Pairwise fun run other => key run ≤ key other := by
  have total : Std.Total fun run other : CaseRun => key run ≤ key other :=
    ⟨fun run other => Nat.le_total (key run) (key other)⟩
  have transitive : IsTrans CaseRun fun run other => key run ≤ key other :=
    ⟨fun _ _ _ => Nat.le_trans⟩
  exact List.pairwise_insertionSort _ runs

/-- Whether each run passes with what is ahead of it. What is behind one run is behind those after it. -/
def sweep {α : Type} (behind : CaseRun → α → Bool) (passes : CaseRun → List α → Bool) :
    List CaseRun → List α → Bool
  | [], _ => true
  | run :: rest, items =>
    passes run (items.dropWhile (behind run)) && sweep behind passes rest (items.dropWhile (behind run))

/-- What a pass over a table has checked: each run with all of the table but a part that is behind it. -/
theorem exists_ahead_of_sweep {α : Type} {behind : CaseRun → α → Bool} {passes : CaseRun → List α → Bool}
    {runs : List CaseRun} {items : List α}
    (ordered : runs.Pairwise fun run other => ∀ item, behind run item = true → behind other item = true)
    (swept : sweep behind passes runs items = true) {run : CaseRun} (listed : run ∈ runs) :
    ∃ left ahead, items = left ++ ahead ∧ (∀ item ∈ left, behind run item = true) ∧ passes run ahead = true := by
  induction runs generalizing items with
  | nil => simp at listed
  | cons first rest inductionHypothesis =>
    simp only [sweep, Bool.and_eq_true] at swept
    obtain ⟨passed, later⟩ := swept
    obtain ⟨before, remaining⟩ := List.pairwise_cons.mp ordered
    have split : items = items.takeWhile (behind first) ++ items.dropWhile (behind first) :=
      (List.takeWhile_append_dropWhile).symm
    obtain rfl | deeper := List.mem_cons.mp listed
    · exact ⟨_, _, split, fun item member => List.all_eq_true.mp List.all_takeWhile item member, passed⟩
    · obtain ⟨left, ahead, parts, past, holds⟩ := inductionHypothesis remaining later deeper
      refine ⟨items.takeWhile (behind first) ++ left, ahead, ?_, ?_, holds⟩
      · rw [List.append_assoc, ← parts]
        exact split
      · intro item member
        obtain early | late := List.mem_append.mp member
        · exact before run deeper item (List.all_eq_true.mp List.all_takeWhile item early)
        · exact past item late

/-- A range that ends below the images of a run. -/
def isAbove (run : CaseRun) (range : Nat × Nat) : Bool :=
  Nat.ble range.1 range.2 && Nat.blt range.2 run.lowest

/-- Ranges below a point do not hold it. -/
theorem includes_append {left ahead : Ranges} {run : CaseRun} {point : Nat} (lower : run.lowest ≤ point)
    (past : ∀ range ∈ left, run.isAbove range = true) :
    Ranges.includes (left ++ ahead) point = Ranges.includes ahead point := by
  induction left with
  | nil => rfl
  | cons range rest inductionHypothesis =>
    obtain ⟨low, high⟩ := range
    have here := past (low, high) List.mem_cons_self
    simp only [isAbove, Bool.and_eq_true, Nat.ble_eq, Nat.blt_eq] at here
    rw [List.cons_append, Ranges.includes, if_neg (by omega), if_neg (by omega)]
    exact inductionHypothesis fun other member => past other (List.mem_cons_of_mem _ member)

/-- Of the runs in the order of their first code points, none holds an image of the given run. -/
def clears (run : CaseRun) : List CaseRun → Bool
  | [] => true
  | other :: rest => Nat.blt run.highest other.first || (run.misses other && run.clears rest)

/-- A run that clears others in order misses each of them: behind the first one above it, all are above it. -/
theorem misses_of_clears {run : CaseRun} {others : List CaseRun}
    (ordered : others.Pairwise fun first second => first.first ≤ second.first) (cleared : run.clears others = true)
    {other : CaseRun} (listed : other ∈ others) : run.misses other = true := by
  induction others with
  | nil => simp at listed
  | cons next rest inductionHypothesis =>
    obtain ⟨before, remaining⟩ := List.pairwise_cons.mp ordered
    simp only [clears, Bool.or_eq_true, Bool.and_eq_true, Nat.blt_eq] at cleared
    obtain above | ⟨missed, later⟩ := cleared
    · have start : next.first ≤ other.first := by
        obtain rfl | deeper := List.mem_cons.mp listed
        · exact Nat.le_refl _
        · exact before other deeper
      simp only [misses, Bool.or_eq_true, Nat.blt_eq]
      omega
    · obtain rfl | deeper := List.mem_cons.mp listed
      · exact missed
      · exact inductionHypothesis remaining later deeper

end CaseRun

/-- The runs of the table, and the one character that changes outside of them. -/
def changingRuns : List CaseRun := ⟨0x130, 0x130, 1, 0⟩ :: lowerRuns

/-- The runs in the order of their images. -/
def runsByImage : List CaseRun := CaseRun.inOrder CaseRun.lowest lowerRuns

/-- Every image of a run is a letter. -/
theorem landsIn_checked :
    CaseRun.sweep CaseRun.isAbove CaseRun.landsIn runsByImage alphabetic = true := by
  decide +kernel

/-- No image of a run changes again. -/
theorem clears_checked :
    CaseRun.sweep (fun run other => Nat.blt other.last run.lowest) CaseRun.clears runsByImage
      (CaseRun.inOrder CaseRun.first changingRuns) = true := by
  decide +kernel

/-- Every image of a run is a character. -/
theorem landsOnCharacters_checked : lowerRuns.all CaseRun.landsOnCharacters = true := by
  decide

/-- A run of the table stands in the order of the images, too. -/
theorem mem_runsByImage {run : CaseRun} (listed : run ∈ lowerRuns) : run ∈ runsByImage :=
  (List.mem_insertionSort _).mpr listed

/-- The image of a code point under a run of the table is a letter. -/
theorem includes_of_mem_lowerRuns {run : CaseRun} {point image : Nat} (listed : run ∈ lowerRuns)
    (maps : run.image? point = some image) : alphabetic.includes image = true := by
  have ordered : runsByImage.Pairwise fun run next =>
      ∀ range, run.isAbove range = true → next.isAbove range = true := by
    refine (CaseRun.pairwise_inOrder CaseRun.lowest lowerRuns).imp ?_
    intro run next order range above
    simp only [CaseRun.isAbove, Bool.and_eq_true, Nat.ble_eq, Nat.blt_eq] at above ⊢
    omega
  obtain ⟨left, ahead, parts, past, lands⟩ :=
    CaseRun.exists_ahead_of_sweep ordered landsIn_checked (mem_runsByImage listed)
  rw [parts, CaseRun.includes_append (CaseRun.image?_bounds maps).1 past]
  exact CaseRun.includes_image lands maps

/-- A run of the table misses everything that changes. -/
theorem misses_of_mem_lowerRuns {run other : CaseRun} (listed : run ∈ lowerRuns) (held : other ∈ changingRuns) :
    run.misses other = true := by
  have ordered : runsByImage.Pairwise fun run next =>
      ∀ other : CaseRun, Nat.blt other.last run.lowest = true → Nat.blt other.last next.lowest = true := by
    refine (CaseRun.pairwise_inOrder CaseRun.lowest lowerRuns).imp ?_
    intro run next order other below
    rw [Nat.blt_eq] at below ⊢
    omega
  obtain ⟨left, ahead, parts, past, cleared⟩ :=
    CaseRun.exists_ahead_of_sweep ordered clears_checked (mem_runsByImage listed)
  have sorted := CaseRun.pairwise_inOrder CaseRun.first changingRuns
  have member : other ∈ left ++ ahead := parts ▸ (List.mem_insertionSort _).mpr held
  obtain early | late := List.mem_append.mp member
  · simp [CaseRun.misses, past other early]
  · rw [parts] at sorted
    exact CaseRun.misses_of_clears (List.pairwise_append.mp sorted).2.1 cleared late

/-- A code point of a character is kept by the character. -/
theorem toNat_ofNat {point : Nat} (valid : point.isValidChar) : (Char.ofNat point).toNat = point := by
  unfold Char.ofNat
  rw [dif_pos valid]
  rfl

/-- The form of a character that lowering leaves as it is. -/
def isSmall (c : Char) : Prop :=
  lowerChar c = [c] ∧ c.toNat ≠ 0x3A3

/-- A seven-bit letter is small if the first run does not hold it. -/
theorem asciiLower_eq_self {c : Char} (outside : ¬(0x41 ≤ c.toNat ∧ c.toNat ≤ 0x5A)) : asciiLower c = c := by
  rw [asciiLower, if_neg]
  simp only [Bool.and_eq_true, decide_eq_true_eq, Char.le_def, UInt32.le_iff_toNat_le]
  exact outside

/-- A character that no run holds, and that is not the dotted capital, is small. -/
theorem isSmall_of_unchanged {c : Char} (unchanged : ∀ run ∈ changingRuns, run.image? c.toNat = none) : isSmall c := by
  have inTable : ∀ run ∈ lowerRuns, run.image? c.toNat = none := by
    intro run listed
    exact unchanged run (List.mem_cons_of_mem _ listed)
  have capital : ¬(0x41 ≤ c.toNat ∧ c.toNat ≤ 0x5A) := by
    have first := inTable ⟨0x41, 0x5A, 1, 32⟩ (by decide)
    simpa [CaseRun.image?, Nat.mod_one] using first
  have sigma : ¬(0x3A3 ≤ c.toNat ∧ c.toNat ≤ 0x3AB) := by
    have greek := inTable ⟨0x3A3, 0x3AB, 1, 32⟩ (by decide)
    simpa [CaseRun.image?, Nat.mod_one] using greek
  have dotted : c.toNat ≠ 0x130 := by
    have alone := unchanged ⟨0x130, 0x130, 1, 0⟩ (by simp [changingRuns])
    simp only [CaseRun.image?, Nat.mod_one, and_true, ite_eq_right_iff, reduceCtorEq, imp_false] at alone
    omega
  refine ⟨?_, by omega⟩
  by_cases ascii : c.toNat < 128
  · rw [lowerChar_of_ascii ascii, asciiLower_eq_self capital]
  · have none : caseForm? lowerRuns c.toNat = none := List.findSome?_eq_none_iff.mpr inTable
    simp only [lowerChar, ascii, dotted, if_false, none]

/-- The image of a code point under the table is a small letter. -/
theorem isSmall_image {point image : Nat} (found : caseForm? lowerRuns point = some image) :
    isSmall (Char.ofNat image) ∧ alphabetic.includes (Char.ofNat image).toNat = true := by
  obtain ⟨run, listed, maps⟩ := List.exists_of_findSome?_eq_some found
  have character := List.all_eq_true.mp landsOnCharacters_checked run listed
  have code : (Char.ofNat image).toNat = image := toNat_ofNat (CaseRun.isValidChar_image character maps)
  constructor
  · apply isSmall_of_unchanged
    intro other held
    rw [code]
    exact CaseRun.image?_eq_none_of_misses (misses_of_mem_lowerRuns listed held) maps
  · rw [code]
    exact includes_of_mem_lowerRuns listed maps

/-- An alphabetic character may stand in a word. -/
theorem isWordChar_of_alphabetic {c : Char} (letter : alphabetic.includes c.toNat = true) : isWordChar c = true := by
  by_cases ascii : c.toNat < 128
  · have small : ∀ point, point < 128 → alphabetic.includes point = true →
        isWordChar (Char.ofNat point) = true := by decide
    simpa using small c.toNat ascii letter
  · simp [isWordChar, ascii, letter]

/-- Every character of a small form is small. -/
theorem isSmall_of_mem_lowerChar {c small : Char} (member : small ∈ lowerChar c) : isSmall small := by
  unfold lowerChar at member
  split at member
  · rename_i ascii
    rw [List.mem_singleton] at member
    subst member
    have points : ∀ point, point < 128 →
        lowerChar (asciiLower (Char.ofNat point)) = [asciiLower (Char.ofNat point)] ∧
          (asciiLower (Char.ofNat point)).toNat ≠ 0x3A3 := by decide
    simpa [isSmall] using points c.toNat ascii
  · split at member
    · simp only [List.mem_cons, List.not_mem_nil, or_false] at member
      rcases member with rfl | rfl
      · exact ⟨by decide, by decide⟩
      · exact ⟨by decide, by decide⟩
    · rename_i dotted
      split at member
      · rename_i image found
        rw [List.mem_singleton] at member
        subst member
        exact (isSmall_image found).1
      · rename_i missing
        rw [List.mem_singleton] at member
        subst member
        refine ⟨?_, ?_⟩
        · simp only [lowerChar, *, if_false]
        · intro sigma
          rw [sigma] at missing
          revert missing
          decide

/-- The small form of a word character is made of word characters. -/
theorem isWordChar_of_mem_lowerChar {c small : Char} (word : isWordChar c = true) (member : small ∈ lowerChar c) :
    isWordChar small = true := by
  unfold lowerChar at member
  split at member
  · rename_i ascii
    rw [List.mem_singleton] at member
    subst member
    have points : ∀ point, point < 128 → isWordChar (Char.ofNat point) = true →
        isWordChar (asciiLower (Char.ofNat point)) = true := by decide
    have known := points c.toNat ascii
    rw [Char.ofNat_toNat] at known
    exact known word
  · split at member
    · simp only [List.mem_cons, List.not_mem_nil, or_false] at member
      rcases member with rfl | rfl
      · decide
      · decide
    · split at member
      · rename_i image found
        rw [List.mem_singleton] at member
        subst member
        exact isWordChar_of_alphabetic (isSmall_image found).2
      · rw [List.mem_singleton] at member
        exact member ▸ word

/-- A small form has a character. -/
theorem lowerChar_ne_nil (c : Char) : lowerChar c ≠ [] := by
  unfold lowerChar
  repeat' split
  all_goals simp

/-- Where the characters of a lowered text come from: a sigma has two forms, any other character its own. -/
theorem exists_of_mem_lowerFrom {before text : List Char} {small : Char} (member : small ∈ lowerFrom before text) :
    ∃ c ∈ text, small = Char.ofNat 0x3C2 ∨ small = Char.ofNat 0x3C3 ∨ small ∈ lowerChar c := by
  induction text generalizing before with
  | nil => simp [lowerFrom] at member
  | cons c rest inductionHypothesis =>
    simp only [lowerFrom, List.mem_append] at member
    obtain here | later := member
    · refine ⟨c, List.mem_cons_self, ?_⟩
      split at here
      · rw [List.mem_singleton] at here
        split at here
        · exact Or.inl here
        · exact Or.inr (Or.inl here)
      · exact Or.inr (Or.inr here)
    · obtain ⟨source, listed, form⟩ := inductionHypothesis later
      exact ⟨source, List.mem_cons_of_mem _ listed, form⟩

/-- Every character of a lowered text is small. -/
theorem isSmall_of_mem_lower {text : List Char} {small : Char} (member : small ∈ lower text) : isSmall small := by
  obtain ⟨c, _, rfl | rfl | form⟩ := exists_of_mem_lowerFrom member
  · exact ⟨by decide, by decide⟩
  · exact ⟨by decide, by decide⟩
  · exact isSmall_of_mem_lowerChar form

/-- A text of small characters is lowered already, whatever stands before it. -/
theorem lowerFrom_of_isSmall (before : List Char) {text : List Char} (small : ∀ c ∈ text, isSmall c) :
    lowerFrom before text = text := by
  induction text generalizing before with
  | nil => rfl
  | cons c rest inductionHypothesis =>
    obtain ⟨own, noSigma⟩ := small c List.mem_cons_self
    have later := inductionHypothesis (c :: before) fun d member => small d (List.mem_cons_of_mem c member)
    simp only [lowerFrom, noSigma, if_false, own, later, List.singleton_append]

/-- Lowering twice is lowering once. -/
theorem lower_lower (text : List Char) : lower (lower text) = lower text :=
  lowerFrom_of_isSmall [] fun _ member => isSmall_of_mem_lower member

/-- Only the empty text has an empty small form. -/
theorem lower_eq_nil_iff {text : List Char} : lower text = [] ↔ text = [] := by
  constructor
  · intro empty
    cases text with
    | nil => rfl
    | cons c rest =>
      simp only [lower, lowerFrom, List.append_eq_nil_iff] at empty
      obtain ⟨head, -⟩ := empty
      split at head
      · simp at head
      · exact absurd head (lowerChar_ne_nil c)
  · rintro rfl
    rfl

/-- The code points of the blanks. -/
def blankPoints : List Nat :=
  whiteSpace.flatMap fun (low, high) => (List.range (high + 1 - low)).map (low + ·)

/-- A blank is one of them. -/
theorem mem_blankPoints {c : Char} (blank : isBlank c = true) : c.toNat ∈ blankPoints := by
  obtain ⟨⟨low, high⟩, listed, lower, upper⟩ := Ranges.exists_of_includes blank
  refine List.mem_flatMap.mpr ⟨(low, high), listed, ?_⟩
  refine List.mem_map.mpr ⟨c.toNat - low, ?_, ?_⟩
  · rw [List.mem_range]
    omega
  · simp only at lower
    omega

/-- No blank stands in a word. -/
theorem isWordChar_of_isBlank {c : Char} (blank : isBlank c = true) : isWordChar c = false := by
  have points : ∀ point ∈ blankPoints, isWordChar (Char.ofNat point) = false := by decide +kernel
  have known := points c.toNat (mem_blankPoints blank)
  rwa [Char.ofNat_toNat] at known

/-- No blank is a letter or a numeral. -/
theorem isAlphanumeric_of_isBlank {c : Char} (blank : isBlank c = true) : isAlphanumeric c = false := by
  have points : ∀ point ∈ blankPoints, isAlphanumeric (Char.ofNat point) = false := by decide +kernel
  have known := points c.toNat (mem_blankPoints blank)
  rwa [Char.ofNat_toNat] at known

end MapEmbed.Unicode
