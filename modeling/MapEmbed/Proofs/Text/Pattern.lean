import Mathlib.Data.List.Basic
import MapEmbed.Text.Basic

/-!
# Patterns

Patterns of character classes with numbered captures, read leftmost first: alternatives are tried in order, a class is
repeated as often as it can be, and a shorter repetition is tried only if what follows cannot be read. All readings of
a pattern at the front of a text stand in a list in that order. A search takes the first reading at the first place
where there is one, and goes on behind what was taken. It is meant for patterns that take at least one character.
-/

namespace MapEmbed

/-- A pattern of character classes. -/
inductive Pattern where
  /-- One character of a class. -/
  | one (test : Char → Bool)
  /-- Any number of characters of a class, rather more than fewer. -/
  | many (test : Char → Bool)
  /-- Nothing, and only where the text ends. -/
  | atEnd
  /-- One pattern and then another. -/
  | seq (first second : Pattern)
  /-- Either of two patterns, rather the first. -/
  | either (first second : Pattern)
  /-- A pattern whose text is captured under a number. -/
  | capture (group : Nat) (inner : Pattern)

namespace Pattern

/-- At least one character of a class. -/
def atLeastOne (test : Char → Bool) : Pattern :=
  seq (one test) (many test)

/-- One way to read a pattern at the front of a text. -/
structure Reading where
  /-- The text that the pattern takes. -/
  taken : Text
  /-- The captured texts with their numbers, in the order in which the captures open. -/
  captures : List (Nat × Text)
  /-- The text behind. -/
  rest : Text
  deriving DecidableEq, Repr

/-- A reading and then another of what is behind it. -/
def Reading.followedBy (first second : Reading) : Reading :=
  ⟨first.taken ++ second.taken, first.captures ++ second.captures, second.rest⟩

/-- A reading of one more character in front. -/
def Reading.push (c : Char) (r : Reading) : Reading :=
  ⟨c :: r.taken, r.captures, r.rest⟩

/-- The readings of a repeated class, the longest first. -/
def runs (test : Char → Bool) : Text → List Reading
  | [] => [⟨[], [], []⟩]
  | c :: rest =>
    if test c then (runs test rest).map (Reading.push c) ++ [⟨[], [], c :: rest⟩] else [⟨[], [], c :: rest⟩]

/-- The readings of a pattern at the front of a text, the preferred one first. -/
def readings : Pattern → Text → List Reading
  | one _, [] => []
  | one test, c :: rest => if test c then [⟨[c], [], rest⟩] else []
  | many test, text => runs test text
  | atEnd, text => if text.isEmpty then [⟨[], [], []⟩] else []
  | seq first second, text => (first.readings text).flatMap fun r => (second.readings r.rest).map r.followedBy
  | either first second, text => first.readings text ++ second.readings text
  | capture group inner, text =>
    (inner.readings text).map fun r => { r with captures := (group, r.taken) :: r.captures }

section
variable (test : Char → Bool) (text : Text)

/-- A class is repeated with a character that is of it, or not at all. -/
theorem runs_cons (c : Char) (rest : Text) : runs test (c :: rest) =
    if test c then (runs test rest).map (Reading.push c) ++ [⟨[], [], c :: rest⟩] else [⟨[], [], c :: rest⟩] :=
  rfl

/-- A character of a class is read where one stands. -/
theorem readings_one_cons (c : Char) (rest : Text) :
    (one test).readings (c :: rest) = if test c then [⟨[c], [], rest⟩] else [] :=
  rfl

/-- A repeated class is read as its runs. -/
theorem readings_many : (many test).readings text = runs test text :=
  rfl

/-- The end is read at the end. -/
theorem readings_atEnd : atEnd.readings text = if text.isEmpty then [⟨[], [], []⟩] else [] :=
  rfl

/-- The second pattern is read behind every reading of the first. -/
theorem readings_seq (first second : Pattern) : (seq first second).readings text =
    (first.readings text).flatMap fun r => (second.readings r.rest).map r.followedBy :=
  rfl

/-- A captured pattern is read as the pattern is, and its text is captured. -/
theorem readings_capture (group : Nat) (inner : Pattern) : (capture group inner).readings text =
    (inner.readings text).map fun r => { r with captures := (group, r.taken) :: r.captures } :=
  rfl

end

/-- A text cut at what a search finds in it. -/
structure Cut where
  /-- Each reading with the text before it. -/
  pieces : List (Text × Reading)
  /-- The text behind the last reading. -/
  tail : Text
  deriving DecidableEq, Repr

namespace Cut

/-- Puts a character in front of the first gap. -/
def pushChar (c : Char) : Cut → Cut
  | ⟨[], tail⟩ => ⟨[], c :: tail⟩
  | ⟨(gap, r) :: rest, tail⟩ => ⟨(c :: gap, r) :: rest, tail⟩

/-- Puts a reading in front, with nothing before it. -/
def pushReading (r : Reading) (cut : Cut) : Cut :=
  ⟨([], r) :: cut.pieces, cut.tail⟩

/-- The gaps and what was taken, in their order. -/
def toText (cut : Cut) : Text :=
  cut.pieces.flatMap (fun piece => piece.1 ++ piece.2.taken) ++ cut.tail

/-- A character in front of the cut is one in front of its text. -/
theorem toText_pushChar (c : Char) (cut : Cut) : (cut.pushChar c).toText = c :: cut.toText := by
  obtain ⟨pieces, tail⟩ := cut
  cases pieces <;> rfl

/-- A reading in front of the cut is what it takes in front of the text. -/
theorem toText_pushReading (r : Reading) (cut : Cut) : (cut.pushReading r).toText = r.taken ++ cut.toText := by
  simp [toText, pushReading]

end Cut

/-- Cuts a text at the readings of a pattern, after passing over the given number of characters, which belong to a
reading already found. -/
def searchFrom (p : Pattern) : Nat → Text → Cut
  | _, [] => ⟨[], []⟩
  | passed + 1, _ :: rest => p.searchFrom passed rest
  | 0, c :: rest =>
    match (p.readings (c :: rest)).head? with
    | some r => (p.searchFrom (r.taken.length - 1) rest).pushReading r
    | none => (p.searchFrom 0 rest).pushChar c

/-- Cuts a text at what a search finds. -/
def search (p : Pattern) (text : Text) : Cut :=
  p.searchFrom 0 text

variable {p q : Pattern} {test : Char → Bool} {text : Text}

/-- Three readings one after another are two, of which the first or the second is put together. -/
theorem map_followedBy_followedBy (first second : Reading) (others : List Reading) :
    (others.map second.followedBy).map first.followedBy = others.map (first.followedBy second).followedBy := by
  rw [List.map_map]
  apply List.map_congr_left
  intro r _
  simp [Reading.followedBy]

/-! ### What a reading takes -/

/-- The readings of a repeated class split the text. -/
theorem taken_append_rest_runs {r : Reading} (member : r ∈ runs test text) : r.taken ++ r.rest = text := by
  induction text generalizing r with
  | nil =>
    obtain rfl := List.mem_singleton.mp member
    rfl
  | cons c rest inductionHypothesis =>
    rw [runs_cons] at member
    split at member
    · rcases List.mem_append.mp member with longer | shortest
      · obtain ⟨shorter, inside, rfl⟩ := List.mem_map.mp longer
        exact congrArg (c :: ·) (inductionHypothesis inside)
      · obtain rfl := List.mem_singleton.mp shortest
        rfl
    · obtain rfl := List.mem_singleton.mp member
      rfl

/-- A reading splits the text into what it takes and what is behind. -/
theorem taken_append_rest {r : Reading} (member : r ∈ p.readings text) : r.taken ++ r.rest = text := by
  induction p generalizing text r with
  | one test =>
    cases text with
    | nil => cases member
    | cons c rest =>
      simp only [readings_one_cons, List.mem_ite_nil_right, List.mem_singleton] at member
      obtain ⟨-, rfl⟩ := member
      rfl
  | many test => exact taken_append_rest_runs member
  | atEnd =>
    simp only [readings_atEnd, List.mem_ite_nil_right, List.mem_singleton, List.isEmpty_iff] at member
    obtain ⟨rfl, rfl⟩ := member
    rfl
  | seq first second firstHypothesis secondHypothesis =>
    simp only [readings_seq, List.mem_flatMap, List.mem_map] at member
    obtain ⟨front, inFirst, back, inSecond, rfl⟩ := member
    rw [Reading.followedBy, List.append_assoc, secondHypothesis inSecond, firstHypothesis inFirst]
  | either first second firstHypothesis secondHypothesis =>
    rcases List.mem_append.mp member with inFirst | inSecond
    · exact firstHypothesis inFirst
    · exact secondHypothesis inSecond
  | capture group inner inductionHypothesis =>
    obtain ⟨inside, listed, rfl⟩ := List.mem_map.mp member
    exact @inductionHypothesis _ inside listed

/-! ### The search -/

/-- A character that belongs to a reading is passed over. -/
theorem searchFrom_succ_cons (p : Pattern) (passed : Nat) (c : Char) (rest : Text) :
    p.searchFrom (passed + 1) (c :: rest) = p.searchFrom passed rest :=
  rfl

/-- At any other character the first reading is taken, if there is one. -/
theorem search_cons (p : Pattern) (c : Char) (rest : Text) : p.search (c :: rest) =
    match (p.readings (c :: rest)).head? with
    | some r => (p.searchFrom (r.taken.length - 1) rest).pushReading r
    | none => (p.search rest).pushChar c :=
  rfl

/-- Passing over characters is searching what is left. -/
theorem searchFrom_drop (p : Pattern) (passed : Nat) (text : Text) :
    p.searchFrom passed text = p.search (text.drop passed) := by
  induction passed generalizing text with
  | zero => rfl
  | succ passed inductionHypothesis =>
    cases text with
    | nil => rfl
    | cons c rest => rw [searchFrom_succ_cons, inductionHypothesis, List.drop_succ_cons]

/-- Where there is no reading, the search goes on at the next character. -/
theorem search_char {c : Char} {rest : Text} (none_ : p.readings (c :: rest) = []) :
    p.search (c :: rest) = (p.search rest).pushChar c := by
  rw [search_cons, none_]
  rfl

/-- Where there are readings, the first one is found, and the search goes on behind it. -/
theorem search_reading {c : Char} {rest : Text} {r : Reading} (first : (p.readings (c :: rest)).head? = some r)
    (takes : r.taken ≠ []) : p.search (c :: rest) = (p.search r.rest).pushReading r := by
  have whole := taken_append_rest (List.mem_of_head? first)
  rw [search_cons, first]
  simp only
  obtain ⟨d, others, split⟩ := List.exists_cons_of_ne_nil takes
  rw [split, List.cons_append, List.cons.injEq] at whole
  rw [searchFrom_drop, split, List.length_cons, Nat.add_sub_cancel, ← whole.2, List.drop_left]

/-! ### Repeated classes -/

/-- The first reading of a pattern takes the longest run of a class, and every other one stops before another character
of the class. -/
def ReadsRun (p : Pattern) (test : Char → Bool) (captures : Text → List (Nat × Text)) (text : Text) : Prop :=
  ∃ others, p.readings text = ⟨text.takeWhile test, captures (text.takeWhile test), text.dropWhile test⟩ :: others ∧
    ∀ r ∈ others, ∃ c back, r.rest = c :: back ∧ test c = true

/-- A repeated class reads a run of the class. -/
theorem readsRun_many (test : Char → Bool) (text : Text) : (many test).ReadsRun test (fun _ => []) text := by
  unfold ReadsRun
  rw [readings_many]
  induction text with
  | nil => exact ⟨[], rfl, by simp⟩
  | cons c rest inductionHypothesis =>
    obtain ⟨others, split, stop⟩ := inductionHypothesis
    by_cases inside : test c = true
    · rw [runs_cons, if_pos inside, split, List.map_cons, List.takeWhile_cons_of_pos inside,
        List.dropWhile_cons_of_pos inside]
      refine ⟨others.map (Reading.push c) ++ [⟨[], [], c :: rest⟩], rfl, ?_⟩
      intro r member
      rcases List.mem_append.mp member with longer | shortest
      · obtain ⟨shorter, listed, rfl⟩ := List.mem_map.mp longer
        exact stop shorter listed
      · obtain rfl := List.mem_singleton.mp shortest
        exact ⟨c, rest, rfl, inside⟩
    · rw [runs_cons, if_neg inside, List.takeWhile_cons_of_neg inside, List.dropWhile_cons_of_neg inside]
      exact ⟨[], rfl, by simp⟩

/-- A class that is repeated at least once is not read where no character of the class stands. -/
theorem readings_atLeastOne_eq_nil (none_ : text.takeWhile test = []) : (atLeastOne test).readings text = [] := by
  cases text with
  | nil => rfl
  | cons c rest =>
    have outside : ¬test c = true := by
      intro inside
      simp [inside] at none_
    simp [atLeastOne, readings_seq, readings_one_cons, outside]

/-- Elsewhere it reads a run of the class. -/
theorem readsRun_atLeastOne (some_ : text.takeWhile test ≠ []) :
    (atLeastOne test).ReadsRun test (fun _ => []) text := by
  cases text with
  | nil => simp at some_
  | cons c rest =>
    have inside : test c = true := by
      by_contra outside
      simp [outside] at some_
    obtain ⟨others, split, stop⟩ := readsRun_many test rest
    have first : (one test).readings (c :: rest) = [⟨[c], [], rest⟩] := by
      rw [readings_one_cons, if_pos inside]
    refine ⟨others.map (Reading.followedBy ⟨[c], [], rest⟩), ?_, ?_⟩
    · rw [atLeastOne, readings_seq, first, List.flatMap_singleton, split, List.map_cons,
        List.takeWhile_cons_of_pos inside, List.dropWhile_cons_of_pos inside]
      rfl
    · intro r member
      obtain ⟨shorter, listed, rfl⟩ := List.mem_map.mp member
      exact stop shorter listed

/-- A captured run is a run. -/
theorem ReadsRun.capture {captures : Text → List (Nat × Text)} (reads : p.ReadsRun test captures text) (group : Nat) :
    (Pattern.capture group p).ReadsRun test (fun taken => (group, taken) :: captures taken) text := by
  obtain ⟨others, split, stop⟩ := reads
  refine ⟨others.map fun r => { r with captures := (group, r.taken) :: r.captures }, ?_, ?_⟩
  · rw [readings_capture, split, List.map_cons]
  · intro r member
    obtain ⟨inner, listed, rfl⟩ := List.mem_map.mp member
    exact stop inner listed

/-- Behind a run comes what is read behind the whole run, if it cannot begin with a character of the class: no shorter
run leads to a reading. -/
theorem ReadsRun.seq {captures : Text → List (Nat × Text)} (reads : p.ReadsRun test captures text)
    (stops : ∀ c back, test c = true → q.readings (c :: back) = []) :
    (Pattern.seq p q).readings text = (q.readings (text.dropWhile test)).map
      (Reading.followedBy ⟨text.takeWhile test, captures (text.takeWhile test), text.dropWhile test⟩) := by
  obtain ⟨others, split, stop⟩ := reads
  have dead : others.flatMap (fun r => (q.readings r.rest).map r.followedBy) = [] := by
    rw [List.flatMap_eq_nil_iff]
    intro r member
    obtain ⟨c, back, behind, inside⟩ := stop r member
    rw [behind, stops c back inside, List.map_nil]
  rw [readings_seq, split, List.flatMap_cons, dead, List.append_nil]

end Pattern
end MapEmbed
