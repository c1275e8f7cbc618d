/-!
# Sets of code points

A character class is a list of inclusive ranges in ascending order. Ascent lets a search stop at the first
range above the character, so the answer for a small code point does not depend on the length of the table.
-/

namespace MapEmbed.Unicode

/-- Inclusive ranges of code points, in ascending order. -/
abbrev Ranges := List (Nat × Nat)

/-- Membership of a code point: the search ends at the first range that lies above it. -/
def Ranges.includes : Ranges → Nat → Bool
  | [], _ => false
  | (low, high) :: rest, point =>
    if point < low then false else if point ≤ high then true else includes rest point

/-- A code point that is found lies in one of the ranges. -/
theorem Ranges.exists_of_includes {ranges : Ranges} {point : Nat}
    (found : ranges.includes point = true) :
    ∃ range ∈ ranges, range.1 ≤ point ∧ point ≤ range.2 := by
  induction ranges with
  | nil => simp [includes] at found
  | cons range rest ih =>
    obtain ⟨low, high⟩ := range
    simp only [includes] at found
    split at found
    · simp at found
    · split at found
      · exact ⟨(low, high), by simp, by simp; omega⟩
      · obtain ⟨inner, member, bounds⟩ := ih found
        exact ⟨inner, by simp [member], bounds⟩

end MapEmbed.Unicode
