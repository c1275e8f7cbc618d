import MapEmbed.Unicode.Lowercase
import MapEmbed.Unicode.Uppercase
import MapEmbed.Unicode.CaseContext

/-!
# Changing case

Lowering a text and capitalising its first character, by the full Unicode mappings. One mapping looks at its
neighbours: a capital sigma becomes the final form where a word ends.
-/

namespace MapEmbed.Unicode

/-- Has a case of its own: the property `Cased`. -/
def isCased (c : Char) : Bool :=
  cased.includes c.toNat

/-- Is passed over when the end of a word is sought: the property `Case_Ignorable`. -/
def isCaseIgnorable (c : Char) : Bool :=
  caseIgnorable.includes c.toNat

/-- The small form of a seven-bit capital; every other character is kept. -/
def asciiLower (c : Char) : Char :=
  if decide ('A' ≤ c) && decide (c ≤ 'Z') then Char.ofNat (c.toNat + 32) else c

/-- The small form of a character without regard to its neighbours. Only the dotted capital I has two characters. -/
def lowerChar (c : Char) : List Char :=
  if c.toNat < 128 then
    [asciiLower c]
  else if c.toNat = 0x130 then
    ['i', Char.ofNat 0x307]
  else
    match caseForm? lowerRuns c.toNat with
    | some point => [Char.ofNat point]
    | none => [c]

/-- The capital form of a character, which may be a whole sequence. -/
def upperChar (c : Char) : List Char :=
  if c.toNat < 128 then
    if decide ('a' ≤ c) && decide (c ≤ 'z') then [Char.ofNat (c.toNat - 32)] else [c]
  else
    match upperExpansions.lookup c.toNat with
    | some points => points.map Char.ofNat
    | none =>
      match caseForm? upperRuns c.toNat with
      | some point => [Char.ofNat point]
      | none => [c]

/-- Whether the first character that is not case-ignorable has a case. -/
def reachesCased (chars : List Char) : Bool :=
  match chars.dropWhile isCaseIgnorable with
  | [] => false
  | c :: _ => isCased c

/-- Lowers a text whose characters before it, nearest first, are `before`. A capital sigma is final if a cased
character precedes it and none follows, case-ignorable characters not counted. -/
def lowerFrom (before : List Char) : List Char → List Char
  | [] => []
  | c :: rest =>
    let small :=
      if c.toNat = 0x3A3 then
        [Char.ofNat (if reachesCased before && !reachesCased rest then 0x3C2 else 0x3C3)]
      else
        lowerChar c
    small ++ lowerFrom (c :: before) rest

/-- The small form of a text. -/
def lower (text : List Char) : List Char :=
  lowerFrom [] text

/-- The text with its first character in capital form. -/
def capitalize : List Char → List Char
  | [] => []
  | c :: rest => upperChar c ++ rest

/-- What is the same of every capital and its small form is the same before and after lowering. -/
theorem asciiLower_congr {α : Type} (view : Char → α)
    (letters : ∀ n : Fin 91, 65 ≤ n.val → view (Char.ofNat (n.val + 32)) = view (Char.ofNat n.val)) (c : Char) :
    view (asciiLower c) = view c := by
  unfold asciiLower
  split
  · rename_i capital
    simp only [Bool.and_eq_true, decide_eq_true_eq] at capital
    have low : 65 ≤ c.toNat := capital.1
    have high : c.toNat ≤ 90 := capital.2
    have here := letters ⟨c.toNat, Nat.lt_succ_of_le high⟩ low
    simpa only [Char.ofNat_toNat] using here
  · rfl

/-- A seven-bit character is lowered alone, whatever surrounds it. -/
theorem lowerChar_of_ascii {c : Char} (small : c.toNat < 128) : lowerChar c = [asciiLower c] := by
  simp [lowerChar, small]

end MapEmbed.Unicode
