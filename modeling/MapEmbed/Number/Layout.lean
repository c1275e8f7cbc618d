import MapEmbed.Number.Shortest

/-!
# Writing a number

The shortest digits of a number laid out in one of two ways. A layout is a record of its decisions; two layouts
are used, one for text that people read and one for data.
-/

namespace MapEmbed

/-- How the digits of a number are laid out. -/
structure NumberLayout where
  /-- Which of two equally near decimals is taken. -/
  tie : Tie
  /-- A whole number gets a zero after the point. -/
  keepsPoint : Bool
  /-- The least and the greatest exponent of the leading digit that is written without an exponent; without
  them every number is. -/
  positional : Option (Int × Int)
  deriving DecidableEq, Repr

namespace NumberLayout

/-- For display: always positional, whole numbers without a point, a tie goes up. -/
def display : NumberLayout := ⟨.up, false, none⟩

/-- For data: positional from 10^-5 up to 10^16, always with a point there, a tie goes to the even digit. -/
def data : NumberLayout := ⟨.toEven, true, some (-5, 15)⟩

/-- The digits with a point before the digit that counts `10^(point-1)` units, and zeros where there is no
digit. -/
def positionalText (keepsPoint : Bool) (digits : Text) (point : Int) : Text :=
  if point ≤ 0 then
    ['0', '.'] ++ List.replicate (-point).toNat '0' ++ digits
  else
    let whole := digits.take point.toNat ++ List.replicate (point.toNat - digits.length) '0'
    match digits.drop point.toNat with
    | [] => if keepsPoint then whole ++ ['.', '0'] else whole
    | fraction => whole ++ '.' :: fraction

/-- The digits with a point after the first, and the exponent with its sign. -/
def exponentText (digits : Text) (leading : Int) : Text :=
  let mantissa :=
    match digits with
    | first :: second :: rest => first :: '.' :: second :: rest
    | few => few
  mantissa ++ 'e' :: (if leading < 0 then [] else ['+']) ++ Text.ofInt leading

/-- Lays out a number. -/
def render (layout : NumberLayout) (x : Binary64) : Text :=
  let decimal := x.shortest layout.tie
  let digits := Text.ofNat decimal.digits
  let point := decimal.exponent + digits.length
  let plain :=
    match layout.positional with
    | none => true
    | some (least, most) => decimal.digits = 0 || (decide (least ≤ point - 1) && decide (point - 1 ≤ most))
  (if x.negative then ['-'] else []) ++
    if plain then positionalText layout.keepsPoint digits point else exponentText digits (point - 1)

end NumberLayout
end MapEmbed
