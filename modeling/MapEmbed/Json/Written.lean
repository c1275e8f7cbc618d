import MapEmbed.Json.Basic
import MapEmbed.OrderedMap

/-!
# Data values as written

A data text before its parts are given values: strings keep their escapes, numbers their digits, objects repeated
fields. What is wrong inside a string or a number, or nested too deeply, matters only to those who ask for the
value; a field that nobody reads may hold it.
-/

namespace MapEmbed.Json

/-- A part of a written string. -/
inductive StringPart where
  | char (c : Char)
  /-- A sixteen-bit unit written with four hexadecimal digits. -/
  | unit (value : Nat)
  deriving DecidableEq, Repr

/-- A written number. -/
structure NumberText where
  negative : Bool
  whole : Text
  fraction : Option Text
  /-- Whether the exponent is negative, and its digits. -/
  exponent : Option (Bool × Text)
  deriving DecidableEq, Repr

/-- A written value. -/
inductive Written where
  | null
  | bool (value : Bool)
  | number (value : NumberText)
  | string (parts : List StringPart)
  | array (items : List Written)
  | object (fields : List (List StringPart × Written))

/-- The text of a string. Two units of a surrogate pair are one character; a unit of a pair without its other
half has no text. -/
def partsText? : List StringPart → Option Text
  | [] => some []
  | .char c :: rest => (partsText? rest).map (c :: ·)
  | .unit high :: .unit low :: rest =>
    if 0xD800 ≤ high ∧ high < 0xDC00 then
      if 0xDC00 ≤ low ∧ low < 0xE000 then
        (partsText? rest).map (Char.ofNat (0x10000 + (high - 0xD800) * 0x400 + (low - 0xDC00)) :: ·)
      else
        none
    else if 0xDC00 ≤ high ∧ high < 0xE000 then none
    else (partsText? (.unit low :: rest)).map (Char.ofNat high :: ·)
  | .unit value :: rest =>
    if 0xD800 ≤ value ∧ value < 0xE000 then none else (partsText? rest).map (Char.ofNat value :: ·)

namespace NumberText

/-- Adds digits to a number as long as it fits 64 bits: the number, and how many digits were added. -/
def accumulate (acc : Nat) : Text → Nat × Nat
  | [] => (acc, 0)
  | c :: rest =>
    let next := acc * 10 + (c.toNat - '0'.toNat)
    if next < Nat.pow 2 64 then
      let (total, added) := accumulate next rest
      (total, added + 1)
    else
      (acc, 0)

/-- A power of ten, rounded. -/
def powerOfTen? (exponent : Nat) : Option Binary64 :=
  Binary64.ofDecimal? false 1 exponent

/-- Multiplies by a rounded power of ten, or divides by one, once or twice; nothing if the result is too great. -/
def scale? (x : Binary64) (exponent : Int) : Option Binary64 :=
  if x.units = 0 then some x
  else if 308 < exponent then none
  else if 0 ≤ exponent then (powerOfTen? exponent.toNat).bind x.mul?
  else if -308 ≤ exponent then (powerOfTen? (-exponent).toNat).bind x.div?
  else if -616 ≤ exponent then
    ((powerOfTen? 308).bind x.div?).bind fun y => (powerOfTen? (-exponent - 308).toNat).bind y.div?
  else some (Binary64.zero false)

/-- The value of a written number. One without fraction and exponent that fits 64 bits is whole, save negative
zero. Of all others the leading digits that fit 64 bits are rounded and then scaled. -/
def value? (n : NumberText) : Option Json :=
  let (whole, added) := accumulate 0 n.whole
  let left := n.whole.length - added
  if n.fraction.isNone ∧ n.exponent.isNone ∧ left = 0 ∧ (n.negative → 0 < whole ∧ whole ≤ Nat.pow 2 63) then
    some (.integer (if n.negative then -whole else whole))
  else
    let (digits, places) := accumulate whole (n.fraction.getD [])
    let raised : Int :=
      match n.exponent with
      | none => 0
      | some (true, exponent) => -Text.digitsValue 0 exponent
      | some (false, exponent) => Text.digitsValue 0 exponent
    (Binary64.ofRatio? false digits 1).bind fun x =>
      (scale? x (left - places + raised)).map fun y => .number (if n.negative then y.neg else y)

end NumberText

namespace Written

mutual

/-- The value of a written value whose arrays and objects nest at most `levels` deep. A repeated field keeps its
first place and takes its last value. -/
def value? (levels : Nat) : Written → Option Json
  | .null => some .null
  | .bool value => some (.bool value)
  | .number value => value.value?
  | .string parts => (partsText? parts).map .string
  | .array items =>
    if levels = 0 then none else (itemValues? (levels - 1) items).map .array
  | .object fields =>
    if levels = 0 then none
    else (fieldValues? (levels - 1) fields).map fun pairs => .object (OrderedMap.ofList pairs).entries

/-- The values of the items of an array. -/
def itemValues? (levels : Nat) : List Written → Option (List Json)
  | [] => some []
  | item :: rest =>
    (value? levels item).bind fun first => (itemValues? levels rest).map (first :: ·)

/-- The names and values of the fields of an object. -/
def fieldValues? (levels : Nat) : List (List StringPart × Written) → Option (List (Text × Json))
  | [] => some []
  | (name, field) :: rest =>
    (partsText? name).bind fun key =>
      (value? levels field).bind fun first => (fieldValues? levels rest).map ((key, first) :: ·)

end

end Written
end MapEmbed.Json
