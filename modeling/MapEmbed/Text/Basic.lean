import MapEmbed.Unicode.Class

/-!
# Text

A text is its list of characters. Readers take characters off the front, printers put lists together, and every
loop over a text is a recursion on the list. Positions are never stored; where one is shown, it is the size in
bytes of the UTF-8 form of what stands before it.
-/

namespace MapEmbed

/-- A text: its characters in order. -/
abbrev Text := List Char

namespace Text

/-- The number of bytes of the UTF-8 form. -/
def byteSize (text : Text) : Nat :=
  text.foldr (fun c size => c.utf8Size + size) 0

@[simp] theorem byteSize_nil : byteSize [] = 0 := rfl

/-- The first character and the rest add up. -/
theorem byteSize_cons (c : Char) (rest : Text) : byteSize (c :: rest) = c.utf8Size + byteSize rest := rfl

@[simp] theorem byteSize_append (front back : Text) :
    byteSize (front ++ back) = byteSize front + byteSize back := by
  induction front with
  | nil => simp
  | cons c front ih => rw [List.cons_append, byteSize_cons, ih, byteSize_cons, Nat.add_assoc]

/-- Whether a word stands anywhere in a text. -/
def holds (word : Text) : Text → Bool
  | [] => word.isEmpty
  | c :: rest => word.isPrefixOf (c :: rest) || holds word rest

/-- The text without the blanks at its two ends. -/
def trim (text : Text) : Text :=
  let front := text.dropWhile Unicode.isBlank
  (front.reverse.dropWhile Unicode.isBlank).reverse

/-- The decimal digits of a natural number, without leading zeros. -/
def ofNat (n : Nat) : Text :=
  Nat.toDigits 10 n

/-- The decimal text of an integer: a sign if it is negative, then the digits. -/
def ofInt : Int → Text
  | .ofNat n => ofNat n
  | .negSucc n => '-' :: ofNat (n + 1)

/-- The number that a run of seven-bit digits denotes, read left to right after `acc`. -/
def digitsValue (acc : Nat) : Text → Nat
  | [] => acc
  | c :: rest => digitsValue (acc * 10 + (c.toNat - '0'.toNat)) rest

/-- The two words for a truth value. -/
def ofBool : Bool → Text
  | true => "true".toList
  | false => "false".toList

end Text
end MapEmbed
