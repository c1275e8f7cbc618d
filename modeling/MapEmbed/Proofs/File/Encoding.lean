import MapEmbed.File.Utf8
import MapEmbed.Proofs.Unicode.SmallForm

/-!
# Bytes and the text they encode

The decoder reads back what the encoder wrote, and reads nothing else: bytes have a text exactly if they are the
encoding of that text. So a file that can be read is determined by its text. The ranges that the decoder keeps for the
next byte are what makes this so: they exclude a value that has a shorter encoding and a value that is no character.
-/

namespace MapEmbed.Utf8

/-! ### Encodings by their length -/

/-- Characters lie below the surrogates or above them. -/
theorem toNat_valid (c : Char) : c.toNat < 0xD800 ∨ 0xDFFF < c.toNat ∧ c.toNat < 0x110000 :=
  c.valid

/-- A seven-bit character has one byte, its number. -/
theorem utf8EncodeChar_of_ascii {c : Char} (small : c.toNat < 128) :
    String.utf8EncodeChar c = [UInt8.ofNat c.toNat] := by
  have small : c.val.toNat ≤ 127 := Nat.le_of_lt_succ small
  simp only [String.utf8EncodeChar, small, if_true]
  rfl

/-- A character of two bytes. -/
theorem utf8EncodeChar_two {c : Char} {first second : UInt8}
    (value : c.toNat = (first.toNat - 0xC0) * 64 + (second.toNat - 0x80))
    (leads : 0xC2 ≤ first.toNat ∧ first.toNat < 0xE0) (follows : 0x80 ≤ second.toNat ∧ second.toNat ≤ 0xBF) :
    String.utf8EncodeChar c = [first, second] := by
  have number : c.val.toNat = (first.toNat - 0xC0) * 64 + (second.toNat - 0x80) := value
  have above : ¬c.val.toNat ≤ 127 := by omega
  have below : c.val.toNat ≤ 2047 := by omega
  simp only [String.utf8EncodeChar, above, below, if_true, if_false, List.cons.injEq, and_true, ← UInt8.toNat_inj,
    UInt8.toNat_ofNat']
  omega

/-- A character of three bytes. -/
theorem utf8EncodeChar_three {c : Char} {first second third : UInt8}
    (value : c.toNat = ((first.toNat - 0xE0) * 64 + (second.toNat - 0x80)) * 64 + (third.toNat - 0x80))
    (leads : 0xE0 ≤ first.toNat ∧ first.toNat < 0xF0) (follows : 0x80 ≤ second.toNat ∧ second.toNat ≤ 0xBF)
    (ends : 0x80 ≤ third.toNat ∧ third.toNat ≤ 0xBF) (long : 0x800 ≤ c.toNat) :
    String.utf8EncodeChar c = [first, second, third] := by
  have number : c.val.toNat = ((first.toNat - 0xE0) * 64 + (second.toNat - 0x80)) * 64 + (third.toNat - 0x80) := value
  have long : 0x800 ≤ c.val.toNat := long
  have above : ¬c.val.toNat ≤ 127 ∧ ¬c.val.toNat ≤ 2047 := by omega
  have below : c.val.toNat ≤ 65535 := by omega
  simp only [String.utf8EncodeChar, above.1, above.2, below, if_true, if_false, List.cons.injEq, and_true,
    ← UInt8.toNat_inj, UInt8.toNat_ofNat']
  omega

/-- A character of four bytes. -/
theorem utf8EncodeChar_four {c : Char} {first second third fourth : UInt8}
    (value : c.toNat = (((first.toNat - 0xF0) * 64 + (second.toNat - 0x80)) * 64 + (third.toNat - 0x80)) * 64 +
      (fourth.toNat - 0x80))
    (leads : 0xF0 ≤ first.toNat ∧ first.toNat < 0xF5) (follows : 0x80 ≤ second.toNat ∧ second.toNat ≤ 0xBF)
    (goes : 0x80 ≤ third.toNat ∧ third.toNat ≤ 0xBF) (ends : 0x80 ≤ fourth.toNat ∧ fourth.toNat ≤ 0xBF)
    (long : 0x10000 ≤ c.toNat) : String.utf8EncodeChar c = [first, second, third, fourth] := by
  have number : c.val.toNat = (((first.toNat - 0xF0) * 64 + (second.toNat - 0x80)) * 64 + (third.toNat - 0x80)) * 64 +
      (fourth.toNat - 0x80) := value
  have long : 0x10000 ≤ c.val.toNat := long
  have above : ¬c.val.toNat ≤ 127 ∧ ¬c.val.toNat ≤ 2047 ∧ ¬c.val.toNat ≤ 65535 := by omega
  simp only [String.utf8EncodeChar, above.1, above.2.1, above.2.2, if_false, List.cons.injEq, and_true,
    ← UInt8.toNat_inj, UInt8.toNat_ofNat']
  omega

/-! ### Reading on in a character -/

/-- Bytes that take a pending character to its end, and the number of the character that they give. -/
inductive Completes : Pending → List UInt8 → Nat → Prop where
  /-- The byte is the last one. -/
  | last {value least most : Nat} {byte : UInt8} (fits : least ≤ byte.toNat ∧ byte.toNat ≤ most) :
      Completes ⟨1, value, least, most⟩ [byte] (value * 64 + (byte.toNat - 0x80))
  /-- After the byte others are missing. -/
  | more {missing value least most number : Nat} {byte : UInt8} {rest : List UInt8}
      (fits : least ≤ byte.toNat ∧ byte.toNat ≤ most)
      (later : Completes ⟨missing + 1, value * 64 + (byte.toNat - 0x80), 0x80, 0xBF⟩ rest number) :
      Completes ⟨missing + 2, value, least, most⟩ (byte :: rest) number

/-- The decoder finds the character that the bytes complete. -/
theorem Completes.scan_append {p : Pending} {front : List UInt8} {number : Nat} (completes : Completes p front number)
    (rest : List UInt8) : scan (some p) (front ++ rest) = some (Char.ofNat number) :: scan none rest := by
  induction completes with
  | last fits => simp [scan, step, fits]
  | more fits later inductionHypothesis => simpa [scan, step, fits] using inductionHypothesis

/-- A character that lacks one byte is completed by one that fits. -/
theorem Completes.last_inv {value least most number : Nat} {front : List UInt8}
    (completes : Completes ⟨1, value, least, most⟩ front number) :
    ∃ byte : UInt8, front = [byte] ∧ (least ≤ byte.toNat ∧ byte.toNat ≤ most) ∧
      number = value * 64 + (byte.toNat - 0x80) := by
  cases completes with
  | last fits => exact ⟨_, rfl, fits, rfl⟩

/-- A character that lacks more is completed by a byte that fits and those that complete it after that. -/
theorem Completes.more_inv {missing value least most number : Nat} {front : List UInt8}
    (completes : Completes ⟨missing + 2, value, least, most⟩ front number) :
    ∃ (byte : UInt8) (rest : List UInt8), front = byte :: rest ∧ (least ≤ byte.toNat ∧ byte.toNat ≤ most) ∧
      Completes ⟨missing + 1, value * 64 + (byte.toNat - 0x80), 0x80, 0xBF⟩ rest number := by
  cases completes with
  | more fits later => exact ⟨_, _, rfl, fits, later⟩

/-- A character is missing from a text with a fault. -/
theorem cons_none_ne (found : List (Option Char)) (text : Text) : none :: found ≠ text.map some := by
  cases text <;> simp

/-- A pending character in a text is followed by a byte that fits. -/
theorem exists_fits {p : Pending} {bytes : List UInt8} {text : Text} (read : scan (some p) bytes = text.map some) :
    ∃ byte rest, bytes = byte :: rest ∧ p.least ≤ byte.toNat ∧ byte.toNat ≤ p.most := by
  cases bytes with
  | nil => exact absurd read (cons_none_ne [] text)
  | cons byte rest =>
    by_cases fits : p.least ≤ byte.toNat ∧ byte.toNat ≤ p.most
    · exact ⟨byte, rest, rfl, fits⟩
    · rw [scan, step] at read
      simp only [if_neg fits, List.cons_append] at read
      exact absurd read (cons_none_ne _ text)

/-- A pending character in a text is completed. -/
theorem exists_completes {missing value least most : Nat} {bytes : List UInt8} {text : Text}
    (read : scan (some ⟨missing + 1, value, least, most⟩) bytes = text.map some) :
    ∃ front rest number, bytes = front ++ rest ∧ Completes ⟨missing + 1, value, least, most⟩ front number := by
  induction missing generalizing value least most bytes with
  | zero =>
    obtain ⟨byte, rest, rfl, fits⟩ := exists_fits read
    exact ⟨[byte], rest, _, rfl, .last fits⟩
  | succ missing inductionHypothesis =>
    obtain ⟨byte, rest, rfl, fits⟩ := exists_fits read
    simp only [scan, step, if_pos fits] at read
    obtain ⟨front, left, number, rfl, later⟩ := inductionHypothesis read
    exact ⟨byte :: front, left, number, rfl, .more fits later⟩

/-! ### First bytes -/

/-- A first byte of two. -/
theorem start_two {byte : Nat} (leads : 0xC2 ≤ byte ∧ byte < 0xE0) :
    start byte = ([], some ⟨1, byte - 0xC0, 0x80, 0xBF⟩) := by
  unfold start
  rw [if_neg (by omega), if_neg (by omega), if_pos leads.2]

/-- A first byte of three: the second keeps the value from being too small or a surrogate. -/
theorem start_three {byte : Nat} (leads : 0xE0 ≤ byte ∧ byte < 0xF0) :
    start byte = ([], some ⟨2, byte - 0xE0, if byte = 0xE0 then 0xA0 else 0x80, if byte = 0xED then 0x9F else 0xBF⟩) := by
  unfold start
  rw [if_neg (by omega), if_neg (by omega), if_neg (by omega)]
  by_cases low : byte = 0xE0
  · simp [low]
  · by_cases surrogate : byte = 0xED
    · simp [surrogate]
    · simp [low, surrogate, leads.2]

/-- A first byte of four: the second keeps the value from being too small or too great. -/
theorem start_four {byte : Nat} (leads : 0xF0 ≤ byte ∧ byte < 0xF5) :
    start byte = ([], some ⟨3, byte - 0xF0, if byte = 0xF0 then 0x90 else 0x80, if byte = 0xF4 then 0x8F else 0xBF⟩) := by
  unfold start
  rw [if_neg (by omega), if_neg (by omega), if_neg (by omega), if_neg (by omega), if_neg (by omega), if_neg (by omega)]
  by_cases low : byte = 0xF0
  · simp [low]
  · by_cases high : byte = 0xF4
    · simp [high]
    · have between : byte < 0xF4 := by omega
      simp [low, high, between]

/-- Any other byte beyond seven bits is a fault. -/
theorem start_fault {byte : Nat} (wide : 0x80 ≤ byte) (misplaced : byte < 0xC2 ∨ 0xF5 ≤ byte) :
    start byte = ([none], none) := by
  unfold start
  by_cases tail : byte < 0xC2
  · rw [if_neg (by omega), if_pos tail]
  · rw [if_neg (by omega), if_neg tail, if_neg (by omega), if_neg (by omega), if_neg (by omega), if_neg (by omega),
      if_neg (by omega), if_neg (by omega), if_neg (by omega)]

/-- A byte either is a character, or a fault, or the first of two, three or four. -/
theorem first_cases (byte : Nat) :
    byte < 0x80 ∨ (0x80 ≤ byte ∧ (byte < 0xC2 ∨ 0xF5 ≤ byte)) ∨
      (0xC2 ≤ byte ∧ byte < 0xE0) ∨ (0xE0 ≤ byte ∧ byte < 0xF0) ∨ (0xF0 ≤ byte ∧ byte < 0xF5) := by
  omega

/-! ### Reading what was written -/

/-- A number that fits into a byte. -/
theorem exists_byte (number : Nat) (small : number < 256) : ∃ byte : UInt8, byte.toNat = number :=
  ⟨UInt8.ofNat number, by rw [UInt8.toNat_ofNat']; omega⟩

/-- The first byte of a longer encoding leaves a character pending that the others complete. -/
theorem exists_completes_of_char {c : Char} (wide : 0x80 ≤ c.toNat) :
    ∃ byte front p, String.utf8EncodeChar c = byte :: front ∧ start byte.toNat = ([], some p) ∧
      Completes p front c.toNat := by
  have valid := toNat_valid c
  obtain ⟨last, isLast⟩ := exists_byte (c.toNat % 64 + 0x80) (by omega)
  by_cases two : c.toNat < 0x800
  · obtain ⟨first, isFirst⟩ := exists_byte (c.toNat / 64 + 0xC0) (by omega)
    have value : c.toNat = (first.toNat - 0xC0) * 64 + (last.toNat - 0x80) := by omega
    refine ⟨first, [last], _, utf8EncodeChar_two value (by omega) (by omega), start_two (by omega), ?_⟩
    rw [value]
    exact .last (by omega)
  · obtain ⟨third, isThird⟩ := exists_byte (c.toNat / 64 % 64 + 0x80) (by omega)
    by_cases three : c.toNat < 0x10000
    · obtain ⟨first, isFirst⟩ := exists_byte (c.toNat / 4096 + 0xE0) (by omega)
      have value : c.toNat = ((first.toNat - 0xE0) * 64 + (third.toNat - 0x80)) * 64 + (last.toNat - 0x80) := by omega
      refine ⟨first, [third, last], _, utf8EncodeChar_three value (by omega) (by omega) (by omega) (by omega),
        start_three (by omega), ?_⟩
      rw [value]
      exact .more (by split <;> split <;> omega) (.last (by omega))
    · obtain ⟨second, isSecond⟩ := exists_byte (c.toNat / 4096 % 64 + 0x80) (by omega)
      obtain ⟨first, isFirst⟩ := exists_byte (c.toNat / 262144 + 0xF0) (by omega)
      have value : c.toNat = (((first.toNat - 0xF0) * 64 + (second.toNat - 0x80)) * 64 + (third.toNat - 0x80)) * 64 +
          (last.toNat - 0x80) := by omega
      refine ⟨first, [second, third, last], _,
        utf8EncodeChar_four value (by omega) (by omega) (by omega) (by omega) (by omega), start_four (by omega), ?_⟩
      rw [value]
      exact .more (by split <;> split <;> omega) (.more (by omega) (.last (by omega)))

/-- What a first byte leaves pending is completed to the character whose encoding was read. -/
theorem utf8EncodeChar_of_completes {byte : UInt8} {p : Pending} {front : List UInt8} {number : Nat}
    (begins : start byte.toNat = ([], some p)) (completes : Completes p front number) :
    String.utf8EncodeChar (Char.ofNat number) = byte :: front := by
  rcases first_cases byte.toNat with ascii | ⟨wide, misplaced⟩ | leads | leads | leads
  · simp [start, ascii] at begins
  · simp [start_fault wide misplaced] at begins
  · rw [start_two leads, Prod.mk.injEq, Option.some.injEq] at begins
    obtain ⟨-, rfl⟩ := begins
    obtain ⟨last, rfl, fits, value⟩ := completes.last_inv
    have valid : number.isValidChar := .inl (by omega)
    exact utf8EncodeChar_two ((Unicode.toNat_ofNat valid).trans value) leads fits
  · rw [start_three leads, Prod.mk.injEq, Option.some.injEq] at begins
    obtain ⟨-, rfl⟩ := begins
    obtain ⟨second, rest, rfl, fits, later⟩ := completes.more_inv
    obtain ⟨last, rfl, ends, value⟩ := later.last_inv
    have bounds : 0x800 ≤ number ∧ number.isValidChar := by
      unfold Nat.isValidChar
      split at fits <;> split at fits <;> omega
    have follows : 0x80 ≤ second.toNat ∧ second.toNat ≤ 0xBF := by
      split at fits <;> split at fits <;> omega
    have same := Unicode.toNat_ofNat bounds.2
    exact utf8EncodeChar_three (same.trans value) leads follows ends (le_of_le_of_eq bounds.1 same.symm)
  · rw [start_four leads, Prod.mk.injEq, Option.some.injEq] at begins
    obtain ⟨-, rfl⟩ := begins
    obtain ⟨second, rest, rfl, fits, later⟩ := completes.more_inv
    obtain ⟨third, rest, rfl, goes, later⟩ := later.more_inv
    obtain ⟨last, rfl, ends, value⟩ := later.last_inv
    have bounds : 0x10000 ≤ number ∧ number < 0x110000 := by
      split at fits <;> split at fits <;> omega
    have follows : 0x80 ≤ second.toNat ∧ second.toNat ≤ 0xBF := by
      split at fits <;> split at fits <;> omega
    have same := Unicode.toNat_ofNat (.inr (by omega) : number.isValidChar)
    exact utf8EncodeChar_four (same.trans value) leads follows goes ends (le_of_le_of_eq bounds.1 same.symm)

/-- A character is read back. -/
theorem scan_utf8EncodeChar (c : Char) (rest : List UInt8) :
    scan none (String.utf8EncodeChar c ++ rest) = some c :: scan none rest := by
  by_cases ascii : c.toNat < 0x80
  · have byte : (UInt8.ofNat c.toNat).toNat = c.toNat := by
      rw [UInt8.toNat_ofNat']
      omega
    rw [utf8EncodeChar_of_ascii ascii, List.singleton_append, scan, step, byte, start, if_pos ascii, Char.ofNat_toNat]
    rfl
  · obtain ⟨byte, front, p, encoded, begins, completes⟩ := exists_completes_of_char (Nat.le_of_not_lt ascii)
    rw [encoded, List.cons_append, scan, step, begins]
    simp only [List.nil_append]
    rw [completes.scan_append, Char.ofNat_toNat]

/-- Bytes with a text start with the encoding of a character. -/
theorem exists_char_of_scan {byte : UInt8} {rest : List UInt8} {text : Text}
    (read : scan none (byte :: rest) = text.map some) :
    ∃ c left, byte :: rest = String.utf8EncodeChar c ++ left := by
  rw [scan, step] at read
  -- the bytes of a longer encoding complete what its first byte leaves pending
  have long {missing value least most : Nat} (begins : start byte.toNat = ([], some ⟨missing + 1, value, least, most⟩)) :
      ∃ c left, byte :: rest = String.utf8EncodeChar c ++ left := by
    rw [begins] at read
    obtain ⟨front, left, number, rfl, completes⟩ := exists_completes read
    exact ⟨Char.ofNat number, left, by rw [utf8EncodeChar_of_completes begins completes, List.cons_append]⟩
  rcases first_cases byte.toNat with ascii | ⟨wide, misplaced⟩ | leads | leads | leads
  · refine ⟨Char.ofNat byte.toNat, rest, ?_⟩
    have same := Unicode.toNat_ofNat (.inl (by omega) : byte.toNat.isValidChar)
    rw [utf8EncodeChar_of_ascii (by omega), same, UInt8.ofNat_toNat]
    rfl
  · rw [start_fault wide misplaced] at read
    exact absurd read (cons_none_ne _ text)
  · exact long (start_two leads)
  · exact long (start_three leads)
  · exact long (start_four leads)

/-- The encoding of a text is read back. -/
theorem scan_encode (text : Text) : scan none (encode text) = text.map some := by
  induction text with
  | nil => rfl
  | cons c rest inductionHypothesis =>
    have split : encode (c :: rest) = String.utf8EncodeChar c ++ encode rest := rfl
    rw [split, scan_utf8EncodeChar, inductionHypothesis, List.map_cons]

/-- Bytes that are read as a text are its encoding. -/
theorem eq_encode_of_scan {bytes : List UInt8} {text : Text} (read : scan none bytes = text.map some) :
    bytes = encode text := by
  induction text generalizing bytes with
  | nil =>
    cases bytes with
    | nil => rfl
    | cons byte rest =>
      obtain ⟨c, left, split⟩ := exists_char_of_scan read
      rw [split, scan_utf8EncodeChar] at read
      simp at read
  | cons d others inductionHypothesis =>
    cases bytes with
    | nil => simp [scan] at read
    | cons byte rest =>
      obtain ⟨c, left, split⟩ := exists_char_of_scan read
      rw [split, scan_utf8EncodeChar, List.map_cons, List.cons.injEq, Option.some.injEq] at read
      rw [split, read.1, inductionHypothesis read.2]
      rfl

/-- A list of characters none of which is missing. -/
theorem mapM_id_eq_some_iff {found : List (Option Char)} {text : Text} :
    found.mapM id = some text ↔ found = text.map some := by
  induction found generalizing text with
  | nil => cases text <;> simp
  | cons first rest inductionHypothesis =>
    cases first with
    | none => simp [List.mapM_cons, cons_none_ne rest text]
    | some c =>
      cases text with
      | nil => simp [List.mapM_cons, Option.bind_eq_some_iff]
      | cons d others =>
        simp only [List.mapM_cons, id, Option.bind_eq_bind, Option.bind_some, Option.bind_eq_some_iff, Option.pure_def,
          Option.some.injEq, List.cons.injEq, List.map_cons, inductionHypothesis]
        constructor
        · rintro ⟨later, rfl, rfl, rfl⟩
          exact ⟨rfl, rfl⟩
        · rintro ⟨rfl, rfl⟩
          exact ⟨others, rfl, rfl, rfl⟩

/-- Bytes have a text exactly if they are its encoding. -/
theorem decode?_eq_some_iff {bytes : List UInt8} {text : Text} : decode? bytes = some text ↔ bytes = encode text := by
  rw [decode?, mapM_id_eq_some_iff]
  constructor
  · exact eq_encode_of_scan
  · rintro rfl
    exact scan_encode text

end MapEmbed.Utf8
