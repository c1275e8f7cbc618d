import MapEmbed.Proofs.Html.Clean

/-!
# Addresses that run code

A browser does not open an address as it is written: it drops control characters and spaces in front, and tabs and line
ends wherever they stand. If what is left starts with one of three schemes, in capitals or not, it runs code or shows
content that came with the address.

The sanitizer passes over more than a browser does: over all blanks and control characters, wherever they stand. So it
sees in every address the scheme that a browser sees. Nothing is said of other schemes.
-/

namespace MapEmbed.Html

/-- An address as a browser opens it: without control characters and spaces in front, without tabs and line ends. -/
def openedAddress (value : Text) : Text :=
  (value.dropWhile fun c => decide (c.toNat ≤ 0x20)).filter fun c => !(c == '\t' || c == '\n' || c == '\r')

/-- An address that runs code: once it is opened, it starts with one of three schemes, in letters of either case. -/
def RunsCode (value : Text) : Prop :=
  ∃ written rest, openedAddress value = written ++ rest ∧
    written.map Unicode.asciiLower ∈ names ["javascript:", "vbscript:", "data:"]

/-- Whether a careless reader sees a character of an address. -/
def isSeen (c : Char) : Bool :=
  !Unicode.isBlank c && !Unicode.isControl c

/-! ### The careless reader and the browser -/

/-- A letter is seen in either case. -/
theorem isSeen_asciiLower (c : Char) : isSeen (Unicode.asciiLower c) = isSeen c :=
  Unicode.asciiLower_congr isSeen (by decide) c

/-- A careless reader may lower the letters before the other characters are dropped. -/
theorem bareAddress_eq (value : Text) : bareAddress value = (value.map Unicode.asciiLower).filter isSeen := by
  have same : isSeen ∘ Unicode.asciiLower = isSeen := funext isSeen_asciiLower
  rw [List.filter_map, same]
  rfl

/-- A careless reader reads the parts of an address one after the other. -/
theorem bareAddress_append (front back : Text) :
    bareAddress (front ++ back) = bareAddress front ++ bareAddress back := by
  rw [bareAddress, bareAddress, bareAddress, List.filter_append, List.map_append]

/-- Characters that a careless reader does not see may be dropped. -/
theorem bareAddress_filter {keep : Char → Bool} (unseen : ∀ c, keep c = false → isSeen c = false) (value : Text) :
    bareAddress (value.filter keep) = bareAddress value := by
  have same : (fun c => isSeen c && keep c) = isSeen := by
    funext c
    cases kept : keep c with
    | true => exact Bool.and_true _
    | false => rw [unseen c kept, Bool.false_and]
  have dropped : (value.filter keep).filter isSeen = value.filter isSeen := by
    rw [List.filter_filter, same]
  exact congrArg (List.map Unicode.asciiLower) dropped

/-- Characters that a careless reader does not see may be missing in front. -/
theorem bareAddress_dropWhile {passed : Char → Bool} (unseen : ∀ c, passed c = true → isSeen c = false)
    (value : Text) : bareAddress (value.dropWhile passed) = bareAddress value := by
  have nothing : (value.takeWhile passed).filter isSeen = [] := by
    rw [List.filter_eq_nil_iff]
    intro c member
    exact Bool.eq_false_iff.mp (unseen c (List.all_eq_true.mp List.all_takeWhile c member))
  have front : bareAddress (value.takeWhile passed) = [] := congrArg (List.map Unicode.asciiLower) nothing
  calc bareAddress (value.dropWhile passed)
      = bareAddress (value.takeWhile passed) ++ bareAddress (value.dropWhile passed) := by rw [front, List.nil_append]
    _ = bareAddress (value.takeWhile passed ++ value.dropWhile passed) := (bareAddress_append _ _).symm
    _ = bareAddress value := by rw [List.takeWhile_append_dropWhile]

/-- A careless reader sees no control character and no space. -/
theorem isSeen_of_low {c : Char} (low : c.toNat ≤ 0x20) : isSeen c = false := by
  have every : ∀ n : Fin 0x21, isSeen (Char.ofNat n.val) = false := by decide
  have here := every ⟨c.toNat, Nat.lt_succ_of_le low⟩
  simpa only [Char.ofNat_toNat] using here

/-- What a careless reader sees of an address, he sees of what a browser opens. -/
theorem bareAddress_openedAddress (value : Text) : bareAddress (openedAddress value) = bareAddress value := by
  rw [openedAddress, bareAddress_filter, bareAddress_dropWhile]
  · intro c passed
    exact isSeen_of_low (of_decide_eq_true passed)
  · intro c gap
    simp only [Bool.not_eq_false', Bool.or_eq_true, beq_iff_eq] at gap
    rcases gap with (rfl | rfl) | rfl <;> decide

/-- In an address that runs code, a careless reader sees an unsafe scheme. -/
theorem RunsCode.exists_prefix {value : Text} (runs : RunsCode value) :
    ∃ scheme ∈ unsafeSchemes, scheme <+: bareAddress value := by
  obtain ⟨written, rest, opened, scheme⟩ := runs
  have plain : ∀ scheme ∈ unsafeSchemes, scheme.filter isSeen = scheme := by decide
  have front : bareAddress written = written.map Unicode.asciiLower := by
    rw [bareAddress_eq, plain _ scheme]
  refine ⟨written.map Unicode.asciiLower, scheme, ?_⟩
  rw [← bareAddress_openedAddress, opened, bareAddress_append, front]
  exact List.prefix_append _ _

/-! ### Clean markup -/

/-- An attribute with an unsafe value makes no difference to what is written for an element. -/
theorem cleanNode_of_unsafe {name value : Text} (harmful : isSafeValue name value = false) (tag : Text)
    (front back : List (Text × Text)) (children : List Node) :
    cleanNode (.element tag (front ++ (name, value) :: back) children) =
      cleanNode (.element tag (front ++ back) children) := by
  have kept (own : List Text) :
      keptAttributes own (front ++ (name, value) :: back) = keptAttributes own (front ++ back) := by
    have refused : (allowsAttribute own name && isSafeValue name value) = false := by rw [harmful, Bool.and_false]
    simp only [keptAttributes, List.filter_append, List.filter_cons, refused, Bool.false_eq_true, if_false]
  simp only [cleanNode, kept]

/-- Each start tag of allowed markup may be written. -/
theorem AllowedMarkup.tag {given : List Token} (allowed : AllowedMarkup given) {tag : Tag}
    (member : .startTag tag ∈ given) : AllowedTag tag := by
  induction allowed with
  | nil => simp at member
  | char c later inductionHypothesis => exact inductionHypothesis (by simpa using member)
  | nul later inductionHypothesis => exact inductionHypothesis (by simpa using member)
  | void allowed bare later inductionHypothesis =>
    rcases List.mem_cons.mp member with same | later
    · exact Token.startTag.inj same ▸ allowed
    · exact inductionHypothesis later
  | element allowed full content later insideHypothesis inductionHypothesis =>
    simp only [List.mem_cons, List.mem_append, reduceCtorEq, false_or] at member
    rcases member with same | inside | later
    · exact Token.startTag.inj same ▸ allowed
    · exact insideHypothesis inside
    · exact inductionHypothesis later

/-- An address that runs code counts as unsafe, and it is as if its attribute were not there, whatever the tag. What
any markup is cleaned to has no such address for whoever reads it. -/
theorem runsCode_left_out :
    (∀ name ∈ names ["href", "src", "cite"], ∀ value, RunsCode value → isSafeValue name value = false ∧
      ∀ tag front back children, cleanNode (.element tag (front ++ (name, value) :: back) children) =
        cleanNode (.element tag (front ++ back) children)) ∧
    ∀ readers, Sound readers → ∀ known markup tag, .startTag tag ∈ tokens readers (sanitizeWith known markup) →
      ∀ entry ∈ tag.attributes, entry.1 ∈ names ["href", "src", "cite"] → ¬RunsCode entry.2 := by
  constructor
  · intro name address value runs
    have harmful : isSafeValue name value = false := by
      rw [Bool.eq_false_iff, Ne, isSafeValue_iff]
      intro safe
      obtain ⟨scheme, listed, starts⟩ := runs.exists_prefix
      exact safe address scheme listed starts
    exact ⟨harmful, cleanNode_of_unsafe harmful⟩
  · intro readers sound known markup tag member entry given address runs
    have allowed : AllowedMarkup (tokens readers (sanitizeWith known markup)) := by
      rw [sanitizeWith, tokens_cleanNodes sound named_of_mem_parseFragmentWith]
      exact (allowedMarkup_emittedNodes _).withoutMarkToken.normalTokens.reread
    obtain ⟨scheme, listed, starts⟩ := runs.exists_prefix
    exact (allowed.tag member).addresses entry given address scheme listed starts

/-- A control character in front, a line end in the scheme and capitals hide nothing: not in a tree, and not in markup. -/
theorem runsCode_left_out_hidden :
    RunsCode (Char.ofNat 1 :: " Java\nScript:alert(1)".toList) ∧
      cleanNode (.element "a".toList
        [("href".toList, Char.ofNat 1 :: " Java\nScript:alert(1)".toList), ("title".toList, "t".toList)] []) =
        "<a title=\"t\"></a>".toList ∧
      ∀ tag, .startTag tag ∈ tokens namedReferences (sanitize "<img src=' Java&NewLine;Script:alert(1)' alt=x>".toList) →
        ∀ entry ∈ tag.attributes, entry.1 ∈ names ["href", "src", "cite"] → ¬RunsCode entry.2 := by
  obtain ⟨written, read⟩ := runsCode_left_out
  have runs : RunsCode (Char.ofNat 1 :: " Java\nScript:alert(1)".toList) :=
    ⟨"JavaScript:".toList, "alert(1)".toList, by decide, by decide⟩
  refine ⟨runs, ?_, ?_⟩
  · have same := (written "href".toList (by decide) _ runs).2 "a".toList [] [("title".toList, "t".toList)] []
    rw [← List.nil_append (_ :: _), same]
    decide
  · exact read namedReferences sound_namedReferences namedReferences
      "<img src=' Java&NewLine;Script:alert(1)' alt=x>".toList

end MapEmbed.Html
