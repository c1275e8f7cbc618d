import MapEmbed.Proofs.Migration.Rewriting
import MapEmbed.Proofs.Shortcode.Cutting

/-!
# The cut of a migrated document

Rewriting a map gives it a closing tag. A map before it that had none, and that is not rewritten itself, now ends
at the first closing tag of its name that was added: it takes up everything between. All other maps stay, each in
its current form. `regroup` says what becomes of the pieces of a document, and cutting the migrated document
returns these pieces.
-/

namespace MapEmbed.Migration
open Shortcode Segmentation

/-- Pieces with every map in its current form. -/
def currentPieces (catalog : Catalog) (pieces : List (Text × Occurrence)) : List (Text × Occurrence) :=
  pieces.map fun (gap, o) => (gap, currentOccurrence catalog o)

/-- The migrated text, piece by piece. -/
theorem textOf_currentPieces_cons (catalog : Catalog) (gap : Text) (o : Occurrence)
    (rest : List (Text × Occurrence)) (tail : Text) :
    textOf (currentPieces catalog ((gap, o) :: rest)) tail =
      gap ++ ((currentOccurrence catalog o).source ++ textOf (currentPieces catalog rest) tail) := rfl

/-- What an opening tag comes to enclose: the text up to the closing tag that a map behind it got, whether an extra
bracket follows that, and the pieces that are left. -/
structure Capture where
  content : Text
  after : Bool
  rest : List (Text × Occurrence)

/-- What an opening tag of the given name encloses when closing tags are added behind it; nothing if none of its
name is. -/
def capture? (catalog : Catalog) (tag : Text) : List (Text × Occurrence) → Option Capture
  | [] => none
  | (gap, o) :: rest =>
    let current := currentOccurrence catalog o
    if (moved? catalog o).isSome ∧ o.tag = tag then
      some ⟨gap ++ (current.opening ++ current.contentText), o.brackets.after, rest⟩
    else
      (capture? catalog tag rest).map fun c => { c with content := gap ++ (current.source ++ c.content) }

/-- A capture leaves fewer pieces. -/
theorem length_capture? {catalog : Catalog} {tag : Text} {pieces : List (Text × Occurrence)} {c : Capture}
    (found : capture? catalog tag pieces = some c) : c.rest.length < pieces.length := by
  induction pieces generalizing c with
  | nil => simp [capture?] at found
  | cons piece rest inductionHypothesis =>
    simp only [capture?] at found
    split at found
    · simp only [Option.some.injEq] at found
      subst found
      simp
    · obtain ⟨inner, later, rfl⟩ := Option.map_eq_some_iff.mp found
      have shorter := inductionHypothesis later
      simp only [List.length_cons]
      omega

/-- An unclosed map that comes to enclose what it captures. -/
def enclose (o : Occurrence) (c : Capture) : Occurrence where
  brackets := ⟨o.brackets.before, c.after⟩
  tag := o.tag
  rawAttributes := o.rawAttributes
  body := .enclosing (o.afterOpening ++ c.content) o.tag

/-- The pieces of the migrated document. -/
def regroup (catalog : Catalog) : List (Text × Occurrence) → List (Text × Occurrence)
  | [] => []
  | (gap, o) :: rest =>
    if o.body = .unclosed ∧ moved? catalog o = none then
      match _found : capture? catalog o.tag rest with
      | some c => (gap, enclose o c) :: regroup catalog c.rest
      | none => (gap, o) :: regroup catalog rest
    else
      (gap, currentOccurrence catalog o) :: regroup catalog rest
termination_by pieces => pieces.length
decreasing_by
  · have shorter := length_capture? _found
    simp only [List.length_cons]
    omega
  · simp
  · simp

/-! ### The migrated text -/

/-- Every map has the start of the tags in its source. -/
theorem holds_tagStart {o : Occurrence} (listed : o.tag ∈ mapTags) (front back : Text) :
    Text.holds tagStart (front ++ (o.source ++ back)) = true := by
  have starts : ∀ tag ∈ mapTags, ∃ rest, tag = "sbs".toList ++ rest := by
    intro tag member
    simp only [mapTags, TagFamily.all, List.map_cons, List.map_nil, List.mem_cons, List.not_mem_nil, or_false] at member
    rcases member with rfl | rfl
    · exact ⟨"_wpb_openstreetmap".toList, rfl⟩
    · exact ⟨"_openstreetmap".toList, rfl⟩
  obtain ⟨rest, named⟩ := starts o.tag listed
  have skip (front back : Text) : Text.holds tagStart back = true → Text.holds tagStart (front ++ back) = true := by
    intro holds
    induction front with
    | nil => exact holds
    | cons c others inductionHypothesis =>
      simp only [List.cons_append, Text.holds, inductionHypothesis, Bool.or_true]
  obtain ⟨before, behind, split⟩ : ∃ before behind, o.source = before ++ (tagStart ++ behind) := by
    unfold Occurrence.source Occurrence.opening
    rw [named]
    cases o.brackets.before with
    | true => exact ⟨['['], _, by simp [tagStart]; rfl⟩
    | false => exact ⟨[], _, by simp [tagStart]; rfl⟩
  apply skip
  rw [split, List.append_assoc]
  apply skip
  simp [tagStart, Text.holds]

/-- Replacing each map by its current form makes up the text of the current pieces. -/
theorem replaceFrom_current (catalog : Catalog) (number : Nat) (pieces : List (Text × Occurrence)) (tail : Text) :
    replaceFrom (fun _ o => (migrateOccurrence? catalog o).getD o.source) number pieces tail =
      textOf (currentPieces catalog pieces) tail := by
  induction pieces generalizing number with
  | nil => rfl
  | cons piece rest inductionHypothesis =>
    rw [replaceFrom, inductionHypothesis, migrateOccurrence?_getD]
    rfl

/-- Pieces whose maps all stay as they are. -/
theorem currentPieces_eq_self {catalog : Catalog} {pieces : List (Text × Occurrence)}
    (stays : ∀ piece ∈ pieces, migrateOccurrence? catalog piece.2 = none) : currentPieces catalog pieces = pieces := by
  unfold currentPieces
  rw [List.map_congr_left (g := id) ?_, List.map_id]
  intro piece member
  have unmoved := stays piece member
  rw [migrateOccurrence?_eq, Option.map_eq_none_iff] at unmoved
  simp [currentOccurrence, unmoved]

/-- The text of the pieces is the document. -/
theorem textOf_pieces (document : Text) :
    textOf (ofText .exact mapTags document).pieces (ofText .exact mapTags document).tail = document := by
  rw [← toText_eq, toText_ofText]

/-- Where no tag that can be migrated starts there is no map. -/
theorem pieces_eq_nil_of_not_holds {document : Text} (absent : Text.holds tagStart document = false) :
    (ofText .exact mapTags document).pieces = [] := by
  have whole := textOf_pieces document
  have cuts : Cuts .exact mapTags (ofText .exact mapTags document).pieces (ofText .exact mapTags document).tail :=
    cuts_scan isName_of_mem_mapTags 0 document
  cases found : (ofText .exact mapTags document).pieces with
  | nil => rfl
  | cons piece rest =>
    obtain ⟨gap, o⟩ := piece
    rw [found] at whole cuts
    have present := holds_tagStart (mem_of_stands cuts.2.1) gap (textOf rest (ofText .exact mapTags document).tail)
    rw [textOf] at whole
    rw [whole, absent] at present
    exact absurd present Bool.false_ne_true

/-- The look for the start of a tag does not change what migration returns. -/
theorem migrate?_eq (catalog : Catalog) (document : Text) : migrate? catalog document =
    if (ofText .exact mapTags document).occurrences.any fun o => (migrateOccurrence? catalog o).isSome then
      some ((ofText .exact mapTags document).replace fun _ o => (migrateOccurrence? catalog o).getD o.source)
    else none := by
  rw [migrate?]
  cases present : Text.holds tagStart document with
  | true => rfl
  | false =>
    rw [occurrences, pieces_eq_nil_of_not_holds present]
    rfl

/-- In the migrated document each map is replaced by what it becomes. -/
theorem migrate_eq_replace (catalog : Catalog) (document : Text) :
    migrate catalog document =
      (ofText .exact mapTags document).replace fun _ o => (migrateOccurrence? catalog o).getD o.source := by
  rw [migrate, migrate?_eq]
  split
  · rfl
  · rename_i unchanged
    have stays : ∀ piece ∈ (ofText .exact mapTags document).pieces, migrateOccurrence? catalog piece.2 = none := by
      simpa [occurrences] using unchanged
    rw [Option.getD_none, replace, replaceFrom_current, currentPieces_eq_self stays, textOf_pieces]

/-- The migrated document is made of the current forms of its maps and of its gaps. -/
theorem migrate_eq_textOf (catalog : Catalog) (document : Text) :
    migrate catalog document =
      textOf (currentPieces catalog (ofText .exact mapTags document).pieces) (ofText .exact mapTags document).tail :=
  (migrate_eq_replace catalog document).trans (replaceFrom_current catalog 0 _ _)

/-! ### Closing tags of the migrated text -/

/-- A source ends in a closing bracket. -/
theorem source_concat (o : Occurrence) : ∃ front, o.source = front ++ [']'] := by
  unfold Occurrence.source Occurrence.opening Occurrence.afterOpening Body.source
  cases o.brackets.after with
  | true => exact ⟨_, (List.append_assoc _ _ _).symm⟩
  | false =>
    cases bodied : o.body with
    | selfClosing => exact ⟨((if o.brackets.before then ['[', '['] else ['[']) ++ o.tag ++ o.rawAttributes) ++ ['/'], by simp⟩
    | unclosed => exact ⟨(if o.brackets.before then ['[', '['] else ['[']) ++ o.tag ++ o.rawAttributes, by simp⟩
    | enclosing content written =>
      exact ⟨(((if o.brackets.before then ['[', '['] else ['[']) ++ o.tag ++ o.rawAttributes) ++ [']']) ++
        (content ++ ['[', '/'] ++ written), by simp⟩

/-- The search for a closing tag goes over a gap and a source without one. -/
theorem splitAtClosing?_over {tag gap : Text} {o : Occurrence} (named : IsName tag)
    (gapFree : splitAtClosing? .exact tag gap = none) (sourceFree : splitAtClosing? .exact tag o.source = none)
    (back : Text) :
    splitAtClosing? .exact tag (gap ++ (o.source ++ back)) =
      (splitAtClosing? .exact tag back).map
        fun (content, written, after) => (gap ++ (o.source ++ content), written, after) := by
  obtain ⟨front, ends⟩ := source_concat o
  have overSource := splitAtClosing?_after_bracket named (ends ▸ sourceFree) back
  have overGap := splitAtClosing?_before_bracket named gapFree (o.inner ++ back)
  rw [← List.cons_append, ← o.source_eq] at overGap
  rw [overGap, ends, List.append_assoc, List.singleton_append, overSource, Option.map_map]
  simp [Function.comp_def]

/-- Nothing closes in the pieces of a text in which nothing closes. -/
theorem free_pieces {tag gap : Text} {o : Occurrence} {back : Text} (named : IsName tag)
    (free : splitAtClosing? .exact tag (gap ++ (o.source ++ back)) = none) :
    splitAtClosing? .exact tag gap = none ∧ splitAtClosing? .exact tag o.source = none ∧
      splitAtClosing? .exact tag back = none := by
  obtain ⟨gapFree, later⟩ := splitAtClosing?_append_eq_none named free
  obtain ⟨sourceFree, backFree⟩ := splitAtClosing?_append_eq_none named later
  exact ⟨gapFree, sourceFree, backFree⟩

/-- Nothing closes in the content of a source in which nothing closes. -/
theorem free_contentText_of_source {tag : Text} {o : Occurrence} (named : IsName tag)
    (free : splitAtClosing? .exact tag o.source = none) : splitAtClosing? .exact tag o.contentText = none := by
  cases bodied : o.body with
  | selfClosing => simp [Occurrence.contentText, Body.content?, bodied, splitAtClosing?]
  | unclosed => simp [Occurrence.contentText, Body.content?, bodied, splitAtClosing?]
  | enclosing content written =>
    have parts : o.source = o.opening ++ (content ++ (['[', '/'] ++ written ++ [']'] ++
        (if o.brackets.after then [']'] else []))) := by
      simp [Occurrence.source, Occurrence.afterOpening, Body.source, bodied]
    rw [parts] at free
    have inner := (splitAtClosing?_append_eq_none named free).2
    have content := (splitAtClosing?_append_eq_none named inner).1
    simpa [Occurrence.contentText, Body.content?, bodied] using content

/-- Where nothing closed before, the migrated text is split at the closing tag that the first rewritten map of the
name got. -/
theorem splitAtClosing?_currentPieces {catalog : Catalog} {tag : Text} (listed : tag ∈ mapTags)
    {pieces : List (Text × Occurrence)} {tail : Text} (cuts : Cuts .exact mapTags pieces tail)
    (free : splitAtClosing? .exact tag (textOf pieces tail) = none) :
    splitAtClosing? .exact tag (textOf (currentPieces catalog pieces) tail) =
      (capture? catalog tag pieces).map fun c =>
        (c.content, tag, (if c.after then [']'] else []) ++ textOf (currentPieces catalog c.rest) tail) := by
  have named := isName_of_mem_mapTags tag listed
  induction pieces with
  | nil => exact free
  | cons piece rest inductionHypothesis =>
    obtain ⟨gap, o⟩ := piece
    obtain ⟨-, stands, later⟩ := cuts
    obtain ⟨gapFree, sourceFree, backFree⟩ := free_pieces named free
    have behind := inductionHypothesis later backFree
    have text := textOf_currentPieces_cons catalog gap o rest tail
    -- a map that adds no closing tag of the name is passed over
    have pass (currentFree : splitAtClosing? .exact tag (currentOccurrence catalog o).source = none)
        (kept : ¬((moved? catalog o).isSome ∧ o.tag = tag)) :
        splitAtClosing? .exact tag (textOf (currentPieces catalog ((gap, o) :: rest)) tail) =
          (capture? catalog tag ((gap, o) :: rest)).map fun c =>
            (c.content, tag, (if c.after then [']'] else []) ++ textOf (currentPieces catalog c.rest) tail) := by
      rw [text, splitAtClosing?_over named gapFree currentFree, behind]
      simp only [capture?, kept, if_false, Option.map_map]
      rfl
    cases changes : moved? catalog o with
    | none =>
      apply pass
      · simpa [currentOccurrence, changes] using sourceFree
      · simp [changes]
    | some moved =>
      have current : currentOccurrence catalog o = rewritten o moved := by simp [currentOccurrence, changes]
      have contentFree := free_contentText_of_source named sourceFree
      by_cases same : o.tag = tag
      · subst same
        have openingFree := free_rewritten stands changes listed contentFree
        have split := @splitAtClosing?_content .exact _ _ _ named openingFree ((same_exact _ _).mpr rfl)
          ((if o.brackets.after then [']'] else []) ++ textOf (currentPieces catalog rest) tail)
        have bracketed : (currentOccurrence catalog o).source ++ textOf (currentPieces catalog rest) tail =
            ((rewritten o moved).opening ++ movedContent o.tag moved o.contentText) ++
              '[' :: '/' :: (o.tag ++ ']' :: ((if o.brackets.after then [']'] else []) ++
                textOf (currentPieces catalog rest) tail)) := by
          rw [current, rewritten, source_printed_parts]
          simp
        have starts := splitAtClosing?_before_bracket named gapFree
          ((currentOccurrence catalog o).inner ++ textOf (currentPieces catalog rest) tail)
        rw [← List.cons_append, ← Occurrence.source_eq, bracketed, split] at starts
        rw [text, bracketed, starts]
        simp [capture?, changes, current, rewritten, printed, Occurrence.contentText, Body.content?]
      · apply pass
        · rw [current]
          apply (printable_moved stands changes).free_source o.brackets named
          · exact free_movedContent (mem_of_stands stands) listed contentFree (printable_moved_marker stands changes)
          · exact Bool.eq_false_iff.mpr fun equal => same ((same_exact _ _).mp equal)
        · exact fun both => same both.2

/-! ### The pieces of the migrated text -/

/-- What is left after a capture can be cut, and does not start with a bracket that the capture would have taken. -/
theorem cuts_capture? {catalog : Catalog} {tag tail : Text} {pieces : List (Text × Occurrence)} {c : Capture}
    (found : capture? catalog tag pieces = some c) (cuts : Cuts .exact mapTags pieces tail) :
    Cuts .exact mapTags c.rest tail ∧ (c.after = false → (textOf c.rest tail).head? ≠ some ']') := by
  induction pieces generalizing c with
  | nil => simp [capture?] at found
  | cons piece rest inductionHypothesis =>
    obtain ⟨gap, o⟩ := piece
    obtain ⟨-, stands, later⟩ := cuts
    simp only [capture?] at found
    split at found
    · simp only [Option.some.injEq] at found
      subst found
      exact ⟨later, stands.ended⟩
    · obtain ⟨inner, captured, rfl⟩ := Option.map_eq_some_iff.mp found
      have inside := inductionHypothesis captured later
      exact inside

/-- The current text in front of a capture is what the capture encloses, and the closing tag. -/
theorem textOf_capture? {catalog : Catalog} {tag tail : Text} {pieces : List (Text × Occurrence)} {c : Capture}
    (found : capture? catalog tag pieces = some c) :
    textOf (currentPieces catalog pieces) tail =
      c.content ++ '[' :: '/' :: (tag ++ ']' :: ((if c.after then [']'] else []) ++
        textOf (currentPieces catalog c.rest) tail)) := by
  induction pieces generalizing c with
  | nil => simp [capture?] at found
  | cons piece rest inductionHypothesis =>
    obtain ⟨gap, o⟩ := piece
    have text := textOf_currentPieces_cons catalog gap o rest tail
    simp only [capture?] at found
    split at found
    · rename_i closes
      obtain ⟨changes, rfl⟩ := closes
      obtain ⟨moved, result⟩ := Option.isSome_iff_exists.mp changes
      simp only [Option.some.injEq] at found
      subst found
      have current : currentOccurrence catalog o = rewritten o moved := by simp [currentOccurrence, result]
      rw [text, current, rewritten, source_printed_parts]
      simp [printed, Occurrence.contentText, Body.content?]
    · obtain ⟨inner, captured, rfl⟩ := Option.map_eq_some_iff.mp found
      rw [text, inductionHypothesis captured]
      simp

/-- An unclosed map encloses what it captures and the closing tag that follows. -/
theorem source_enclose {o : Occurrence} (unclosed : o.body = .unclosed) (c : Capture) (rest : Text) :
    (enclose o c).source ++ rest =
      o.source ++ (c.content ++ '[' :: '/' :: (o.tag ++ ']' :: ((if c.after then [']'] else []) ++ rest))) := by
  simp [Occurrence.source, Occurrence.opening, Occurrence.afterOpening, enclose, unclosed, Body.source]

/-- The pieces make up the migrated text. -/
theorem textOf_regroup (catalog : Catalog) (pieces : List (Text × Occurrence)) (tail : Text) :
    textOf (regroup catalog pieces) tail = textOf (currentPieces catalog pieces) tail := by
  fun_induction regroup catalog pieces with
  | case1 => rfl
  | case2 gap o rest stays c found inductionHypothesis =>
    have current : currentOccurrence catalog o = o := by simp [currentOccurrence, stays.2]
    rw [textOf_currentPieces_cons, current, textOf_capture? found, textOf, inductionHypothesis,
      source_enclose stays.1]
  | case3 gap o rest stays missed inductionHypothesis =>
    have current : currentOccurrence catalog o = o := by simp [currentOccurrence, stays.2]
    rw [textOf, inductionHypothesis, textOf_currentPieces_cons, current]
  | case4 gap o rest changes inductionHypothesis =>
    rw [textOf, inductionHypothesis, textOf_currentPieces_cons]

/-- Texts of pieces with the same first gap start with the same character. -/
theorem head?_textOf (gap : Text) (first second : Occurrence) (before after : List (Text × Occurrence)) (tail : Text) :
    (textOf ((gap, first) :: before) tail).head? = (textOf ((gap, second) :: after) tail).head? := by
  cases gap with
  | nil => simp only [textOf, Occurrence.source_eq, List.nil_append, List.cons_append, List.head?_cons]
  | cons c rest => rfl

/-- The migrated text starts with the character that the old one started with. -/
theorem head?_regroup (catalog : Catalog) (pieces : List (Text × Occurrence)) (tail : Text) :
    (textOf (regroup catalog pieces) tail).head? = (textOf pieces tail).head? := by
  rw [textOf_regroup]
  cases pieces with
  | nil => rfl
  | cons piece rest => exact head?_textOf piece.1 _ _ _ _ tail

/-- A gap before a map stays vacant when the map is replaced by one with the same tag and the same bracket before
it. -/
theorem vacant_replace {gap first second : Text} {o new : Occurrence} (listed : o.tag ∈ mapTags)
    (apart : endsName o.rawAttributes = true) (sameBefore : new.brackets.before = o.brackets.before)
    (vacant : Vacant .exact mapTags gap (o.source ++ first)) : Vacant .exact mapTags gap (new.source ++ second) := by
  have closes (o : Occurrence) (rest : Text) : ']' ∈ o.inner ++ rest := by
    obtain ⟨front, ends⟩ := source_concat o
    have inside : ']' ∈ o.source := by simp [ends]
    rw [o.source_eq] at inside
    simp only [List.mem_cons] at inside
    rcases inside with bracket | inner
    · exact absurd bracket (by decide)
    · exact List.mem_append_left rest inner
  rw [o.source_eq, List.cons_append] at vacant
  rw [new.source_eq, List.cons_append]
  refine vacant.congr isName_of_mem_mapTags ⟨closes o first, closes new second⟩ ?_
  intro missed
  cases extra : o.brackets.before with
  | true =>
    have opened (tag : Text) (listed : tag ∈ mapTags) (rest : Text) : takeTag? .exact ('[' :: rest) tag = none := by
      have named := isName_of_mem_mapTags tag listed
      obtain ⟨c, others, rfl⟩ := List.exists_cons_of_ne_nil named.1
      simp only [takeTag?, List.length_cons, List.take_succ_cons, ite_eq_right_iff, reduceCtorEq, imp_false,
        Bool.and_eq_true, not_and]
      intro same
      have bracket := (List.cons.inj ((same_exact _ _).mp same)).1
      exact absurd (named.2 c List.mem_cons_self) (by rw [← bracket]; decide)
    apply List.findSome?_eq_none_iff.mpr
    intro tag listed
    unfold Occurrence.inner
    rw [sameBefore, extra]
    exact opened tag listed _
  | false =>
    -- the old map itself starts with a tag
    have ends : endsName (o.rawAttributes ++ ((if o.body = .selfClosing then ['/', ']'] else [']']) ++
        (o.body.source ++ (if o.brackets.after then [']'] else []))) ++ first) = true := by
      cases raw : o.rawAttributes with
      | nil =>
        split
        · exact (by decide : (!continuesName '/') = true)
        · exact (by decide : (!continuesName ']') = true)
      | cons c others =>
        rw [raw] at apart
        exact apart
    have taken := takeFirstTag?_written isName_of_mem_mapTags listed ((same_exact o.tag o.tag).mpr rfl) ends
    have inner : o.inner ++ first = o.tag ++ (o.rawAttributes ++ ((if o.body = .selfClosing then ['/', ']'] else [']']) ++
        (o.body.source ++ (if o.brackets.after then [']'] else []))) ++ first) := by
      simp [Occurrence.inner, extra]
    rw [inner, taken] at missed
    exact absurd missed (by simp)

/-- The pieces of the migrated text are those into which it can be cut. -/
theorem cuts_regroup {catalog : Catalog} {pieces : List (Text × Occurrence)} {tail : Text}
    (cuts : Cuts .exact mapTags pieces tail) : Cuts .exact mapTags (regroup catalog pieces) tail := by
  fun_induction regroup catalog pieces with
  | case1 => exact cuts
  | case2 gap o rest stays c found inductionHypothesis =>
    obtain ⟨vacant, stands, later⟩ := cuts
    have listed := mem_of_stands stands
    have named := isName_of_mem_mapTags _ listed
    obtain ⟨left, ended⟩ := cuts_capture? found later
    have body := stands.body
    rw [stays.1] at body
    -- what is captured closes nothing, since the search for a closing tag went over it
    have behind := (splitAtClosing?_append_eq_none named body).2
    have split := @splitAtClosing?_currentPieces catalog _ listed _ _ later behind
    rw [found] at split
    have content := splitAtClosing?_free named split
    refine ⟨vacant_replace listed stands.apart rfl vacant, ?_, inductionHypothesis left⟩
    refine ⟨stands.listed, stands.apart, stands.closed, fun _ => stands.open_ (by simp [stays.1]), ⟨?_, ?_⟩, ?_⟩
    · unfold Occurrence.afterOpening
      rw [stays.1]
      cases o.brackets.after with
      | true =>
        have bracket : takeClosing? .exact o.tag (']' :: c.content) = none := by simp [takeClosing?]
        exact splitAtClosing?_cons_eq_none.mpr ⟨bracket, content⟩
      | false => exact content
    · exact (same_exact _ _).mpr rfl
    · intro plain
      rw [head?_regroup]
      exact ended plain
  | case3 gap o rest stays missed inductionHypothesis =>
    obtain ⟨vacant, stands, later⟩ := cuts
    have listed := mem_of_stands stands
    have named := isName_of_mem_mapTags _ listed
    have body := stands.body
    rw [stays.1] at body
    have behind := (splitAtClosing?_append_eq_none named body).2
    have split := @splitAtClosing?_currentPieces catalog _ listed _ _ later behind
    rw [missed] at split
    refine ⟨vacant_replace listed stands.apart rfl vacant, ?_, inductionHypothesis later⟩
    refine ⟨stands.listed, stands.apart, stands.closed, stands.open_, ?_, ?_⟩
    · rw [stays.1, textOf_regroup]
      cases o.brackets.after with
      | true =>
        have bracket : takeClosing? .exact o.tag (']' :: textOf (currentPieces catalog rest) tail) = none := by
          simp [takeClosing?]
        exact splitAtClosing?_cons_eq_none.mpr ⟨bracket, split⟩
      | false => exact split
    · intro plain
      rw [head?_regroup]
      exact stands.ended plain
  | case4 gap o rest changes inductionHypothesis =>
    obtain ⟨vacant, stands, later⟩ := cuts
    have listed := mem_of_stands stands
    have ended (plain : o.brackets.after = false) : (textOf (regroup catalog rest) tail).head? ≠ some ']' := by
      rw [head?_regroup]
      exact stands.ended plain
    refine ⟨vacant_replace listed stands.apart (by simp) vacant, ?_, inductionHypothesis later⟩
    cases result : moved? catalog o with
    | some moved =>
      have current : currentOccurrence catalog o = rewritten o moved := by simp [currentOccurrence, result]
      rw [current]
      exact rewritten_stands stands result ended
    | none =>
      have current : currentOccurrence catalog o = o := by simp [currentOccurrence, result]
      rw [current]
      refine ⟨stands.listed, stands.apart, stands.closed, stands.open_, ?_, ended⟩
      have body := stands.body
      cases bodied : o.body with
      | selfClosing => trivial
      | unclosed => exact absurd ⟨bodied, result⟩ changes
      | enclosing content written =>
        rw [bodied] at body
        exact body

/-- The cut of a migrated document: every map in its current form, except that an unclosed map that stays takes up
all that comes before the first closing tag that its name got behind it. -/
theorem ofText_migrate (catalog : Catalog) (document : Text) :
    ofText .exact mapTags (migrate catalog document) =
      ⟨regroup catalog (ofText .exact mapTags document).pieces, (ofText .exact mapTags document).tail⟩ := by
  have cuts : Cuts .exact mapTags (ofText .exact mapTags document).pieces (ofText .exact mapTags document).tail :=
    cuts_scan isName_of_mem_mapTags 0 document
  rw [migrate_eq_textOf, ← textOf_regroup]
  exact ofText_textOf isName_of_mem_mapTags (cuts_regroup cuts)

end MapEmbed.Migration
