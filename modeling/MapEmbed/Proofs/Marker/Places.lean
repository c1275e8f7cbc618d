import Mathlib.Data.List.Forall2
import MapEmbed.Marker.Listing
import MapEmbed.Proofs.Shortcode.Grammar

/-!
# Where markers are read

The search for markers can be written over byte positions: each marker tag that the search finds is cut out of the
content with its attribute text, and its own text is looked for in all that follows the opening tag. That text need not
belong to the shortcode. It goes on behind a shortcode without a closing tag, and it stops inside one at the first
bracket. Still the pieces never run into each other: the text of a marker holds no bracket, and every later shortcode
starts with one.
-/

namespace MapEmbed.Marker
open Shortcode Text

/-- The bytes of the pieces of one marker. -/
structure Place where
  /-- The opening tag. -/
  opening : Text.Span
  /-- The attribute text. -/
  attributes : Text.Span
  /-- The text after the opening tag. -/
  text : Text.Span
  deriving DecidableEq, Repr

/-- The pieces of a marker, from left to right. -/
def Place.pieces (place : Place) : List Text.Span :=
  [place.attributes, place.text]

/-- The place of a shortcode that the search reports. Its text goes to the next bracket of the whole content, or to the
end. -/
def placeOf? (content : Text) (found : Positions.Report) : Option Place := do
  let rest ← dropBytes? content found.opening.stop
  let size := (offsetOf? ['['] rest).getD rest.byteSize
  let ending := found.opening.stop - if found.selfClosing then 2 else 1
  return ⟨found.opening, ⟨ending - found.rawAttributes.byteSize, ending⟩,
    ⟨found.opening.stop, found.opening.stop + size⟩⟩

/-- The places of the markers of a content, as a search by positions finds them. -/
def placesOf? (content : Text) : Option (List Place) := do
  let found ← Positions.reportsFrom? .ignoring markerTags content 0
  (found.filter fun report => !report.brackets.escaped).mapM (placeOf? content)

/-- What stands at a place. -/
def readAt? (content : Text) (place : Place) : Option Reading := do
  return ⟨← slice? content place.attributes, ← slice? content place.text⟩

/-- The shortcodes of a content that are markers, each with the byte at which it starts. -/
def visibleTags (content : Text) : List (Nat × Occurrence) :=
  (Segmentation.ofText .ignoring markerTags content).located.filter fun hit => !hit.2.escaped

/-- A place is cut out as it should be. -/
structure Place.CutFrom (content : Text) (place : Place) : Prop where
  /-- The attribute text lies inside the opening tag. -/
  inside : place.opening.start < place.attributes.start ∧ place.attributes.start ≤ place.attributes.stop ∧
    place.attributes.stop < place.opening.stop
  /-- The text starts where the opening tag stops. -/
  behind : place.text.start = place.opening.stop
  /-- There the bracket that closes the tag was the last character. -/
  closed : standsAt content (place.text.start - 1) ']' = true
  /-- The text holds no bracket. -/
  free : ∃ inner, slice? content place.text = some inner ∧ '[' ∉ inner
  /-- It goes on for as long as it can. -/
  maximal : place.text.stop = content.byteSize ∨ standsAt content place.text.stop '[' = true

/-- The places of the markers of a content are the right ones. -/
structure ExtractedAt (content : Text) (places : List Place) : Prop where
  /-- The markers and the escaped tags are the shortcodes with a marker's name in any case. -/
  found : FindsFrom .ignoring markerTags content 0 (Segmentation.ofText .ignoring markerTags content).located
  /-- There is one for each marker, in the order of the content. -/
  tags : places.map Place.opening = (visibleTags content).map fun hit => hit.2.openingSpan hit.1
  /-- The readings stand there. -/
  read : List.Forall₂ (fun place reading => readAt? content place = some reading) places (readings content)
  /-- Each is cut out as it should be. -/
  cut : ∀ place ∈ places, place.CutFrom content
  /-- The pieces of all of them follow one another. -/
  ordered : (places.flatMap Place.pieces).Pairwise fun piece later => piece.stop ≤ later.start
  /-- Each stops before any later shortcode, be it a marker or an escaped tag. -/
  apart : ∀ place ∈ places, ∀ hit ∈ (Segmentation.ofText .ignoring markerTags content).located,
    place.opening.start < hit.1 → place.text.stop ≤ hit.1
  /-- The list has one marker for each, made of its attribute text. -/
  attributes : List.Forall₂
    (fun hit m => { m with text := none } = ofAttributes (Attributes.parseLenient hit.2.rawAttributes))
    (visibleTags content) (listing content)
  /-- A marker has the text at its place, unless that is empty. -/
  texts : List.Forall₂ (fun place m => ∃ text, slice? content place.text = some text ∧
    m.text = if text = [] then none else some text) places (listing content)

/-- A shortcode with its reading, between two texts that make up a content with them. -/
structure ReadBetween (front back content : Text) (o : Occurrence) (reading : Reading) : Prop where
  whole : content = (front ++ o.opening) ++ (reading.text ++ back)
  attributes : reading.attributes = o.rawAttributes
  free : '[' ∉ reading.text
  ended : ∀ c ∈ back.head?, c = '['

/-- A shortcode is read where it starts. -/
def Reads (content : Text) (hit : Nat × Occurrence) (reading : Reading) : Prop :=
  ∃ front back, front.byteSize = hit.1 ∧ ReadBetween front back content hit.2 reading

section
variable {content front back : Text} {o : Occurrence} {reading : Reading} {hit : Nat × Occurrence}
  {hits : List (Nat × Occurrence)} {listed : List Reading} {place : Place} {places : List Place}

/-! ### The reader finds what stands there -/

/-- A shortcode is read up to the next bracket behind its opening tag. -/
theorem readBetween (front : Text) (o : Occurrence) (rest : Text) :
    ReadBetween front ((o.afterOpening ++ rest).dropWhile (· != '[')) (front ++ (o.source ++ rest)) o
      ⟨o.rawAttributes, textAfter o rest⟩ where
  whole := by
    rw [textAfter, List.takeWhile_append_dropWhile, Occurrence.source]
    simp
  attributes := rfl
  free := by
    intro member
    simpa using List.all_eq_true.mp List.all_takeWhile '[' member
  ended := by
    intro c first
    have stops := List.head?_dropWhile_not (· != '[') (o.afterOpening ++ rest)
    rw [Option.mem_def.mp first] at stops
    simpa using stops

/-- No more is needed of what follows than the gap before the next shortcode. -/
theorem textAfter_nextGap (o : Occurrence) (pieces : List (Text × Occurrence)) (tail : Text) :
    textAfter o (nextGap tail pieces) = textAfter o (Segmentation.textOf pieces tail) := by
  cases pieces with
  | nil => rfl
  | cons piece others =>
    obtain ⟨gap, next⟩ := piece
    rw [nextGap, Segmentation.textOf, next.source_eq, textAfter, textAfter, List.cons_append, ← List.append_assoc]
    generalize o.afterOpening ++ gap = text
    induction text with
    | nil => rfl
    | cons c rest inductionHypothesis =>
      rw [List.cons_append, List.takeWhile_cons, List.takeWhile_cons, inductionHypothesis]

/-- The shortcodes of pieces are read where they start, but for the escaped ones. -/
theorem reads_readingsOf {pieces : List (Text × Occurrence)} {tail : Text} (front : Text)
    (whole : content = front ++ Segmentation.textOf pieces tail) :
    List.Forall₂ (Reads content) ((Segmentation.locateFrom front.byteSize pieces).filter fun hit => !hit.2.escaped)
      (readingsOf tail pieces) := by
  induction pieces generalizing front with
  | nil => exact .nil
  | cons piece others inductionHypothesis =>
    obtain ⟨gap, o⟩ := piece
    have later := inductionHypothesis (front ++ gap ++ o.source) (by simpa [Segmentation.textOf] using whole)
    rw [byteSize_append, byteSize_append] at later
    rw [Segmentation.locateFrom, readingsOf]
    cases escaped : o.escaped with
    | true => simpa [escaped] using later
    | false =>
      have here := readBetween (front ++ gap) o (Segmentation.textOf others tail)
      rw [List.append_assoc front, ← Segmentation.textOf, ← whole, ← textAfter_nextGap] at here
      simp only [escaped, Bool.not_false, List.filter_cons_of_pos, Bool.false_eq_true, if_false]
      exact .cons ⟨front ++ gap, _, byteSize_append front gap, here⟩ later

/-- The markers of a content are read where they start. -/
theorem reads_readings (content : Text) : List.Forall₂ (Reads content) (visibleTags content) (readings content) :=
  reads_readingsOf [] ((Segmentation.toText_ofText .ignoring markerTags content).symm.trans (Segmentation.toText_eq _))

/-! ### The place of one marker -/

/-- The start of an opening tag, up to the attribute text. -/
def tagStart (o : Occurrence) : Text :=
  (if o.brackets.before then ['[', '['] else ['[']) ++ o.tag

/-- The slash of a tag that closes itself. -/
def slash (o : Occurrence) : Text :=
  if o.body = .selfClosing then ['/'] else []

/-- Where a shortcode and the text behind it stand if it starts at a given byte. -/
def placeAt (start : Nat) (o : Occurrence) (text : Text) : Place :=
  let named := start + byteSize (tagStart o)
  let opened := start + o.opening.byteSize
  ⟨o.openingSpan start, ⟨named, named + o.rawAttributes.byteSize⟩, ⟨opened, opened + text.byteSize⟩⟩

/-- The parts of an opening tag. -/
theorem opening_eq (o : Occurrence) : o.opening = tagStart o ++ (o.rawAttributes ++ (slash o ++ [']'])) := by
  unfold Occurrence.opening tagStart slash
  by_cases selfClosing : o.body = .selfClosing <;> simp [selfClosing]

/-- The sizes of the parts. -/
theorem byteSize_opening_parts (o : Occurrence) :
    o.opening.byteSize = byteSize (tagStart o) + (o.rawAttributes.byteSize + (byteSize (slash o) + 1)) := by
  rw [opening_eq, byteSize_append, byteSize_append, byteSize_concat]
  rfl

/-- Every tag has a start. -/
theorem byteSize_tagStart_pos (o : Occurrence) : 0 < byteSize (tagStart o) := by
  obtain ⟨rest, starts⟩ : ∃ rest, tagStart o = '[' :: rest := by
    unfold tagStart
    cases o.brackets.before <;> exact ⟨_, rfl⟩
  have bracket := ('[' : Char).utf8Size_pos
  rw [starts, byteSize_cons]
  omega

/-- The end of an opening tag has one or two characters. -/
theorem byteSize_slash (start : Nat) (o : Occurrence) :
    (if (Positions.report start o).selfClosing then 2 else 1) = byteSize (slash o) + 1 := by
  unfold Positions.report slash
  by_cases selfClosing : o.body = .selfClosing
  · simp only [selfClosing, if_true, decide_true]
    rfl
  · simp [selfClosing]

/-- The first bracket stands behind a text without brackets, unless nothing follows. -/
theorem offsetOf?_bracket {text : Text} (free : '[' ∉ text) (ended : ∀ c ∈ back.head?, c = '[') :
    (offsetOf? ['['] (text ++ back)).getD (text ++ back).byteSize = text.byteSize := by
  induction text with
  | nil =>
    cases back with
    | nil => rfl
    | cons c others => simp [offsetOf?, ended c rfl]
  | cons c rest inductionHypothesis =>
    rw [List.mem_cons, not_or] at free
    have other : ('[' == c) = false := beq_eq_false_iff_ne.mpr free.1
    have later := inductionHypothesis free.2
    rw [List.cons_append, byteSize_cons, byteSize_cons, ← later]
    cases found : offsetOf? ['['] (rest ++ back) <;> simp [offsetOf?, List.isPrefixOf, other, found]

namespace ReadBetween

/-- The content, cut in front of the attribute text. -/
theorem attributes_whole (between : ReadBetween front back content o reading) :
    content = (front ++ tagStart o) ++ (reading.attributes ++ (slash o ++ ']' :: (reading.text ++ back))) := by
  rw [between.whole, between.attributes, opening_eq]
  simp

/-- The search gives the place. -/
theorem placeOf?_eq (between : ReadBetween front back content o reading) :
    placeOf? content (Positions.report front.byteSize o) = some (placeAt front.byteSize o reading.text) := by
  have stop : (Positions.report front.byteSize o).opening.stop = byteSize (front ++ o.opening) :=
    (byteSize_append front o.opening).symm
  have rested : dropBytes? content (byteSize (front ++ o.opening)) = some (reading.text ++ back) := by
    rw [between.whole, dropBytes?_append]
  have sizes := byteSize_opening_parts o
  simp only [placeOf?, byteSize_slash, stop, rested, Option.bind_eq_bind, Option.bind_some,
    offsetOf?_bracket between.free between.ended]
  simp only [placeAt, Positions.report, Option.pure_def, Option.some.injEq, Place.mk.injEq, Span.mk.injEq,
    byteSize_append, true_and, and_true]
  omega

/-- The text is the slice behind the opening tag. -/
theorem slice?_text (between : ReadBetween front back content o reading) :
    slice? content (placeAt front.byteSize o reading.text).text = some reading.text := by
  have text := slice?_append (front ++ o.opening) reading.text back
  rwa [← between.whole, byteSize_append] at text

/-- The reading stands at the place. -/
theorem readAt?_placeAt (between : ReadBetween front back content o reading) :
    readAt? content (placeAt front.byteSize o reading.text) = some reading := by
  have attributes := slice?_append (front ++ tagStart o) reading.attributes (slash o ++ ']' :: (reading.text ++ back))
  rw [← between.attributes_whole, byteSize_append] at attributes
  rw [readAt?, between.slice?_text]
  simp only [placeAt, ← between.attributes, attributes, Option.bind_eq_bind, Option.bind_some, Option.pure_def]

/-- The place is cut out as it should be. -/
theorem cutFrom (between : ReadBetween front back content o reading) :
    (placeAt front.byteSize o reading.text).CutFrom content where
  inside := by
    have sizes := byteSize_opening_parts o
    have filled := byteSize_tagStart_pos o
    simp only [placeAt, Occurrence.openingSpan]
    omega
  behind := rfl
  closed := by
    have whole : content = (front ++ tagStart o ++ reading.attributes ++ slash o) ++ ']' :: (reading.text ++ back) := by
      rw [between.attributes_whole]
      simp
    have bracket := standsAt_front (c := ']') (front ++ tagStart o ++ reading.attributes ++ slash o)
      (']' :: (reading.text ++ back)) (by decide)
    have sizes := byteSize_opening_parts o
    have before : front.byteSize + o.opening.byteSize - 1 =
        byteSize (front ++ tagStart o ++ reading.attributes ++ slash o) := by
      simp only [byteSize_append, between.attributes]
      omega
    rw [← whole, ← before] at bracket
    exact bracket
  free := ⟨reading.text, between.slice?_text, between.free⟩
  maximal := by
    have next := standsAt_front (c := '[') (front ++ o.opening ++ reading.text) back (by decide)
    rw [List.append_assoc, ← between.whole, byteSize_append, byteSize_append] at next
    cases found : back with
    | nil =>
      left
      rw [between.whole, found, List.append_nil, byteSize_append, byteSize_append]
      rfl
    | cons c others =>
      right
      have first : c = '[' := between.ended c (by rw [found]; rfl)
      rw [found, first] at next
      simpa [placeAt] using next

end ReadBetween

/-! ### The places of all markers -/

/-- The markers that are read have places, one by one. -/
theorem exists_places (reads : List.Forall₂ (Reads content) hits listed) :
    ∃ places, (hits.map fun hit => Positions.report hit.1 hit.2).mapM (placeOf? content) = some places ∧
      places.map Place.opening = hits.map (fun hit => hit.2.openingSpan hit.1) ∧
      List.Forall₂ (fun place reading => readAt? content place = some reading) places listed ∧
      ∀ place ∈ places, place.CutFrom content := by
  induction reads with
  | nil => exact ⟨[], rfl, rfl, .nil, by simp⟩
  | @cons hit reading hits listed here later inductionHypothesis =>
    obtain ⟨start, o⟩ := hit
    obtain ⟨front, back, rfl, between⟩ := here
    obtain ⟨places, found, openings, readings, cut⟩ := inductionHypothesis
    refine ⟨placeAt front.byteSize o reading.text :: places, ?_, ?_, .cons between.readAt?_placeAt readings,
      List.forall_mem_cons.mpr ⟨between.cutFrom, cut⟩⟩
    · rw [List.map_cons, List.mapM_cons, between.placeOf?_eq, found]
      rfl
    · rw [List.map_cons, List.map_cons, openings]
      rfl

/-- A text does not stop before it starts. -/
theorem Place.CutFrom.text_forward (cut : place.CutFrom content) : place.text.start ≤ place.text.stop := by
  obtain ⟨inner, sliced, -⟩ := cut.free
  obtain ⟨front, back, -, span⟩ := slice?_eq_some_iff.mp sliced
  rw [span]
  exact Nat.le_add_right _ _

/-- The text at a place stops before any shortcode that starts behind the opening tag. -/
theorem Place.CutFrom.stop_le (cut : place.CutFrom content) {before rest : Text}
    (whole : content = before ++ (o.source ++ rest)) (behind : place.opening.stop ≤ before.byteSize) :
    place.text.stop ≤ before.byteSize := by
  refine Nat.le_of_not_lt fun inside => ?_
  obtain ⟨inner, sliced, free⟩ := cut.free
  rw [o.source_eq, List.cons_append] at whole
  exact free (mem_of_slice? sliced whole (cut.behind ▸ behind) inside)

/-- The markers of a content are shortcodes of it. -/
theorem findsFrom_located_markers (content : Text) :
    FindsFrom .ignoring markerTags content 0 (Segmentation.ofText .ignoring markerTags content).located :=
  Segmentation.findsFrom_located isName_of_mem_markerTags content

/-- The opening tag at a place is that of a marker. -/
theorem exists_hit (tags : places.map Place.opening = (visibleTags content).map fun hit => hit.2.openingSpan hit.1)
    (member : place ∈ places) : ∃ hit ∈ (Segmentation.ofText .ignoring markerTags content).located,
      place.opening = hit.2.openingSpan hit.1 := by
  have opening : place.opening ∈ (visibleTags content).map fun hit => hit.2.openingSpan hit.1 :=
    tags ▸ List.mem_map_of_mem member
  obtain ⟨hit, visible, same⟩ := List.mem_map.mp opening
  exact ⟨hit, List.mem_of_mem_filter visible, same.symm⟩

/-- An opening tag stops no later than its shortcode. -/
theorem openingSpan_stop_le (o : Occurrence) (start : Nat) : (o.openingSpan start).stop ≤ (o.span start).stop := by
  simp only [Occurrence.openingSpan, Occurrence.span, Occurrence.source, byteSize_append]
  omega

/-- The text at the place of a marker stops before any later shortcode. -/
theorem text_stop_le (tags : places.map Place.opening = (visibleTags content).map fun hit => hit.2.openingSpan hit.1)
    (cut : place.CutFrom content) (member : place ∈ places)
    (later : hit ∈ (Segmentation.ofText .ignoring markerTags content).located) (before : place.opening.start < hit.1) :
    place.text.stop ≤ hit.1 := by
  have found := findsFrom_located_markers content
  obtain ⟨own, listed, opening⟩ := exists_hit tags member
  obtain ⟨before', rest, whole, starts, -⟩ := found.sound hit later
  have stops := found.stop_le_of_lt listed later (by rw [opening] at before; exact before)
  have within := openingSpan_stop_le own.2 own.1
  rw [← opening] at within
  rw [← starts] at stops ⊢
  exact cut.stop_le whole (by omega)

/-- The pieces of places that follow one another follow one another. -/
theorem pairwise_pieces (cut : ∀ place ∈ places, place.CutFrom content)
    (apart : places.Pairwise fun place later => place.text.stop ≤ later.opening.start) :
    (places.flatMap Place.pieces).Pairwise fun piece later => piece.stop ≤ later.start := by
  rw [List.pairwise_flatMap]
  constructor
  · intro place member
    have inside := (cut place member).inside
    have behind := (cut place member).behind
    simp only [Place.pieces, List.pairwise_cons, List.mem_singleton, forall_eq, List.not_mem_nil, false_imp_iff,
      implies_true, List.Pairwise.nil, and_true]
    omega
  · refine apart.imp_of_mem fun {place later} member memberLater stops => ?_
    have inside := (cut place member).inside
    have behind := (cut place member).behind
    have further := (cut later memberLater).inside
    have last := (cut later memberLater).behind
    have forward := (cut place member).text_forward
    simp only [Place.pieces, List.mem_cons, List.not_mem_nil, or_false, forall_eq_or_imp, forall_eq]
    omega

/-- The search for markers by positions succeeds on every content. It finds the places of the pieces that make up the
list of markers: disjoint, from left to right, and each text as long as it can be without a bracket. -/
theorem extractedAt (content : Text) : ∃ places, placesOf? content = some places ∧ ExtractedAt content places := by
  have reads := reads_readings content
  obtain ⟨places, found, tags, read, cut⟩ := exists_places reads
  have visible : (visibleTags content).Pairwise fun hit later => (hit.2.span hit.1).stop ≤ later.1 :=
    (findsFrom_located_markers content).apart.filter _
  have searched : placesOf? content = some places := by
    have reported : Positions.reportsFrom? .ignoring markerTags content 0 = _ :=
      Positions.reportsFrom?_eq markerTags [] content
    rw [placesOf?, reported, Option.bind_eq_bind, Option.bind_some, List.filter_map]
    exact found
  have apart : places.Pairwise fun place later => place.text.stop ≤ later.opening.start := by
    have openings : (places.map Place.opening).Pairwise fun one later => one.stop ≤ later.start := by
      rw [tags, List.pairwise_map]
      exact visible.imp fun {hit later} stops => Nat.le_trans (openingSpan_stop_le hit.2 hit.1) stops
    refine (List.pairwise_map.mp openings).imp_of_mem fun {place later} member memberLater stops => ?_
    obtain ⟨hit, located, opening⟩ := exists_hit tags memberLater
    have inside := (cut place member).inside
    rw [opening] at stops ⊢
    exact text_stop_le tags (cut place member) member located (Nat.lt_of_lt_of_le (by omega) stops)
  refine ⟨places, searched, findsFrom_located_markers content, tags, read, cut, pairwise_pieces cut apart, ?_, ?_, ?_⟩
  · intro place member hit later before
    exact text_stop_le tags (cut place member) member later before
  · rw [listing, List.forall₂_map_right_iff]
    refine reads.imp fun hit reading here => ?_
    obtain ⟨front, back, -, between⟩ := here
    rw [← between.attributes]
    rfl
  · rw [listing, List.forall₂_map_right_iff]
    refine read.imp fun place reading here => ?_
    obtain ⟨raw, -, text, sliced, rfl⟩ : ∃ raw, slice? content place.attributes = some raw ∧
        ∃ text, slice? content place.text = some text ∧ (⟨raw, text⟩ : Reading) = reading := by
      simpa [readAt?, Option.bind_eq_some_iff] using here
    refine ⟨text, sliced, ?_⟩
    simp only [ofReading, List.isEmpty_iff]

/-- A tag that closes itself has a text behind it, here after a letter of two bytes. -/
example : placesOf? "ä[sbs_marker a/]one[b]".toList = some [⟨⟨2, 17⟩, ⟨13, 15⟩, ⟨17, 20⟩⟩] := by decide +kernel

end
end MapEmbed.Marker
