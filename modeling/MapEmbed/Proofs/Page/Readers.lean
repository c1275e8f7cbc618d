import MapEmbed.Page.Document
import MapEmbed.Proofs.Shortcode.Case

/-!
# The two readers of markers

The data of a map lists the markers of its content, and the content is shown with an element for each marker. The list
is read with names in any case, the elements are made with names letter by letter. Both read a content from left to
right and never look into a shortcode that they have found, so one capital letter may change all that is read behind it.
Up to the first shortcode with a capital letter in its tags the elements are those of the listed markers, one by one,
and in a content without such a shortcode all of them are.
-/

namespace MapEmbed

namespace Marker

/-- The attribute texts of the markers of a content. -/
def attributeTexts (content : Text) : List Text :=
  (readings content).map Reading.attributes

/-- The markers of a content are its shortcodes that are not escaped, whatever stands around them. -/
theorem attributeTexts_eq (content : Text) :
    attributeTexts content = ((Shortcode.Segmentation.ofText .ignoring markerTags content).occurrences.filter fun o =>
      !o.escaped).map Shortcode.Occurrence.rawAttributes := by
  unfold attributeTexts readings Shortcode.Segmentation.occurrences
  generalize Shortcode.Segmentation.ofText .ignoring markerTags content = cut
  obtain ⟨pieces, tail⟩ := cut
  simp only
  induction pieces with
  | nil => rfl
  | cons piece rest inductionHypothesis =>
    obtain ⟨gap, o⟩ := piece
    cases escaped : o.escaped with
    | true => simp [readingsOf, escaped, inductionHypothesis]
    | false => simp [readingsOf, escaped, inductionHypothesis]

/-- A marker at the start of a content comes before the markers of the rest. -/
theorem attributeTexts_source_append {o : Shortcode.Occurrence} {rest : Text}
    (stands : o.Stands .ignoring markerTags rest) (visible : o.escaped = false) :
    attributeTexts (o.source ++ rest) = o.rawAttributes :: attributeTexts rest := by
  have cut : Shortcode.Segmentation.ofText .ignoring markerTags ([] ++ (o.source ++ rest)) = _ :=
    Shortcode.Segmentation.ofText_vacant_source Shortcode.isName_of_mem_markerTags trivial stands
  rw [List.nil_append] at cut
  rw [attributeTexts_eq, cut, attributeTexts_eq]
  simp [Shortcode.Segmentation.occurrences, visible]

end Marker

namespace Page
open Shortcode

/-! ### Markers and elements -/

/-- The markers that shortcodes denote. Escaped ones are literal text. -/
def markersOf (occurrences : List Occurrence) : List Marker :=
  (occurrences.filter fun o => !o.escaped).map fun o => Marker.ofAttributes (Attributes.parseLenient o.rawAttributes)

/-- The markers of which a content shows elements. -/
def shownMarkers (content : Text) : List Marker :=
  markersOf (Segmentation.ofText .exact markerTags content).occurrences

/-- A marker but for the text of its popup. -/
def withoutText (m : Marker) : Marker :=
  { m with text := none }

/-- Gaps and shortcodes with elements of the given markers, one after the other, in the place of the shortcodes that are
not escaped. -/
def placeMarkers : List Marker → List (Text × Occurrence) → Text → Text
  | _, [], tail => tail
  | [], (gap, o) :: rest, tail => gap ++ (o.unescaped ++ placeMarkers [] rest tail)
  | m :: others, (gap, o) :: rest, tail =>
    if o.escaped then gap ++ (o.unescaped ++ placeMarkers (m :: others) rest tail)
    else gap ++ (o.brackets.wrap (markerElement m o.contentText) ++ placeMarkers others rest tail)

/-- An escaped shortcode denotes no marker. -/
theorem markersOf_escaped {o : Occurrence} (escaped : o.escaped = true) (rest : List Occurrence) :
    markersOf (o :: rest) = markersOf rest := by
  simp [markersOf, escaped]

/-- Any other denotes one. -/
theorem markersOf_visible {o : Occurrence} (visible : o.escaped = false) (rest : List Occurrence) :
    markersOf (o :: rest) =
      Marker.ofAttributes (Attributes.parseLenient o.rawAttributes) :: markersOf rest := by
  simp [markersOf, visible]

/-- An escaped shortcode is shown whatever markers are left. -/
theorem placeMarkers_escaped (markers : List Marker) {gap : Text} {o : Occurrence} (escaped : o.escaped = true)
    (rest : List (Text × Occurrence)) (tail : Text) :
    placeMarkers markers ((gap, o) :: rest) tail = gap ++ (o.unescaped ++ placeMarkers markers rest tail) := by
  cases markers with
  | nil => rfl
  | cons m others => rw [placeMarkers, if_pos escaped]

/-- A content is shown with the elements of its markers, in their order. -/
theorem expandMarkers_eq_placeMarkers (content : Text) :
    expandMarkers content = placeMarkers (shownMarkers content) (Segmentation.ofText .exact markerTags content).pieces
      (Segmentation.ofText .exact markerTags content).tail := by
  unfold expandMarkers shownMarkers Segmentation.replace Segmentation.occurrences
  generalize Segmentation.ofText .exact markerTags content = cut
  obtain ⟨pieces, tail⟩ := cut
  -- piece by piece: one that is not escaped uses up the first marker that is left
  have counted (number : Nat) : Segmentation.replaceFrom (fun _ o => renderMarker o) number pieces tail =
      placeMarkers (markersOf (pieces.map Prod.snd)) pieces tail := by
    induction pieces generalizing number with
    | nil => rfl
    | cons piece rest inductionHypothesis =>
      obtain ⟨gap, o⟩ := piece
      rw [Segmentation.replaceFrom, inductionHypothesis, List.map_cons]
      cases escaped : o.escaped with
      | true => rw [markersOf_escaped escaped, placeMarkers_escaped _ escaped, renderMarker, if_pos escaped]
      | false =>
        simp only [markersOf_visible escaped, placeMarkers, renderMarker, escaped, Bool.false_eq_true, if_false]
  exact counted 0

/-- The listed markers are those of the shortcodes that are found in any case, each with the text of its popup. -/
theorem withoutText_listing (content : Text) :
    (Marker.listing content).map withoutText =
      markersOf (Segmentation.ofText .ignoring markerTags content).occurrences := by
  have listed : (Marker.listing content).map withoutText =
      (Marker.attributeTexts content).map fun raw => Marker.ofAttributes (Attributes.parseLenient raw) := by
    rw [Marker.listing, Marker.attributeTexts, List.map_map, List.map_map]
    rfl
  rw [listed, Marker.attributeTexts_eq, List.map_map, markersOf]
  rfl

/-! ### Where the readers agree -/

/-- All marker shortcodes of a content, found in any case, are written in small letters. -/
def InSmallLetters (content : Text) : Prop :=
  ∀ o ∈ (Segmentation.ofText .ignoring markerTags content).occurrences, o.Verbatim markerTags

instance (content : Text) : Decidable (InSmallLetters content) :=
  inferInstanceAs
    (Decidable (∀ o ∈ (Segmentation.ofText .ignoring markerTags content).occurrences, o.Verbatim markerTags))

/-- A content in which no marker tag is written with a capital letter is in small letters. -/
theorem inSmallLetters_of_names {content : Text}
    (small : ∀ tag ∈ markerTags, ∀ written, CaseMode.ignoring.same tag written = true →
      '[' :: written <:+: content ∨ '[' :: '/' :: written <:+: content → written = tag) : InSmallLetters content := by
  intro o member
  obtain ⟨piece, listed, rfl⟩ := List.mem_map.mp member
  have inside : piece.2.source <:+: content := by
    have here := @Segmentation.source_inside _ (Segmentation.ofText .ignoring markerTags content).tail piece listed
    rwa [Segmentation.textOf_ofText] at here
  obtain ⟨rest, stands⟩ :=
    Segmentation.exists_stands_of_mem (Segmentation.cuts_scan isName_of_mem_markerTags 0 content) piece listed
  obtain ⟨tag, known, same⟩ := stands.listed
  have name : piece.2.tag = tag := small tag known _ same (Or.inl (piece.2.tag_inside.trans inside))
  refine ⟨name ▸ known, fun text written body => ?_⟩
  have closes := stands.body
  rw [body] at closes
  exact (small tag known written (name ▸ closes.2) (Or.inr ((Occurrence.closing_inside body).trans inside))).trans name.symm

/-- The markers of the shortcodes before the first one with a capital letter. -/
def agreed (content : Text) : List Marker :=
  markersOf ((Segmentation.ofText .ignoring markerTags content).occurrences.takeWhile fun o =>
    decide (o.Verbatim markerTags))

/-- Fewer shortcodes from the left denote fewer markers from the left. -/
theorem markersOf_prefix {first second : List Occurrence} (starts : first <+: second) :
    markersOf first <+: markersOf second :=
  (starts.filter _).map _

/-- What the list and the elements of a content have in common. -/
structure ReaderAgreement (content : Text) : Prop where
  /-- The elements are those of the shown markers, in this order. -/
  elements : expandMarkers content =
    placeMarkers (shownMarkers content) (Segmentation.ofText .exact markerTags content).pieces
      (Segmentation.ofText .exact markerTags content).tail
  /-- The list starts with the markers before the first capital letter. -/
  listed : agreed content <+: (Marker.listing content).map withoutText
  /-- So do the elements. -/
  placed : agreed content <+: shownMarkers content
  /-- Both find the same shortcodes exactly in a content whose marker shortcodes are in small letters. -/
  same : Segmentation.ofText .ignoring markerTags content = Segmentation.ofText .exact markerTags content ↔
    InSmallLetters content
  /-- In such a content they have the same markers. -/
  equal : InSmallLetters content → (Marker.listing content).map withoutText = shownMarkers content

/-- The list and the elements of a content agree as far as its marker shortcodes are in small letters. -/
theorem readerAgreement (content : Text) : ReaderAgreement content := by
  have same := Segmentation.ofText_eq_exact_iff isName_of_mem_markerTags .ignoring content
  refine ⟨expandMarkers_eq_placeMarkers content, ?_, ?_, same, ?_⟩
  · rw [withoutText_listing]
    exact markersOf_prefix (List.takeWhile_prefix _)
  · have starts := (Segmentation.takeWhile_prefix_exact isName_of_mem_markerTags .ignoring content).map Prod.snd
    apply markersOf_prefix
    rw [Segmentation.occurrences, List.takeWhile_map]
    exact starts
  · intro small
    rw [withoutText_listing, shownMarkers, same.mpr small]

/-- A capital letter in a closing tag is enough for the searches to differ. -/
example : ¬InSmallLetters "[sbs_marker]x[/SBS_MARKER]".toList := by decide

/-- A marker with capital letters in its opening tag. -/
def capitalTag : Text := "[SBS_WPB_Marker marker_color=\"red\"]Hi[/sbs_wpb_marker]".toList

/-- It is listed and not shown. -/
theorem not_listed_shown_capitalTag : ¬∀ content, (Marker.listing content).map withoutText = shownMarkers content := by
  intro agree
  have listed : (Marker.readings capitalTag).length = 1 := by decide
  have found : (Segmentation.ofText .exact markerTags capitalTag).occurrences = [] := by decide
  have lengths := congrArg List.length (agree capitalTag)
  rw [List.length_map, Marker.listing, List.length_map, listed, shownMarkers, found] at lengths
  simp [markersOf] at lengths

end Page
end MapEmbed
