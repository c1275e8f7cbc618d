import MapEmbed.Block.Basic
import MapEmbed.Proofs.Attribute.LeadingNumber

/-!
# The markers that a map points at

Two settings of a map point at a marker. In attributes they count from one, and any text counts as some number; in a
block they are positions in its marker list, or absent. A block never points beside its list, and what it writes for a
pointer reads back as the pointer.

A block holds plain integers, of which none can be too great. Words of 64 bits give the same pointers: the one subtraction
is held at the least word, and the one addition starts from a position in a list.
-/

namespace MapEmbed

/-! ### Words of 64 bits -/

namespace Word

/-- One less, but no less than the least word. -/
def pred (n : Int64) : Int64 :=
  if n = Int64.minValue then n else n - 1

/-- An index that points into a list of the given length, or -1. The index is compared as a word without sign. -/
def keptIndex (index : Int64) (length : UInt64) : Int64 :=
  if 0 ≤ index ∧ index.toUInt64 < length then index else -1

/-- The least word has no word below it; for all others it is one less. -/
theorem toInt_pred (n : Int64) : (pred n).toInt = max (-Int.pow 2 63) (n.toInt - 1) := by
  have power : Int.pow 2 63 = 9223372036854775808 := by decide
  have least := Int64.toInt_minValue
  have low := Int64.le_toInt n
  have high := Int64.toInt_lt n
  unfold pred
  split
  · rename_i same
    rw [same]
    omega
  · rename_i greater
    have apart : n.toInt ≠ Int64.minValue.toInt := fun same => greater (Int64.toInt_inj.mp same)
    rw [Int64.toInt_sub, Int64.toInt_one, Int.bmod_eq_of_le (by omega) (by omega)]
    omega

/-- An index in words points at the same place as the integer. -/
theorem toInt_keptIndex (index : Int64) {length : Nat} (few : length < Nat.pow 2 53) :
    (keptIndex index (UInt64.ofNat length)).toInt = indexNumber (markerIndex? index.toInt length) := by
  have power : Nat.pow 2 53 = 9007199254740992 := by decide
  have size : (UInt64.ofNat length).toNat = length := by
    rw [UInt64.toNat_ofNat']
    omega
  have positive : 0 ≤ index ↔ 0 ≤ index.toInt := Int64.le_iff_toInt_le
  have inside : 0 ≤ index ∧ index.toUInt64 < UInt64.ofNat length ↔ 0 ≤ index.toInt ∧ index.toInt < length := by
    rw [positive, UInt64.lt_iff_toNat_lt, size]
    constructor
    · rintro ⟨from_, below⟩
      rw [Int64.toNat_toUInt64_of_le (positive.mpr from_), Int64.toNatClampNeg] at below
      omega
    · rintro ⟨from_, below⟩
      rw [Int64.toNat_toUInt64_of_le (positive.mpr from_), Int64.toNatClampNeg]
      omega
  unfold keptIndex markerIndex?
  simp only [inside]
  split
  · rename_i both
    exact (Int.toNat_of_nonneg both.1).symm
  · rfl

end Word

/-! ### Pointers -/

/-- A field of a record with constant names is found under its name. -/
theorem Json.lookup_record {α : Type} (fields : List (String × α)) (name : String) :
    (fields.map fun field => (field.1.toList, field.2)).lookup name.toList = fields.lookup name := by
  induction fields with
  | nil => rfl
  | cons field rest inductionHypothesis =>
    have same : (name.toList == field.1.toList) = (name == field.1) :=
      Bool.eq_iff_iff.mpr (by rw [beq_iff_eq, beq_iff_eq, String.toList_inj])
    rw [List.map_cons, List.lookup_cons, List.lookup_cons, same, inductionHypothesis]

/-- The settings of a map that point at a marker. -/
inductive MarkerSetting where
  | destination
  | center
  deriving DecidableEq, Repr

namespace MarkerSetting

variable (setting : MarkerSetting)

/-- The attribute that gives a setting. -/
def key : MarkerSetting → Text
  | destination => "destination_marker".toList
  | center => "center_marker".toList

/-- The position that a block has for a setting. -/
def index : MarkerSetting → MapBlock → Option Nat
  | destination, block => block.destinationMarker
  | center, block => block.centerMarker

/-- The number that attributes give for a setting: one if they give none. -/
def given (attributes : Attributes) : Int :=
  ((attributes.get? setting.key).map Coercion.integer).getD 1

/-- The number of a setting, as a word, made an index in words. -/
def wordIndex (attributes : Attributes) (markers : List Marker) : Int64 :=
  Word.keptIndex (Word.pred (Int64.ofInt (setting.given attributes))) (UInt64.ofNat markers.length)

/-- The position in a block is that of the number that the attributes give. -/
theorem index_ofAttributes (attributes : Attributes) (markers : List Marker) :
    setting.index (MapBlock.ofAttributes attributes markers) =
      markerIndex? (setting.given attributes - 1) markers.length := by
  cases setting <;> rfl

/-- The number that attributes give is an integer of 64 bits. -/
theorem given_bounds (attributes : Attributes) :
    -Int.pow 2 63 ≤ setting.given attributes ∧ setting.given attributes < Int.pow 2 63 := by
  unfold given
  cases attributes.get? setting.key with
  | none => decide
  | some text => exact Coercion.integer_bounds text

/-- Words give the same index as integers. -/
theorem toInt_wordIndex (attributes : Attributes) {markers : List Marker} (few : markers.length < Nat.pow 2 53) :
    (setting.wordIndex attributes markers).toInt =
      indexNumber (setting.index (MapBlock.ofAttributes attributes markers)) := by
  have power : Int.pow 2 63 = 9223372036854775808 := by decide
  obtain ⟨low, high⟩ := setting.given_bounds attributes
  have word : (Int64.ofInt (setting.given attributes)).toInt = setting.given attributes :=
    Int64.toInt_ofInt_of_le (by omega) (by omega)
  have held (n : Int) (least : -Int.pow 2 63 ≤ n) :
      markerIndex? (max (-Int.pow 2 63) (n - 1)) markers.length = markerIndex? (n - 1) markers.length := by
    by_cases lowest : -Int.pow 2 63 ≤ n - 1
    · rw [Int.max_eq_right lowest]
    · -- the least number points at no marker, held or not
      rw [markerIndex?, markerIndex?, if_neg (by omega), if_neg (by omega)]
  rw [wordIndex, Word.toInt_keptIndex _ few, Word.toInt_pred, word, held _ low, index_ofAttributes]

/-- The number that a block writes for a setting counts from one again. -/
theorem lookup_toJson (block : MapBlock) : ∃ fields, block.toJson = .object fields ∧
    fields.lookup setting.key = some (.integer (indexNumber (setting.index block) + 1)) := by
  refine ⟨_, rfl, ?_⟩
  unfold key index
  cases setting
  · rw [Json.lookup_record]
    simp [List.lookup_cons]
  · rw [Json.lookup_record]
    simp [List.lookup_cons]

end MarkerSetting

/-- An index is absent, or a position in the list. -/
theorem markerIndex?_spec (number : Int) (length : Nat) :
    (indexNumber (markerIndex? (number - 1) length) = if 1 ≤ number ∧ number ≤ length then number - 1 else -1) ∧
      ∀ index, markerIndex? (number - 1) length = some index → index < length := by
  unfold markerIndex?
  constructor
  · by_cases inside : 1 ≤ number ∧ number ≤ length
    · rw [if_pos inside, if_pos (by omega)]
      simp only [indexNumber]
      omega
    · rw [if_neg inside, if_neg (by omega)]
      rfl
  · intro index found
    simp only [Option.ite_none_right_eq_some, Option.some.injEq] at found
    omega

/-- What is written for an index reads back as the index. -/
theorem markerIndex?_reread {index : Option Nat} {length : Nat} (few : length < Nat.pow 2 53)
    (inside : ∀ position, index = some position → position < length) :
    markerIndex? (Coercion.integer (Text.ofInt (indexNumber index + 1)) - 1) length = index := by
  cases index with
  | none =>
    have zero : Coercion.integer (Text.ofInt (indexNumber none + 1)) = (0 : Nat) := Coercion.integer_ofNat (by decide)
    rw [zero, markerIndex?, if_neg (by omega)]
  | some position =>
    have below := inside position rfl
    have small : position + 1 < Nat.pow 2 53 := Nat.lt_of_le_of_lt below few
    have number : Coercion.integer (Text.ofInt (indexNumber (some position) + 1)) = (position + 1 : Nat) :=
      Coercion.integer_ofNat small
    rw [number, markerIndex?, if_pos (by omega)]
    congr 1
    omega

/-- What holds of a pointer of the block that attributes denote with the given markers. -/
structure PointsInto (setting : MarkerSetting) (attributes : Attributes) (markers : List Marker) : Prop where
  /-- It is one less than the number of the attribute if a marker has that number, and else it is none. -/
  value : indexNumber (setting.index (MapBlock.ofAttributes attributes markers)) =
    if 1 ≤ setting.given attributes ∧ setting.given attributes ≤ markers.length then setting.given attributes - 1 else -1
  /-- It is a position in the list of the block's markers, if it is one. -/
  position : ∀ index, setting.index (MapBlock.ofAttributes attributes markers) = some index →
    index < (MapBlock.ofAttributes attributes markers).markers.length
  /-- Words of 64 bits give it, too. -/
  word : (setting.wordIndex attributes markers).toInt =
    indexNumber (setting.index (MapBlock.ofAttributes attributes markers))
  /-- The block writes one more, which is not negative and no more than the number of markers, and no word overflows. -/
  written : ∃ fields number, (MapBlock.ofAttributes attributes markers).toJson = .object fields ∧
    fields.lookup setting.key = some (.integer number) ∧
    number = indexNumber (setting.index (MapBlock.ofAttributes attributes markers)) + 1 ∧
    0 ≤ number ∧ number ≤ markers.length ∧ (setting.wordIndex attributes markers + 1).toInt = number
  /-- Attributes with what is written give the same pointer. -/
  again : ∀ other : Attributes, other.get? setting.key =
      some (Text.ofInt (indexNumber (setting.index (MapBlock.ofAttributes attributes markers)) + 1)) →
    setting.index (MapBlock.ofAttributes other markers) = setting.index (MapBlock.ofAttributes attributes markers)

/-- A map points into its markers, or nowhere, whatever its attributes say. -/
theorem pointsInto (setting : MarkerSetting) (attributes : Attributes) {markers : List Marker}
    (few : markers.length < Nat.pow 2 53) : PointsInto setting attributes markers := by
  have power : Nat.pow 2 53 = 9007199254740992 := by decide
  obtain ⟨value, position⟩ := markerIndex?_spec (setting.given attributes) markers.length
  have word := setting.toInt_wordIndex attributes few
  rw [← setting.index_ofAttributes] at value position
  refine ⟨value, position, word, ?_, ?_⟩
  · obtain ⟨fields, object, found⟩ := setting.lookup_toJson (MapBlock.ofAttributes attributes markers)
    have bounds : -1 ≤ indexNumber (setting.index (MapBlock.ofAttributes attributes markers)) ∧
        indexNumber (setting.index (MapBlock.ofAttributes attributes markers)) < markers.length := by
      rw [value]
      split <;> omega
    refine ⟨fields, _, object, found, rfl, by omega, by omega, ?_⟩
    rw [Int64.toInt_add, word, Int64.toInt_one, Int.bmod_eq_of_le (by omega) (by omega)]
  · intro other text
    have number : setting.given other = Coercion.integer
        (Text.ofInt (indexNumber (setting.index (MapBlock.ofAttributes attributes markers)) + 1)) := by
      rw [MarkerSetting.given, text]
      rfl
    rw [setting.index_ofAttributes other, number]
    exact markerIndex?_reread few position

/-- Attributes that point at the second marker, in a fraction with words behind it, and far below the first. -/
def secondAndNone : Attributes :=
  (OrderedMap.empty.insert "destination_marker".toList "2.9 of three".toList).insert
    "center_marker".toList "-1e300".toList

/-- Among three markers, they point at the position one and at none. -/
theorem pointsInto_secondAndNone :
    ∃ markers : List Marker, markers.length < Nat.pow 2 53 ∧
      PointsInto .destination secondAndNone markers ∧ PointsInto .center secondAndNone markers ∧
      indexNumber (MarkerSetting.index .destination (MapBlock.ofAttributes secondAndNone markers)) = 1 ∧
      indexNumber (MarkerSetting.index .center (MapBlock.ofAttributes secondAndNone markers)) = -1 := by
  have second : MarkerSetting.given .destination secondAndNone = 2 := by decide +kernel
  have least : MarkerSetting.given .center secondAndNone = -Int.pow 2 63 := by decide +kernel
  let markers := List.replicate 3 (Marker.ofAttributes OrderedMap.empty)
  have few : markers.length < Nat.pow 2 53 := by decide
  have destination := pointsInto .destination secondAndNone few
  have center := pointsInto .center secondAndNone few
  refine ⟨markers, few, destination, center, ?_, ?_⟩
  · rw [destination.value, second]
    decide
  · rw [center.value, least]
    decide

end MapEmbed
