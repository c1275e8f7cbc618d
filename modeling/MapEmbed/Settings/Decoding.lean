import MapEmbed.Settings.Basic
import MapEmbed.Toml.Reader

/-!
# Reading settings

Settings are written as three sections, each of which may be absent, as may each field in them. A section is a
table, and what it holds besides its fields is passed over; in place of a table it may be an array of its fields in
their order. A field that is there must have the right kind of value.
-/

namespace MapEmbed.Settings

open Toml (Value Entries)

/-- The fields of a section, found by name or by place. -/
abbrev Fields := String → Nat → Option Value

/-- The fields of a value, if it can be a section. A date can, and has none. -/
def fields? : Value → Option Fields
  | .table _ entries => some fun name _ => entries.lookup name.toList
  | .array items => some fun _ place => items[place]?
  | .tables items => some fun _ place => items[place]?.map (.table .header)
  | .date => some fun _ _ => none
  | _ => none

/-- A text that may be absent. -/
def optionalText? : Option Value → Option (Option Text)
  | none => some none
  | some (.string text) => some (some text)
  | some _ => none

/-- A text, or the given one where it is absent. -/
def textOr? (absent : Text) : Option Value → Option Text
  | none => some absent
  | some (.string text) => some text
  | some _ => none

/-- A switch, or the given one where it is absent. -/
def switchOr? (absent : Bool) : Option Value → Option Bool
  | none => some absent
  | some (.boolean on) => some on
  | some _ => none

/-- Where the datasets are. -/
def datasets? (fields : Fields) : Option DatasetPaths := do
  return ⟨← optionalText? (fields "providers" 0), ← optionalText? (fields "icons" 1)⟩

/-- Whether old shortcodes are migrated. -/
def migrates? (fields : Fields) : Option Bool :=
  switchOr? default.migrates (fields "enabled" 0)

/-- Where the log goes. -/
def log? (fields : Fields) : Option LogSettings := do
  return ⟨← optionalText? (fields "directory" 0), ← textOr? default.log.fileName (fields "file_prefix" 1)⟩

/-- A section, or the given value where it is absent. -/
def sectionOr? {α : Type} (absent : α) (decode : Fields → Option α) : Option Value → Option α
  | none => some absent
  | some value => (fields? value).bind decode

/-- The settings that a whole text holds. -/
def ofEntries? (entries : Entries) : Option Settings := do
  let datasets ← sectionOr? default.datasets datasets? (entries.lookup "data".toList)
  let migrates ← sectionOr? default.migrates migrates? (entries.lookup "migration".toList)
  let log ← sectionOr? default.log log? (entries.lookup "logging".toList)
  return ⟨datasets, migrates, log⟩

/-- Reads settings. -/
def parse? (source : Text) : Option Settings :=
  (Toml.parse? source).bind ofEntries?

end MapEmbed.Settings
