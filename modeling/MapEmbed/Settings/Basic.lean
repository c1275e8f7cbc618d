import MapEmbed.Attribute.Coercion
import MapEmbed.Style.Dataset

/-!
# Settings

What a site can change: where its datasets are, whether old shortcodes are migrated while a page is rendered, and
where the log goes. Everything has a default, and one switch from outside can only turn the migration off.
-/

namespace MapEmbed

/-- Where the log goes; without a directory there are no log files. -/
structure LogSettings where
  directory : Option Text
  fileName : Text
  deriving DecidableEq, Repr

/-- The settings of a site. -/
structure Settings where
  datasets : DatasetPaths
  migrates : Bool
  log : LogSettings
  deriving DecidableEq, Repr

namespace Settings

/-- The settings of a site that sets nothing. -/
def default : Settings where
  datasets := ⟨none, none⟩
  migrates := true
  log := ⟨none, "osm-embed.log".toList⟩

/-- Turns the migration off if the switch is on; a switch that is off or absent changes nothing. -/
def withSwitch (settings : Settings) (disable : Option Text) : Settings :=
  if disable.any Coercion.truth then { settings with migrates := false } else settings

/-- A switch that is absent changes nothing. -/
theorem withSwitch_none (settings : Settings) : settings.withSwitch none = settings := rfl

/-- The switch never turns the migration on. -/
theorem migrates_of_withSwitch {settings : Settings} {disable : Option Text}
    (on : (settings.withSwitch disable).migrates = true) : settings.migrates = true := by
  unfold withSwitch at on
  split at on
  · simp at on
  · exact on

end Settings
end MapEmbed
