import MapEmbed.Settings.Decoding

/-!
# Loading settings

Settings come from a file that is named, which must exist, or from the file with the usual name, which need not.
-/

namespace MapEmbed

/-- Why there are no settings. -/
inductive SettingsError where
  /-- The named file does not exist. -/
  | missing (path : Text)
  /-- The file has no text. -/
  | unreadable (fault : FileFault)
  /-- The text holds no settings. -/
  | malformed
  deriving DecidableEq, Repr

/-- The wording of the error. What is wrong with a malformed text is not worded here. -/
def SettingsError.message : SettingsError → Text
  | .missing path => "Configuration error: config file does not exist: ".toList ++ path
  | .unreadable fault => "I/O error: ".toList ++ fault.message
  | .malformed => "malformed settings".toList

namespace Settings

/-- The usual name of the file. -/
def usualPath : Text :=
  "osm_embed.toml".toList

/-- The settings in a text, or the error. -/
def ofText (source : Text) : Except SettingsError Settings :=
  match parse? source with
  | some settings => .ok settings
  | none => .error .malformed

/-- What reading a file gave. A file that does not exist gives `absent`. -/
def ofOutcome (absent : Except SettingsError Settings) : Except FileFault Text → Except SettingsError Settings
  | .ok source => ofText source
  | .error .missing => absent
  | .error fault => .error (.unreadable fault)

/-- Loads settings and applies the switch. -/
def load (path : Option Text) (disable : Option Text) : Plan (Except SettingsError Settings) := do
  let settings ←
    match path with
    | some named => pure (ofOutcome (.error (.missing named)) (← Plan.readText named))
    | none => pure (ofOutcome (.ok default) (← Plan.readText usualPath))
  return settings.map fun loaded => loaded.withSwitch disable

end Settings
end MapEmbed
