import MapEmbed.Text.Basic

/-!
# Retired styles

Documents may still name styles that have been replaced. A replacement is never retired itself, so one look-up
is enough.
-/

namespace MapEmbed

/-- The retired styles, each with its replacement. -/
def retiredStyles : List (Text × Text) :=
  [("openstreetmap_de", "OpenStreetMap.DE"),
    ("opentopomap", "OpenTopoMap"),
    ("stamen_toner", "Stadia.StamenToner"),
    ("stamen_toner_light", "Stadia.StamenTonerLite"),
    ("stamen_terrain", "Stadia.StamenTerrain"),
    ("stamen_watercolor", "Stadia.StamenWatercolor"),
    ("wikimedia", "OpenStreetMap.DE"),
    ("Stamen.Toner", "Stadia.StamenToner"),
    ("Stamen.TonerLite", "Stadia.StamenTonerLite"),
    ("Stamen.Terrain", "Stadia.StamenTerrain"),
    ("Stamen.Watercolor", "Stadia.StamenWatercolor")].map fun (old, new) => (old.toList, new.toList)

/-- The style to use for a style name: its replacement if it is retired, else itself. -/
def currentStyle (style : Text) : Text :=
  (retiredStyles.lookup style).getD style

/-- No replacement is itself retired. -/
theorem lookup_replacement : ∀ pair ∈ retiredStyles, retiredStyles.lookup pair.2 = none := by
  decide

/-- One look-up is enough. -/
theorem currentStyle_currentStyle (style : Text) : currentStyle (currentStyle style) = currentStyle style := by
  unfold currentStyle
  cases found : retiredStyles.lookup style with
  | none => simp [found]
  | some replacement =>
    have listed : (style, replacement) ∈ retiredStyles := by
      obtain ⟨before, after, split, -⟩ := List.lookup_eq_some_iff.mp found
      simp [split]
    simp [lookup_replacement _ listed]

end MapEmbed
