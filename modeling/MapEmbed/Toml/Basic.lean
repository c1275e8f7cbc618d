import MapEmbed.Text.Basic

/-!
# Settings texts

The values of the TOML format and the rules by which tables come to be. A table can be named in a header, come into
being as a part of a header's path or of a dotted key, or be written in braces; which of these it was decides what
may still be added to it. Numbers that are not whole and dates are kept as they are written.
-/

namespace MapEmbed.Toml

/-- How a table came to be. -/
inductive TableOrigin where
  /-- Named in a header. -/
  | header
  /-- A part of the path of a header. -/
  | path
  /-- A part of a dotted key. -/
  | dotted
  /-- Written in braces. -/
  | braces
  deriving DecidableEq, Repr

/-- A value. -/
inductive Value where
  | string (text : Text)
  | integer (value : Int)
  | float (written : Text)
  | boolean (value : Bool)
  | date
  | array (items : List Value)
  | table (origin : TableOrigin) (entries : List (Text × Value))
  /-- Tables of one name that a header in double brackets adds to. -/
  | tables (items : List (List (Text × Value)))

/-- The entries of a table. -/
abbrev Entries := List (Text × Value)

namespace Entries

/-- Changes the value of a key; a key that is absent is added at the end. -/
def alter (change : Option Value → Option Value) (key : Text) : Entries → Option Entries
  | [] => (change none).map fun value => [(key, value)]
  | (k, v) :: rest =>
    if k = key then (change (some v)).map fun value => (k, value) :: rest
    else (alter change key rest).map ((k, v) :: ·)

/-- Changes the entries of the last of several tables. -/
def alterLast (change : Entries → Option Entries) : List Entries → Option (List Entries)
  | [] => none
  | [last] => (change last).map fun changed => [changed]
  | first :: second :: rest => (alterLast change (second :: rest)).map (first :: ·)

/-- Adds a value under a dotted key, of which `parts` are all but the last. A table on the way must not have been
named in a header or written in braces, and the table that gets the value must itself come from a dotted key. -/
def addDotted (key : Text) (value : Value) : List Text → Bool → Entries → Option Entries
  | [], fits => fun entries =>
    if fits then alter (fun | none => some value | some _ => none) key entries else none
  | part :: parts, _ => alter (fun
      | none => (addDotted key value parts true []).map (.table .dotted)
      | some (.table .dotted entries) => (addDotted key value parts true entries).map (.table .dotted)
      | some (.table .path entries) => (addDotted key value parts false entries).map (.table .path)
      | some (.tables items) => (alterLast (addDotted key value parts false) items).map .tables
      | some _ => none) part

/-- Goes down a path and changes what is there; tables on the way come into being. -/
def alterAt (change : Text → Entries → Option Entries) (last : Text) : List Text → Entries → Option Entries
  | [] => change last
  | part :: parts => alter (fun
      | none => (alterAt change last parts []).map (.table .path)
      | some (.table .braces _) => none
      | some (.table origin entries) => (alterAt change last parts entries).map (.table origin)
      | some (.tables items) => (alterLast (alterAt change last parts) items).map .tables
      | some _ => none) part

/-- Names a table in a header. It must be new or so far only a part of a path. -/
def openTable : Text → Entries → Option Entries :=
  alter fun
    | none => some (.table .header [])
    | some (.table .path entries) => some (.table .header entries)
    | some _ => none

/-- Names a further table of several in a header. -/
def openItem : Text → Entries → Option Entries :=
  alter fun
    | none => some (.tables [[]])
    | some (.tables items) => some (.tables (items ++ [[]]))
    | some _ => none

/-- Adds a value to the table that was named last. -/
def addTo (parts : List Text) (key : Text) (value : Value) : Text → Entries → Option Entries :=
  alter fun
    | some (.table origin entries) => (addDotted key value parts true entries).map (.table origin)
    | some (.tables items) => (alterLast (addDotted key value parts true) items).map .tables
    | _ => none

end Entries
end MapEmbed.Toml
