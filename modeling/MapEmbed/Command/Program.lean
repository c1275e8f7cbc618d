import MapEmbed.ClientGlobals
import MapEmbed.Command.Arguments
import MapEmbed.Command.VariableFile
import MapEmbed.Page.Document
import MapEmbed.Settings.Loading

/-!
# The program

One run: variables, arguments, settings, catalogue and then the task, each of which can end the run. A run ends by
printing a text, by showing its help, by failing, or because its arguments make no sense. The only file it ever writes is
the one that is migrated in place, and only if migration changes it. How the help is worded is left to the surroundings,
as is what is said of arguments that make no sense.
-/

namespace MapEmbed.Command

/-- How a run ends. -/
inductive Outcome where
  | printed (output : Text)
  | helped
  | failed (message : Text)
  | misused
  deriving DecidableEq, Repr

namespace Outcome

/-- The number that the surroundings get. -/
def code : Outcome → Nat
  | .printed _ => 0
  | .helped => 0
  | .failed _ => 1
  | .misused => 2

/-- The text that is printed, the help aside. -/
def output : Outcome → Text
  | .printed output => output
  | .helped => []
  | .failed _ => []
  | .misused => []

end Outcome

/-- The answer to the question for the version. -/
def versionLine : Text :=
  "osm-embed 0.1.0\n".toList

/-- The variable that turns the migration off while a document is rendered. -/
def switchName : Text :=
  "OSM_EMBED_DISABLE_MIGRATION".toList

/-- Goes on with the text of a document. -/
def withDocument (file : Text) (next : Text → Plan Outcome) : Plan Outcome := do
  match ← Plan.readText file with
  | .ok document => next document
  | .error fault => return .failed ("failed to read ".toList ++ file ++ ": ".toList ++ fault.message)

/-- Migrates a document: back into its file if that is wanted and something changes, or onto the output. -/
def migrateDocument (catalog : Catalog) (file : Text) (inPlace : Bool) (document : Text) : Plan Outcome :=
  match Migration.migrate? catalog document, inPlace with
  | some migrated, true => do
    Plan.writeText file migrated
    return .printed []
  | none, true => return .printed []
  | migrated, false => return .printed (migrated.getD document)

/-- The line of a style. -/
def styleLine (style : Style) : Text :=
  let columns := [style.key, style.label] ++ style.dependency.toList.map Dependency.name
  ['\t'].intercalate columns ++ ['\n']

/-- The styles that are asked for. -/
def listedStyles (catalog : Catalog) : Option Dependency → List Style
  | none => catalog.styles.values
  | some dependency => (catalog.dependentStyles dependency).filterMap catalog.styles.get?

/-- Performs a task, reading the markup of contents with a table of names. -/
def Task.perform (names : Html.ReferenceTable) (catalog : Catalog) (migrates : Bool) (freshIds : Nat → Text) :
    Task → Plan Outcome
  | .migrate file inPlace => withDocument file (migrateDocument catalog file inPlace)
  | .render file => withDocument file fun document =>
      return .printed (Page.renderDocumentWith names catalog migrates freshIds document)
  | .styles dependency => return .printed ((listedStyles catalog dependency).flatMap styleLine)
  | .globals => return .printed ((clientGlobals catalog).indented 0 ++ ['\n'])

/-- Performs a task under the settings at a path. -/
def performUnder (names : Html.ReferenceTable) (freshIds : Nat → Text) (settingsPath disable : Option Text)
    (task : Task) : Plan Outcome := do
  match ← Settings.load settingsPath disable with
  | .error fault => return .failed ("failed to load settings: ".toList ++ fault.message)
  | .ok settings =>
    match ← Catalog.load settings.datasets with
    | .error fault => return .failed ("failed to build style catalog: ".toList ++ fault.message)
    | .ok catalog => task.perform names catalog settings.migrates freshIds

/-- One run with the given arguments. Contents are read with the table of names, and `freshIds` gives identifiers to the
maps that have none. -/
def runWith (names : Html.ReferenceTable) (freshIds : Nat → Text) (arguments : List Text) : Plan Outcome := do
  let loaded ← VariableFile.load
  match Invocation.ofArguments? arguments with
  | none => return .misused
  | some .version => return .printed versionLine
  | some .help => return .helped
  | some (.perform settingsPath task) =>
    performUnder names freshIds settingsPath (← VariableFile.valueOf loaded switchName) task

/-- One run with the names that are written out here. -/
def run (freshIds : Nat → Text) (arguments : List Text) : Plan Outcome :=
  runWith Html.namedReferences freshIds arguments

end MapEmbed.Command
