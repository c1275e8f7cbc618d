import MapEmbed.Command.Program
import MapEmbed.Proofs.Command.InPlace
import MapEmbed.Proofs.File.Encoding
import MapEmbed.Proofs.File.ReadsOnly
import MapEmbed.Proofs.Lookup
import MapEmbed.Proofs.Migration.Report

/-!
# What a run does to files

Everything before a task only reads, so the task alone decides what becomes of the files, and two runs with the same
settings on the same files carry out their tasks with the same catalogue. Of the tasks only a migration in place writes: it
writes one text to one file, as its last step, so that nothing can fail after it. What it writes is the text that the
migration prints when it does not change the file; where nothing is written, that text stands in the file already.
-/

namespace MapEmbed

/-! ### Reading and writing a file -/

namespace Files

/-- What was written to a file is read from it, and all other files are read as before. -/
theorem read_insert {path : Text} (named : path ≠ ['.']) (files : Files) (bytes : List UInt8) (other : Text) :
    read (files.insert path bytes) other = if other = path then .ok bytes else read files other := by
  unfold read
  rw [OrderedMap.get?_insert]
  by_cases same : other = path
  · subst same
    simp [named]
  · simp [same]

/-- A file that can be read is one of the files, and not the working directory. -/
theorem mem_keys_of_read {files : Files} {path : Text} {bytes : List UInt8} (found : files.read path = .ok bytes) :
    path ≠ ['.'] ∧ path ∈ files.keys := by
  unfold read at found
  split at found
  · cases found
  · rename_i named
    split at found
    · rename_i stored present
      exact ⟨named, List.mem_map_of_mem (Entries.mem_of_lookup present)⟩
    · cases found

/-- The text of a file is the one whose encoding it holds. -/
theorem textOf_eq_ok_iff {outcome : Except FileFault (List UInt8)} {text : Text} :
    Plan.textOf outcome = .ok text ↔ outcome = .ok (Utf8.encode text) := by
  unfold Plan.textOf
  cases outcome with
  | error fault => simp
  | ok bytes =>
    rw [Except.ok.injEq, ← Utf8.decode?_eq_some_iff]
    cases decoded : Utf8.decode? bytes <;> simp only [decoded, reduceCtorEq, Except.ok.injEq, Option.some.injEq]

end Files

namespace Command
open Plan

/-! ### Tasks -/

variable (names : Html.ReferenceTable)

/-- Going on with a document that is read writes nothing if what follows does not. -/
theorem readsOnly_withDocument (file : Text) {next : Text → Plan Outcome} (later : ∀ document, (next document).ReadsOnly) :
    (withDocument file next).ReadsOnly := by
  refine (readsOnly_readText file).bind fun outcome => ?_
  cases outcome with
  | ok document => exact later document
  | error fault => exact .done _

/-- Every task but a migration in place writes nothing. -/
theorem readsOnly_perform (catalog : Catalog) (migrates : Bool) (freshIds : Nat → Text) {task : Task}
    (plain : ∀ file, task ≠ .migrate file true) : (task.perform names catalog migrates freshIds).ReadsOnly := by
  cases task with
  | migrate file inPlace =>
    have printed : inPlace = false := Bool.eq_false_iff.mpr fun set => plain file (by rw [set])
    refine readsOnly_withDocument file fun document => ?_
    rw [printed, Migration.migrateDocument_printed]
    exact .done _
  | render file => exact readsOnly_withDocument file fun _ => .done _
  | styles dependency => exact .done _
  | globals => exact .done _

/-- A migration is carried out on the text whose encoding its file holds. -/
theorem run_perform_migrate {files : Files} {file document : Text} (stored : files.read file = .ok (Utf8.encode document))
    (catalog : Catalog) (migrates : Bool) (freshIds : Nat → Text) (inPlace : Bool) (surroundings : Variables) :
    ((Task.migrate file inPlace).perform names catalog migrates freshIds).run surroundings files =
      (migrateDocument catalog file inPlace document).run surroundings files := by
  unfold Task.perform withDocument
  have read : ((readText file).run surroundings files).1 = .ok document := Files.textOf_eq_ok_iff.mpr stored
  rw [(readsOnly_readText file).run_bind, read]

/-- A migration of a file that holds no text fails. -/
theorem run_perform_migrate_fails {files : Files} {file : Text}
    (unread : ∀ document, files.read file ≠ .ok (Utf8.encode document)) (catalog : Catalog) (migrates : Bool)
    (freshIds : Nat → Text) (inPlace : Bool) (surroundings : Variables) :
    ∃ message, ((Task.migrate file inPlace).perform names catalog migrates freshIds).run surroundings files =
      (.failed message, files) := by
  unfold Task.perform withDocument
  have outcome : ((readText file).run surroundings files).1 = textOf (files.read file) := rfl
  rw [(readsOnly_readText file).run_bind, outcome]
  cases read : textOf (files.read file) with
  | error fault => exact ⟨_, rfl⟩
  | ok document => exact absurd (Files.textOf_eq_ok_iff.mp read) (unread document)

/-! ### Runs -/

/-- Under given settings either every task fails with the same message before it begins, or every task is carried out
with the same catalogue. The files are then those that were there. -/
theorem run_performUnder (freshIds : Nat → Text) (settingsPath disable : Option Text) (surroundings : Variables)
    (files : Files) :
    (∃ message, ∀ task, (performUnder names freshIds settingsPath disable task).run surroundings files =
      (.failed message, files)) ∨
    ∃ catalog migrates, ∀ task, (performUnder names freshIds settingsPath disable task).run surroundings files =
      (task.perform names catalog migrates freshIds).run surroundings files := by
  unfold performUnder
  simp only [(Settings.readsOnly_load settingsPath disable).run_bind]
  cases ((Settings.load settingsPath disable).run surroundings files).1 with
  | error fault => exact .inl ⟨_, fun _ => rfl⟩
  | ok settings =>
    simp only [(Catalog.readsOnly_load settings.datasets).run_bind]
    cases ((Catalog.load settings.datasets).run surroundings files).1 with
    | error fault => exact .inl ⟨_, fun _ => rfl⟩
    | ok catalog => exact .inr ⟨catalog, settings.migrates, fun _ => rfl⟩

/-- The same holds of all runs whose arguments name the same path of the settings. -/
theorem run_run (freshIds : Nat → Text) (settingsPath : Option Text) (surroundings : Variables) (files : Files) :
    (∃ message, ∀ arguments task, Invocation.ofArguments? arguments = some (.perform settingsPath task) →
      (runWith names freshIds arguments).run surroundings files = (.failed message, files)) ∨
    ∃ catalog migrates, ∀ arguments task, Invocation.ofArguments? arguments = some (.perform settingsPath task) →
      (runWith names freshIds arguments).run surroundings files =
        (task.perform names catalog migrates freshIds).run surroundings files := by
  unfold runWith
  simp only [VariableFile.readsOnly_load.run_bind]
  generalize (VariableFile.load.run surroundings files).1 = loaded
  have switch := VariableFile.readsOnly_valueOf loaded switchName
  have under := run_performUnder names freshIds settingsPath
    ((VariableFile.valueOf loaded switchName).run surroundings files).1 surroundings files
  refine under.imp ?_ ?_
  · rintro ⟨message, fails⟩
    refine ⟨message, fun arguments task asked => ?_⟩
    rw [asked, switch.run_bind, fails]
  · rintro ⟨catalog, migrates, performs⟩
    refine ⟨catalog, migrates, fun arguments task asked => ?_⟩
    rw [asked, switch.run_bind, performs]

/-- A run without a task changes nothing. -/
theorem run_of_no_task {arguments : List Text}
    (idle : ∀ settingsPath task, Invocation.ofArguments? arguments ≠ some (.perform settingsPath task))
    (freshIds : Nat → Text) (surroundings : Variables) (files : Files) :
    ((runWith names freshIds arguments).run surroundings files).2 = files := by
  unfold runWith
  rw [VariableFile.readsOnly_load.run_bind]
  cases asked : Invocation.ofArguments? arguments with
  | none => rfl
  | some invocation =>
    cases invocation with
    | version => rfl
    | help => rfl
    | perform settingsPath task => exact absurd asked (idle settingsPath task)

/-! ### Migration in place -/

/-- A line of arguments asks for a migration of the file, in place or not, under the settings at the path. -/
def AsksToMigrate (arguments : List Text) (settingsPath : Option Text) (file : Text) (inPlace : Bool) : Prop :=
  Invocation.ofArguments? arguments = some (.perform settingsPath (.migrate file inPlace))

instance (arguments : List Text) (settingsPath : Option Text) (file : Text) (inPlace : Bool) :
    Decidable (AsksToMigrate arguments settingsPath file inPlace) :=
  inferInstanceAs (Decidable (_ = _))

/-- What a migration in place that ended well left: in the file the text that is printed when the same migration is not
done in place, and all else as it was. -/
structure MigratedInPlace (names : Html.ReferenceTable) (freshIds : Nat → Text) (arguments : List Text)
    (surroundings : Variables) (files after : Files) (settingsPath : Option Text) (file : Text) : Prop where
  /-- Without the option the arguments ask for the same migration, but not in place. -/
  asked : AsksToMigrate (arguments.erase inPlaceFlag) settingsPath file false
  /-- The file holds the text that every run prints that is asked for that, without changing a file. -/
  held : ∃ text, after.read file = .ok (Utf8.encode text) ∧
    ∀ plain, AsksToMigrate plain settingsPath file false →
      (runWith names freshIds plain).run surroundings files = (.printed text, files)
  /-- Every other file is as it was. -/
  others : ∀ path, path ≠ file → after.read path = files.read path
  /-- No file came or went. -/
  paths : after.keys = files.keys

/-- How a run that ended with an outcome treated the files it was carried out on. -/
structure ChangesFilesOnlyInPlace (names : Html.ReferenceTable) (freshIds : Nat → Text) (arguments : List Text)
    (surroundings : Variables) (files : Files) (outcome : Outcome) (after : Files) : Prop where
  /-- If the run did not end well, all files are as they were, and nothing is printed. -/
  failing : outcome.code ≠ 0 → after = files ∧ outcome.output = []
  /-- A migration in place that ended well prints nothing, and changes its file to what would be printed. -/
  migrating : ∀ settingsPath file, AsksToMigrate arguments settingsPath file true → outcome.code = 0 →
    outcome.output = [] ∧ MigratedInPlace names freshIds arguments surroundings files after settingsPath file
  /-- Whatever else is asked for, all files are as they were. -/
  reading : (∀ settingsPath file, ¬AsksToMigrate arguments settingsPath file true) → after = files

/-- A run with an outcome that is none prints nothing. -/
theorem Outcome.output_of_code {outcome : Outcome} (bad : outcome.code ≠ 0) : outcome.output = [] := by
  cases outcome with
  | printed output => exact absurd rfl bad
  | helped => rfl
  | failed message => rfl
  | misused => rfl

/-- What migration in place does with a document leaves the migrated document in the file, everything else as it was,
and prints nothing. -/
theorem run_migrateDocument_written (catalog : Catalog) {file document : Text} {files : Files}
    (stored : files.read file = .ok (Utf8.encode document)) (surroundings : Variables) :
    ∃ after : Files, (migrateDocument catalog file true document).run surroundings files = (.printed [], after) ∧
      after.read file = .ok (Utf8.encode (Migration.migrate catalog document)) ∧
      (∀ path, path ≠ file → after.read path = files.read path) ∧ after.keys = files.keys := by
  rw [Migration.migrateDocument_written]
  by_cases same : Migration.migrate catalog document = document
  · rw [if_pos same, same]
    exact ⟨files, rfl, stored, fun _ _ => rfl, rfl⟩
  · rw [if_neg same]
    obtain ⟨named, member⟩ := Files.mem_keys_of_read stored
    refine ⟨files.insert file (Utf8.encode (Migration.migrate catalog document)), rfl, ?_, ?_, ?_⟩
    · rw [Files.read_insert named, if_pos rfl]
    · intro path other
      rw [Files.read_insert named, if_neg other]
    · rw [OrderedMap.keys_insert, if_pos member]

/-- A run that migrates in place either fails without changing a file, or prints nothing and migrates the file. -/
theorem run_inPlace {arguments : List Text} {settingsPath : Option Text} {file : Text}
    (asked : AsksToMigrate arguments settingsPath file true) (freshIds : Nat → Text) (surroundings : Variables)
    (files : Files) :
    (∃ message, (runWith names freshIds arguments).run surroundings files = (.failed message, files)) ∨
    ∃ after, (runWith names freshIds arguments).run surroundings files = (.printed [], after) ∧
      MigratedInPlace names freshIds arguments surroundings files after settingsPath file := by
  rcases run_run names freshIds settingsPath surroundings files with ⟨message, fails⟩ | ⟨catalog, migrates, performs⟩
  · exact .inl ⟨message, fails arguments _ asked⟩
  · rw [performs arguments _ asked]
    by_cases stored : ∃ document, files.read file = .ok (Utf8.encode document)
    · obtain ⟨document, stored⟩ := stored
      rw [run_perform_migrate names stored]
      obtain ⟨after, written, holds, others, paths⟩ := run_migrateDocument_written catalog stored surroundings
      refine .inr ⟨after, written, Invocation.ofArguments?_erase asked, ?_, others, paths⟩
      refine ⟨Migration.migrate catalog document, holds, fun plain printed => ?_⟩
      rw [performs plain _ printed, run_perform_migrate names stored, Migration.migrateDocument_printed]
      rfl
    · exact .inl (run_perform_migrate_fails names (not_exists.mp stored) _ _ _ _ _)

/-- A run that does not migrate in place changes no file. -/
theorem run_reading {arguments : List Text} (plain : ∀ settingsPath file, ¬AsksToMigrate arguments settingsPath file true)
    (freshIds : Nat → Text) (surroundings : Variables) (files : Files) :
    ((runWith names freshIds arguments).run surroundings files).2 = files := by
  by_cases tasked : ∃ settingsPath task, Invocation.ofArguments? arguments = some (.perform settingsPath task)
  · obtain ⟨settingsPath, task, asked⟩ := tasked
    rcases run_run names freshIds settingsPath surroundings files with ⟨message, fails⟩ | ⟨catalog, migrates, performs⟩
    · rw [fails arguments task asked]
    · rw [performs arguments task asked]
      apply (readsOnly_perform names catalog migrates freshIds ?_).run_snd
      rintro file rfl
      exact plain settingsPath file asked
  · exact run_of_no_task names (fun settingsPath task asked => tasked ⟨settingsPath, task, asked⟩) freshIds surroundings
      files

/-- A run changes files only by a migration in place that ends well, whatever names it reads contents with. -/
theorem changesFilesOnlyInPlace (freshIds : Nat → Text) (arguments : List Text) (surroundings : Variables)
    (files : Files) :
    ChangesFilesOnlyInPlace names freshIds arguments surroundings files
      ((runWith names freshIds arguments).run surroundings files).1
      ((runWith names freshIds arguments).run surroundings files).2 := by
  refine ⟨fun bad => ⟨?_, Outcome.output_of_code bad⟩, ?_,
    fun plain => run_reading names plain freshIds surroundings files⟩
  · by_cases inPlace : ∃ settingsPath file, AsksToMigrate arguments settingsPath file true
    · obtain ⟨settingsPath, file, asked⟩ := inPlace
      rcases run_inPlace names asked freshIds surroundings files with ⟨message, fails⟩ | ⟨after, ends, -⟩
      · rw [fails]
      · rw [ends] at bad
        exact absurd rfl bad
    · exact run_reading names (fun settingsPath file asked => inPlace ⟨settingsPath, file, asked⟩) freshIds surroundings
        files
  · intro settingsPath file asked good
    rcases run_inPlace names asked freshIds surroundings files with ⟨message, fails⟩ | ⟨after, ends, migrated⟩
    · rw [fails] at good
      cases good
    · rw [ends]
      exact ⟨rfl, migrated⟩

/-- An old map is migrated in place: the run ends well and prints nothing, and the file then holds the text that is
printed without the option. -/
theorem changesFilesOnlyInPlace_oldMap :
    let file := "page".toList
    let document := "[sbs_openstreetmap marker_address=\"A & B\"] here".toList
    let migrated :=
      "[sbs_openstreetmap][sbs_marker marker_address=\"A &amp; B\"][/sbs_marker][/sbs_openstreetmap] here".toList
    let arguments := ["migrate".toList, file, inPlaceFlag]
    let files : Files := OrderedMap.ofList [(file, Utf8.encode document), ("notes".toList, [])]
    let ended := (runWith Html.namedReferences (fun _ => []) arguments).run OrderedMap.empty files
    ended.1 = .printed [] ∧ ended.2.read file = .ok (Utf8.encode migrated) ∧
      ended.2.read "notes".toList = .ok [] ∧
      (runWith Html.namedReferences (fun _ => []) ["migrate".toList, file]).run OrderedMap.empty files =
        (.printed migrated, files) := by
  intro file document migrated arguments files ended
  have asked : AsksToMigrate arguments none file true := by decide
  have ran : ended = (.printed [], OrderedMap.ofList [(file, Utf8.encode migrated), ("notes".toList, [])]) := by
    decide
  have ends : ended.1 = .printed [] := by rw [ran]
  have holds : ended.2.read file = .ok (Utf8.encode migrated) := by
    rw [ran]
    decide
  have changes := changesFilesOnlyInPlace Html.namedReferences (fun _ => []) arguments OrderedMap.empty files
  obtain ⟨-, inPlace⟩ := changes.migrating none file asked (congrArg Outcome.code ends)
  obtain ⟨text, held, printed⟩ := inPlace.held
  have same : text = migrated := by
    have encoded := Except.ok.inj (held.symm.trans holds)
    exact Option.some.inj ((Utf8.decode?_eq_some_iff.mpr encoded.symm).symm.trans (Utf8.decode?_eq_some_iff.mpr rfl))
  refine ⟨ends, holds, ?_, ?_⟩
  · exact inPlace.others "notes".toList (by decide)
  · have plain : arguments.erase inPlaceFlag = ["migrate".toList, file] := by decide
    rw [← plain, printed _ inPlace.asked, same]

end Command
end MapEmbed
