import MapEmbed.Command.Arguments

/-!
# The option to change the file

A line of arguments that asks for a migration in place asks for the same migration without changing the file when the
option for that is taken out. Nothing else on the line can be the option: a value has no dashes in front, it is no
question, and behind two dashes everything is a file, so the option stands first where it is read as one. `Reads` says
argument by argument what the arguments behind a task's name give; that the option can be withdrawn, and taken out, is
proved along it.
-/

namespace MapEmbed.Command

/-- The option for changing the file, as it is written. -/
def inPlaceFlag : Text := '-' :: '-' :: inPlaceName

/-- An option without a value is its name behind two dashes. -/
theorem Argument.eq_of_ofText_option {argument name : Text} (form : Argument.ofText argument = .option name none) :
    argument = '-' :: '-' :: name := by
  unfold Argument.ofText at form
  split at form
  · cases form
  · rename_i rest _
    obtain ⟨named, valueless⟩ := Argument.option.inj form
    have nothing : rest.dropWhile (· != '=') = [] := by
      unfold afterEquals? at valueless
      split at valueless
      · assumption
      · cases valueless
    have whole := List.takeWhile_append_dropWhile (p := (· != '=')) (l := rest)
    rw [nothing, List.append_nil, named] at whole
    rw [whole]
  · cases form
  · cases form

/-- A question is no task. -/
theorem Argument.question?_ne_perform {argument : Argument} {settingsPath : Option Text} {task : Task} :
    argument.question? ≠ some (.perform settingsPath task) := by
  unfold question?
  split
  · split
    · simp
    · split <;> simp
  · split
    · simp
    · split <;> simp
  · simp

/-- The option for changing the file is read as one. -/
theorem ofText_inPlaceFlag : Argument.ofText inPlaceFlag = .option inPlaceName none := by
  decide

/-- Another argument stays in front when the option is taken out. -/
theorem erase_cons_of_form {argument : Text} (rest : List Text)
    (other : Argument.ofText argument ≠ .option inPlaceName none) :
    (argument :: rest).erase inPlaceFlag = argument :: rest.erase inPlaceFlag := by
  apply List.erase_cons_tail
  rw [beq_iff_eq]
  rintro rfl
  exact other ofText_inPlaceFlag

namespace Options

/-- The options without the one for changing the file. -/
def withdrawn (options : Options) : Options :=
  { options with inPlace := false }

/-- A value is set in the same way without the option. -/
theorem setValue?_withdrawn (grammar : Grammar) (name value : Text) (options : Options) :
    options.withdrawn.setValue? grammar name value = (options.setValue? grammar name value).map withdrawn := by
  unfold setValue? withdrawn
  split
  · cases options.settingsPath with
    | none => cases path? value <;> rfl
    | some path => rfl
  · split
    · cases options.dependency with
      | none => cases Dependency.ofName? value <;> rfl
      | some dependency => rfl
    · rfl

/-- Setting a value does not set the option. -/
theorem inPlace_of_setValue {grammar : Grammar} {name value : Text} {options set : Options}
    (found : options.setValue? grammar name value = some set) : set.inPlace = options.inPlace := by
  unfold setValue? at found
  split at found
  · obtain ⟨path, -, rfl⟩ := Option.map_eq_some_iff.mp (Option.ite_none_left_eq_some.mp found).2
    rfl
  · split at found
    · obtain ⟨dependency, -, rfl⟩ := Option.map_eq_some_iff.mp (Option.ite_none_left_eq_some.mp found).2
      rfl
    · cases found

/-- Two options take a value. -/
theorem name_of_setValue {grammar : Grammar} {name value : Text} {options set : Options}
    (found : options.setValue? grammar name value = some set) : name = settingsName ∨ name = dependencyName := by
  unfold setValue? at found
  split at found
  · rename_i named
    exact .inl named
  · split at found
    · rename_i named
      exact .inr named.1
    · cases found

/-- The option for changing the file is none of them. -/
theorem ne_of_setValue {grammar : Grammar} {name value : Text} {options set : Options}
    (found : options.setValue? grammar name value = some set) : name ≠ inPlaceName := by
  obtain rfl | rfl := name_of_setValue found
  · decide
  · decide

/-- No other option goes without a value. -/
theorem setFlag?_eq_some {grammar : Grammar} {name : Text} {options set : Options}
    (found : options.setFlag? grammar name = some set) :
    name = inPlaceName ∧ options.inPlace = false ∧ set = { options with inPlace := true } := by
  unfold setFlag? at found
  obtain ⟨⟨named, -, unset⟩, same⟩ := Option.ite_none_right_eq_some.mp found
  exact ⟨named, unset, (Option.some.inj same).symm⟩

/-- Any other name is none of an option without a value. -/
theorem setFlag?_of_ne {name : Text} (other : name ≠ inPlaceName) (grammar : Grammar) (options : Options) :
    options.setFlag? grammar name = none :=
  if_neg fun named => other named.1

/-- A file is taken in the same way without the option. -/
theorem takeFile?_withdrawn (grammar : Grammar) (text : Text) (options : Options) :
    options.withdrawn.takeFile? grammar text = (options.takeFile? grammar text).map withdrawn := by
  unfold takeFile? withdrawn
  dsimp only
  split
  · cases path? text <;> rfl
  · rfl

/-- Taking a file does not set the option. -/
theorem inPlace_of_takeFile {grammar : Grammar} {text : Text} {options taken : Options}
    (found : options.takeFile? grammar text = some taken) : taken.inPlace = options.inPlace := by
  obtain ⟨path, -, rfl⟩ := Option.map_eq_some_iff.mp (Option.ite_none_right_eq_some.mp found).2
  rfl

/-- Nor do files only, which are taken in the same way without the option. -/
theorem takeFiles?_withdrawn {grammar : Grammar} {texts : List Text} {options final : Options}
    (found : takeFiles? grammar options texts = some final) :
    takeFiles? grammar options.withdrawn texts = some final.withdrawn ∧ final.inPlace = options.inPlace := by
  induction texts generalizing options with
  | nil =>
    obtain rfl := Option.some.inj found
    exact ⟨rfl, rfl⟩
  | cons text rest inductionHypothesis =>
    rw [takeFiles?] at found ⊢
    obtain ⟨taken, given, found⟩ := Option.bind_eq_some_iff.mp found
    rw [takeFile?_withdrawn, given, Option.map_some, Option.bind_some]
    obtain ⟨later, kept⟩ := inductionHypothesis found
    exact ⟨later, kept.trans (inPlace_of_takeFile given)⟩

/-- How arguments that make sense and do not ask for help are read, one after the other. -/
inductive Reads (grammar : Grammar) : Options → List Text → Options → Prop where
  | done (options : Options) : Reads grammar options [] options
  /-- Two dashes: everything behind them is a file. -/
  | files {options final : Options} {argument : Text} {rest : List Text} (form : Argument.ofText argument = .stop)
      (taken : takeFiles? grammar options rest = some final) : Reads grammar options (argument :: rest) final
  | file {options next final : Options} {argument : Text} {rest : List Text} (form : Argument.ofText argument = .plain)
      (taken : options.takeFile? grammar argument = some next) (later : Reads grammar next rest final) :
      Reads grammar options (argument :: rest) final
  /-- An option with its value in the same argument. -/
  | value {options next final : Options} {argument name value : Text} {rest : List Text}
      (form : Argument.ofText argument = .option name (some value))
      (given : options.setValue? grammar name value = some next) (later : Reads grammar next rest final) :
      Reads grammar options (argument :: rest) final
  | flag {options next final : Options} {argument name : Text} {rest : List Text}
      (form : Argument.ofText argument = .option name none) (given : options.setFlag? grammar name = some next)
      (later : Reads grammar next rest final) : Reads grammar options (argument :: rest) final
  /-- An option with its value in the next argument. -/
  | nextValue {options next final : Options} {argument name value : Text} {rest : List Text}
      (form : Argument.ofText argument = .option name none) (plain : Argument.ofText value = .plain)
      (given : options.setValue? grammar name value = some next) (later : Reads grammar next rest final) :
      Reads grammar options (argument :: value :: rest) final

/-- These are the arguments that are read. -/
theorem reads_of_read? {grammar : Grammar} {options final : Options} {rest : List Text}
    (read : read? grammar options rest = some (.given final)) : Reads grammar options rest final := by
  induction options, rest using read?.induct grammar with
  | case1 options =>
    obtain rfl := Reading.given.inj (Option.some.inj read)
    exact .done options
  | case2 options argument later helps => simp [read?.eq_def, helps] at read
  | case3 options argument later silent stops =>
    unfold read? at read
    rw [if_neg silent, stops] at read
    obtain ⟨taken, given, same⟩ := Option.map_eq_some_iff.mp read
    obtain rfl := Reading.given.inj same
    exact .files stops given
  | case4 options argument later silent c letter => simp [read?.eq_def, letter] at read
  | case5 options argument later silent plain inductionHypothesis =>
    unfold read? at read
    rw [if_neg silent, plain] at read
    obtain ⟨taken, given, read⟩ := Option.bind_eq_some_iff.mp read
    exact .file plain given (inductionHypothesis taken read)
  | case6 options argument later silent name value valued inductionHypothesis =>
    unfold read? at read
    rw [if_neg silent, valued] at read
    obtain ⟨next, given, read⟩ := Option.bind_eq_some_iff.mp read
    exact .value valued given (inductionHypothesis next read)
  | case7 options argument later silent name bare next flagged inductionHypothesis =>
    unfold read? at read
    rw [if_neg silent, bare] at read
    simp only [flagged] at read
    exact .flag bare flagged (inductionHypothesis read)
  | case8 options argument silent name bare unflagged => simp [read?.eq_def, bare, unflagged] at read
  | case9 options argument silent name bare unflagged value later plain inductionHypothesis =>
    unfold read? at read
    rw [if_neg silent, bare] at read
    simp only [unflagged, if_pos plain] at read
    obtain ⟨next, given, read⟩ := Option.bind_eq_some_iff.mp read
    exact .nextValue bare plain given (inductionHypothesis next read)
  | case10 options argument silent name bare unflagged value later unplain =>
    simp [read?.eq_def, bare, unflagged, unplain] at read

/-- And arguments that can be read so are. -/
theorem Reads.read? {grammar : Grammar} {options final : Options} {rest : List Text}
    (reads : Reads grammar options rest final) : Options.read? grammar options rest = some (.given final) := by
  induction reads with
  | done options => rfl
  | files form taken =>
    rw [Options.read?, form, if_neg (by decide), taken]
    rfl
  | file form taken _ inductionHypothesis =>
    rw [Options.read?, form, if_neg (by decide), taken]
    exact inductionHypothesis
  | value form given _ inductionHypothesis =>
    rw [Options.read?, form, if_neg nofun]
    simp only [given, Option.bind_some]
    exact inductionHypothesis
  | flag form given _ inductionHypothesis =>
    obtain ⟨rfl, -, -⟩ := setFlag?_eq_some given
    rw [Options.read?, form, if_neg (by decide)]
    simp only [given]
    exact inductionHypothesis
  | @nextValue _ _ _ _ name _ _ form plain given _ inductionHypothesis =>
    have silent : (Argument.option name none).question? ≠ some .help := by
      obtain rfl | rfl := name_of_setValue given
      · decide
      · decide
    rw [Options.read?, form, if_neg silent]
    simp only [setFlag?_of_ne (ne_of_setValue given), if_pos plain, given, Option.bind_some]
    exact inductionHypothesis

/-- Once the option is set it is not read again, and the rest is read in the same way without it. -/
theorem Reads.withdrawn {grammar : Grammar} {options final : Options} {rest : List Text}
    (reads : Reads grammar options rest final) (set : options.inPlace = true) :
    Reads grammar options.withdrawn rest final.withdrawn := by
  induction reads with
  | done options => exact .done _
  | files form taken => exact .files form (takeFiles?_withdrawn taken).1
  | file form taken _ inductionHypothesis =>
    refine .file form ?_ (inductionHypothesis ((inPlace_of_takeFile taken).trans set))
    rw [takeFile?_withdrawn, taken, Option.map_some]
  | value form given _ inductionHypothesis =>
    refine .value form ?_ (inductionHypothesis ((inPlace_of_setValue given).trans set))
    rw [setValue?_withdrawn, given, Option.map_some]
  | flag form given _ inductionHypothesis =>
    rw [(setFlag?_eq_some given).2.1] at set
    cases set
  | nextValue form plain given _ inductionHypothesis =>
    refine .nextValue form plain ?_ (inductionHypothesis ((inPlace_of_setValue given).trans set))
    rw [setValue?_withdrawn, given, Option.map_some]

/-- A line that sets the option is read in the same way without it when it is taken out. -/
theorem Reads.erase {grammar : Grammar} {options final : Options} {rest : List Text}
    (reads : Reads grammar options rest final) (unset : options.inPlace = false) (set : final.inPlace = true) :
    Reads grammar options (rest.erase inPlaceFlag) final.withdrawn := by
  induction reads with
  | done options =>
    rw [unset] at set
    cases set
  | files form taken =>
    rw [(takeFiles?_withdrawn taken).2, unset] at set
    cases set
  | file form taken _ inductionHypothesis =>
    rw [erase_cons_of_form _ (by simp [form])]
    exact .file form taken (inductionHypothesis ((inPlace_of_takeFile taken).trans unset) set)
  | value form given _ inductionHypothesis =>
    rw [erase_cons_of_form _ (by simp [form])]
    exact .value form given (inductionHypothesis ((inPlace_of_setValue given).trans unset) set)
  | @flag options next _ _ _ _ form given later inductionHypothesis =>
    -- here the option stands
    obtain ⟨rfl, -, same⟩ := setFlag?_eq_some given
    have before : next.withdrawn = options := by
      rw [same, Options.withdrawn, ← unset]
    rw [Argument.eq_of_ofText_option form, inPlaceFlag, List.erase_cons_head, ← before]
    exact later.withdrawn (by rw [same])
  | nextValue form plain given _ inductionHypothesis =>
    rw [erase_cons_of_form _ (by simp [form, ne_of_setValue given]), erase_cons_of_form _ (by simp [plain])]
    exact .nextValue form plain given (inductionHypothesis ((inPlace_of_setValue given).trans unset) set)

end Options

/-- Options that are those of a migration in place are without the option those of a migration. -/
theorem taskOf?_withdrawn {name file : Text} {options : Options}
    (found : taskOf? name options = some (.migrate file true)) :
    options.inPlace = true ∧ taskOf? name options.withdrawn = some (.migrate file false) := by
  unfold taskOf? at found ⊢
  split at found
  · rename_i named
    obtain ⟨path, given, same⟩ := Option.map_eq_some_iff.mp found
    obtain ⟨rfl, set⟩ := Task.migrate.inj same
    have still : options.withdrawn.file = some path := given
    rw [if_pos named, still]
    exact ⟨set, rfl⟩
  · -- the other tasks are no migration
    exfalso
    split at found
    · simp at found
    · split at found
      · simp at found
      · split at found <;> simp at found

/-- The arguments after a task's name that ask for a migration in place ask for the same without it when the option is
taken out. -/
theorem taskAfter?_erase {before settingsPath : Option Text} {name file : Text} {rest : List Text}
    (asked : taskAfter? before name rest = some (.perform settingsPath (.migrate file true))) :
    taskAfter? before name (rest.erase inPlaceFlag) = some (.perform settingsPath (.migrate file false)) := by
  unfold taskAfter? at asked ⊢
  split at asked
  · split at asked <;> cases asked
  · rename_i other
    obtain ⟨grammar, listed, asked⟩ := Option.bind_eq_some_iff.mp asked
    obtain ⟨reading, read, asked⟩ := Option.bind_eq_some_iff.mp asked
    cases reading with
    | help => cases asked
    | given options =>
      obtain ⟨task, found, same⟩ := Option.map_eq_some_iff.mp asked
      obtain ⟨rfl, rfl⟩ := Invocation.perform.inj same
      obtain ⟨set, without⟩ := taskOf?_withdrawn found
      have erased := ((Options.reads_of_read? read).erase rfl set).read?
      rw [if_neg other, listed, Option.bind_some, erased, Option.bind_some]
      simp only [without, Option.map_some]
      rfl

/-- The arguments from any on that ask for a migration in place ask for the same without it when the option is taken
out. -/
theorem readFront?_erase {before settingsPath : Option Text} {arguments : List Text} {file : Text}
    (asked : readFront? before arguments = some (.perform settingsPath (.migrate file true))) :
    readFront? before (arguments.erase inPlaceFlag) = some (.perform settingsPath (.migrate file false)) := by
  have noPath : settingsName ≠ inPlaceName := by decide
  induction before, arguments using readFront?.induct with
  | case1 before => cases asked
  | case2 before argument later invocation question =>
    simp only [readFront?.eq_def, question, Option.some.injEq] at asked
    exact absurd (question.trans (congrArg some asked)) Argument.question?_ne_perform
  | case3 before argument later silent stops =>
    unfold readFront? at asked
    simp only [silent] at asked
    simp [stops] at asked
  | case4 before argument later silent c letter =>
    unfold readFront? at asked
    simp only [silent] at asked
    simp [letter] at asked
  | case5 before argument later silent plain =>
    rw [erase_cons_of_form later (by simp [plain])]
    unfold readFront? at asked ⊢
    simp only [silent] at asked ⊢
    rw [plain] at asked ⊢
    exact taskAfter?_erase asked
  | case6 before argument later silent name value valued expected inductionHypothesis =>
    rw [erase_cons_of_form later (by simp [valued])]
    unfold readFront? at asked ⊢
    simp only [silent] at asked ⊢
    simp only [valued, if_pos expected] at asked ⊢
    obtain ⟨path, given, asked⟩ := Option.bind_eq_some_iff.mp asked
    simp only [given, Option.bind_some]
    exact inductionHypothesis path asked
  | case7 before argument later silent name value valued unexpected =>
    unfold readFront? at asked
    simp only [silent] at asked
    simp [valued, unexpected] at asked
  | case8 before argument silent name bare expected =>
    unfold readFront? at asked
    simp only [silent] at asked
    simp [bare, expected] at asked
  | case9 before argument silent name bare expected value later plain inductionHypothesis =>
    rw [erase_cons_of_form _ (by simp [bare, expected.1, noPath]), erase_cons_of_form later (by simp [plain])]
    rw [readFront?, silent] at asked ⊢
    simp only [bare, if_pos expected, if_pos plain] at asked ⊢
    obtain ⟨path, given, asked⟩ := Option.bind_eq_some_iff.mp asked
    simp only [given, Option.bind_some]
    exact inductionHypothesis path asked
  | case10 before argument silent name bare expected value later unplain =>
    unfold readFront? at asked
    simp only [silent] at asked
    simp [bare, expected, unplain] at asked
  | case11 before argument later silent name bare unexpected =>
    unfold readFront? at asked
    simp only [silent] at asked
    simp [bare, unexpected] at asked

/-- A line of arguments that asks for a migration in place asks for the same without it when the option is taken out. -/
theorem Invocation.ofArguments?_erase {settingsPath : Option Text} {arguments : List Text} {file : Text}
    (asked : Invocation.ofArguments? arguments = some (.perform settingsPath (.migrate file true))) :
    Invocation.ofArguments? (arguments.erase inPlaceFlag) = some (.perform settingsPath (.migrate file false)) :=
  readFront?_erase asked

end MapEmbed.Command
