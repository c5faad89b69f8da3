import ClassSheet.Command.Help
import ClassSheet.Journal.Filter

/-!
# The whole program

* `RunError`: why a run fails.
* `Invocation.run`: what the program does for a reading of its arguments: its output, or an error,
  and the disk afterwards.
* `Invocation.journal`: the events of that run.
* `Program.run`: from the arguments to the exit status.
* `Program.Result.errorText`: what the user is told beside the output.
-/

namespace ClassSheet

/-- Why a run fails. -/
inductive RunError where
  /-- The configuration cannot be loaded from its file. -/
  | loading (path : Path) (cause : ConfigurationError)
  | build (cause : BuildError)
  deriving DecidableEq, Repr

namespace RunError

/-- The message for the user: what was tried, what went wrong, and why once more. -/
def message (words : Wording) : RunError → Text
  | .loading path cause =>
    "loading ".toList ++ path.text ++ ": ".toList ++ cause.message words ++
      match cause.cause? words with
      | none => []
      | some text => ": ".toList ++ text
  | .build cause => cause.message words ++ ": ".toList ++ cause.cause words

end RunError

/-- What a run of a command does. -/
structure RunResult where
  /-- The output, or why there is none. -/
  output : Except RunError Text
  /-- The disk afterwards. -/
  disk : Disk

namespace Invocation

/-- The line about a written stylesheet. -/
def reportLine (r : BuildReport) : Text :=
  "Wrote ".toList ++ r.output.text ++ " (".toList ++ Text.ofNat r.classes ++
    " classes, ".toList ++ Text.ofNat r.rules ++ " rules, ".toList ++ Text.ofNat r.skipped ++
    " skipped)\n".toList

/-- The line about a class name. -/
def classLine (name : Text) : Text := Utility.familyWord name ++ '\t' :: name ++ ['\n']

/-- What a command does once the configuration is loaded. -/
def perform (disk : Disk) (c : Configuration) : Command → RunResult
  | .build =>
    match Build.write disk c with
    | (disk, .error e) => ⟨.error (.build e), disk⟩
    | (disk, .ok report) => ⟨.ok (reportLine report), disk⟩
  | .print =>
    match Build.css disk c with
    | .error e => ⟨.error (.build (.source e)), disk⟩
    | .ok css => ⟨.ok (css ++ ['\n']), disk⟩
  | .classes =>
    match Build.classNames disk c with
    | .error e => ⟨.error (.build (.source e)), disk⟩
    | .ok names => ⟨.ok (names.flatMap classLine), disk⟩

/-- The command of a run. -/
def command (i : Invocation) : Command := i.command?.getD .build

/-- Loads the configuration and performs the command. -/
def run (i : Invocation) (disk : Disk) : RunResult :=
  match Configuration.load disk i.config with
  | .error e => ⟨.error (.loading i.config e), disk⟩
  | .ok c => perform disk c i.command

/-- The events of performing a command once the configuration is loaded. -/
def journalOf (disk : Disk) (c : Configuration) (command : Command) : List Journal.Event :=
  c.sourceRoots.flatMap (Sources.journal disk c.content.fileExtension) ++
    match command, Build.sheet disk c with
    | .classes, _ | _, .error _ => []
    | .print, .ok sheet => sheet.skipped.map .skipped
    | .build, .ok sheet =>
      sheet.skipped.map .skipped ++
        match (Build.write disk c).2 with
        | .error _ => []
        | .ok report => [.wrote report.output report.rules report.skipped]

/-- The events of a run, in order. -/
def journal (i : Invocation) (disk : Disk) : List Journal.Event :=
  match Configuration.load disk i.config with
  | .error _ => []
  | .ok c => .loaded i.config c.theme.tokens.length :: journalOf disk c i.command

end Invocation

namespace Program

/-- What a run of the program leaves behind. -/
structure Result where
  status : Nat
  output : Text
  /-- The lines of the log. -/
  log : List Text
  /-- Why the arguments ask for no run, or why the run failed. -/
  failure? : Option (Sum ArgumentError RunError)
  disk : Disk

/-- Runs the program. The log follows the directives of the environment, if there are any. -/
def run (arguments : List Text) (directives? : Option Text) (disk : Disk) : Result :=
  match Arguments.parse arguments with
  | .error (.help topic) => ⟨0, topic.text, [], none, disk⟩
  | .error .version => ⟨0, versionText, [], none, disk⟩
  | .error (.error e) => ⟨2, [], [], some (.inl e), disk⟩
  | .ok i =>
    let filter := Journal.Filter.choose directives? i.verbosity
    let log := ((i.journal disk).filter filter.admits).map Journal.Event.line
    let result := i.run disk
    match result.output with
    | .ok output => ⟨0, output, log, none, result.disk⟩
    | .error e => ⟨1, [], log, some (.inr e), result.disk⟩

/-- What the user is told beside the output: the log, and why the run failed. -/
def Result.errorText (words : Wording) (r : Result) : Text :=
  unlines r.log ++
    match r.failure? with
    | none => []
    | some (.inl e) => e.text
    | some (.inr e) => unlines ["error: ".toList ++ e.message words]

end Program

end ClassSheet
