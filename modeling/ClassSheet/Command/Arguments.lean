import ClassSheet.Configuration.Basic

/-!
# Command line arguments

The program has three commands; without one it builds. Two options, for the configuration file and
for the number of log lines, may stand before the command and behind it. What stands behind it
counts.

* `Command`, `Invocation`: what is to be done, and with which options.
* `Stop`: why nothing is done: help or the version is asked for, or an argument is wrong.
* `Arguments.Level`: the options before or behind the command, as far as they have been read.
* `Arguments.parse`: reads a list of arguments.
-/

namespace ClassSheet

/-- What is to be done. -/
inductive Command where
  | build
  | print
  | classes
  deriving DecidableEq, Repr

/-- The word for a command. -/
def Command.word : Command → Text
  | .build => "build".toList
  | .print => "print".toList
  | .classes => "classes".toList

/-- The command of a word. -/
def Command.ofWord? (word : Text) : Option Command :=
  [build, print, classes].find? (·.word = word)

/-- What a run of the program is asked for. -/
structure Invocation where
  config : Path := Configuration.defaultPath
  /-- How often more log lines are asked for. -/
  verbosity : Nat := 0
  command? : Option Command := none
  deriving DecidableEq, Repr

/-- Why arguments are wrong. -/
inductive ArgumentError where
  /-- A word where a command should stand. -/
  | invalidSubcommand
  /-- An option that there is not, or a word where none may stand. -/
  | unknownArgument
  /-- A value for an option that takes none. -/
  | tooManyValues
  /-- An option without the value it takes. -/
  | invalidValue
  /-- An option given twice that may be given once. -/
  | argumentConflict
  deriving DecidableEq, Repr

/-- What help is asked for. -/
inductive HelpTopic where
  | program
  | command (c : Command)
  /-- The command that gives help. -/
  | help
  deriving DecidableEq, Repr

/-- Why arguments ask for no run. -/
inductive Stop where
  | help (topic : HelpTopic)
  | version
  | error (e : ArgumentError)
  deriving DecidableEq, Repr

namespace Arguments

/-- An option whose value has not been looked at yet. -/
inductive Pending where
  /-- There is none. -/
  | none
  /-- The next word is the value. -/
  | awaited
  | given (value : Text)
  deriving DecidableEq, Repr

/-- The options before the command, or those behind it, as far as they have been read. -/
structure Level where
  config? : Option Text := .none
  verbosity? : Option Nat := .none
  pending : Pending := .none
  deriving DecidableEq, Repr

/-- The greatest verbosity that is counted. -/
def greatestVerbosity : Nat := 255

namespace Level

/-- Settles the value of the configuration option. -/
def setConfig (level : Level) (value : Text) : Except Stop Level :=
  if level.config?.isSome then .error (.error .argumentConflict)
  else if value = [] then .error (.error .invalidValue)
  else .ok { level with config? := some value }

/-- Settles what is pending. -/
def resolve (level : Level) : Except Stop Level :=
  let settled := { level with pending := .none }
  match level.pending with
  | .none => .ok level
  | .awaited => .error (.error .invalidValue)
  | .given value => settled.setConfig value

/-- The configuration option with its value in the same argument. -/
def attach (level : Level) (value : Text) : Except Stop Level := do
  (← level.resolve).setConfig value

/-- The configuration option, its value being the next argument. -/
def await (level : Level) : Except Stop Level := do
  return { ← level.resolve with pending := .awaited }

/-- The option for more log lines. -/
def count (level : Level) : Except Stop Level := do
  let level ← level.resolve
  let n := level.verbosity?.getD 0
  return { level with verbosity? := some (min (n + 1) greatestVerbosity) }

/-- Something that ends the reading at once. -/
def stop (level : Level) (s : Stop) : Except Stop Level := do
  let _ ← level.resolve
  .error s

end Level

/-- The topic of help that is asked for behind the command `c?`, if any. -/
def topicOf : Option Command → HelpTopic
  | none => .program
  | some c => .command c

/-- Reads an argument of two dashes and a name, with or without a value behind `=`. -/
def readLong (command? : Option Command) (level : Level) (argument : Text) :
    Except Stop Level :=
  let (name, value?) := match Text.cut? '=' argument with
    | some (name, value) => (name, some value)
    | none => (argument, none)
  if name = "config".toList then
    match value? with
    | some value => level.attach value
    | none => level.await
  else if name = "verbose".toList then
    if value?.isSome then .error (.error .tooManyValues) else level.count
  else if name = "help".toList then
    if value?.isSome then .error (.error .tooManyValues)
    else level.stop (.help (topicOf command?))
  else if name = "version".toList ∧ command? = none then
    if value?.isSome then .error (.error .tooManyValues) else level.stop .version
  else .error (.error .unknownArgument)

/-- Reads the letters of an argument behind its one dash. -/
def readShort (command? : Option Command) (level : Level) : Text → Except Stop Level
  | [] => .ok level
  | 'c' :: value =>
    match value with
    | [] => level.await
    | '=' :: value => level.attach value
    | value => level.attach value
  | letter :: letters =>
    if letter = 'v' then do readShort command? (← level.count) letters
    else if letter = 'h' then level.stop (.help (topicOf command?))
    else if letter = 'V' ∧ command? = none then level.stop .version
    else .error (.error .unknownArgument)

/-- Whether a word calls for a command, the one for help included. -/
def isCommandWord (word : Text) : Bool :=
  (Command.ofWord? word).isSome || word == "help".toList

/-- What is wrong with the first argument behind two lone dashes. No argument may stand there. In
front of a command the word of one is an argument out of place, and anything else is taken for a
command that there is not. -/
def errorBehindDashes (command? : Option Command) (argument : Text) : ArgumentError :=
  if command? = none ∧ !isCommandWord argument then .invalidSubcommand else .unknownArgument

/-- Reads the arguments of one level, up to a word that is a command if there is none yet. The
arguments behind that word are left. -/
def readLevel (command? : Option Command) (level : Level) :
    List Text → Except Stop (Level × Option (Text × List Text))
  | [] => .ok (level, none)
  | argument :: arguments =>
    if command? = none ∧ level.pending ≠ .awaited ∧ isCommandWord argument then
      .ok (level, some (argument, arguments))
    else
      match argument with
      | ['-', '-'] =>
        match arguments with
        | [] => .ok (level, none)
        | first :: _ => .error (.error (errorBehindDashes command? first))
      | '-' :: '-' :: long => do readLevel command? (← readLong command? level long) arguments
      | '-' :: letter :: letters => do
        readLevel command? (← readShort command? level (letter :: letters)) arguments
      | word =>
        if level.pending = .awaited then
          readLevel command? { level with pending := .given word } arguments
        else if command? = none then .error (.error .invalidSubcommand)
        else .error (.error .unknownArgument)

/-- The help that is asked for by the arguments behind `help`. -/
def helpTopic : List Text → Except ArgumentError HelpTopic
  | [] => .ok .program
  | [word] =>
    match Command.ofWord? word with
    | some c => .ok (.command c)
    | none => if word = "help".toList then .ok .help else .error .invalidSubcommand
  | _ => .error .invalidSubcommand

/-- What two levels of options ask for. The level behind the command comes first. -/
def invocation (levels : List Level) (command? : Option Command) : Invocation where
  config := (levels.findSome? (·.config?)).elim Configuration.defaultPath Path.ofText
  verbosity := (levels.findSome? (·.verbosity?)).getD 0
  command? := command?

/-- Reads the arguments of the program, up to the first that is wrong or ends the reading. -/
def parse (arguments : List Text) : Except Stop Invocation := do
  let (level, rest?) ← readLevel none {} arguments
  match rest? with
  | none => return invocation [← level.resolve] none
  | some (word, arguments) =>
    match Command.ofWord? word with
    | none =>
      match helpTopic arguments with
      | .ok topic => .error (.help topic)
      | .error e => .error (.error e)
    | some c =>
      let (inner, _) ← readLevel (some c) {} arguments
      let inner ← inner.resolve
      let outer ← level.resolve
      return invocation [inner, outer] (some c)

end Arguments

end ClassSheet
