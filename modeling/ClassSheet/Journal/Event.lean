import ClassSheet.Build
import ClassSheet.Text.Quoted

/-!
# What a run tells

* `Journal.Level`: how important a line of the log is.
* `Journal.Event`: what happens in a run.
* `Journal.Event.fields`: the named values of an event.
* `Journal.Event.line`: an event as a line of the log.
* `Sources.journal`: the events of reading the sources below a root.
-/

namespace ClassSheet

namespace Journal

/-- How much is written to the log. -/
inductive Level where
  | off
  | error
  | warn
  | info
  | debug
  | trace
  deriving DecidableEq, Repr

namespace Level

/-- The number of a level. -/
def rank : Level → Nat
  | .off => 0
  | .error => 1
  | .warn => 2
  | .info => 3
  | .debug => 4
  | .trace => 5

/-- The name of a level. -/
def name : Level → Text
  | .off => "OFF".toList
  | .error => "ERROR".toList
  | .warn => "WARN".toList
  | .info => "INFO".toList
  | .debug => "DEBUG".toList
  | .trace => "TRACE".toList

/-- All levels, the least first. -/
def all : List Level := [.off, .error, .warn, .info, .debug, .trace]

end Level

/-- What happens in a run. -/
inductive Event where
  | loaded (path : Path) (tokens : Nat)
  /-- A link to a directory is not followed. -/
  | passed (path : Path)
  | missingRoot (root : Path)
  | readRoot (root : Path) (files bytes : Nat)
  /-- A utility class has no rule. -/
  | skipped (name : Text)
  | wrote (output : Path) (rules skipped : Nat)
  deriving DecidableEq, Repr

namespace Event

/-- How important an event is. -/
def level : Event → Level
  | .wrote .. => .info
  | _ => .debug

/-- The part of the program that an event happens in. -/
def target : Event → Text
  | .loaded .. => "blacksquare::config".toList
  | .passed .. | .missingRoot .. | .readRoot .. => "blacksquare::sources".toList
  | .skipped .. => "blacksquare_grammar::synth".toList
  | .wrote .. => "blacksquare::builder".toList

/-- What the line of an event begins with. -/
def headline : Event → Text
  | .loaded .. => "loaded configuration".toList
  | .passed _ => "not following symlinked directory".toList
  | .missingRoot _ => "source root does not exist, skipping".toList
  | .readRoot .. => "read sources".toList
  | .skipped _ => "no rule for utility class".toList
  | .wrote .. => "wrote stylesheet".toList

/-- What an event tells beside its headline: values with names. -/
def fields : Event → List (Text × Text)
  | .loaded path tokens => [("path".toList, path.text), ("props".toList, Text.ofNat tokens)]
  | .passed path => [("path".toList, path.text)]
  | .missingRoot root => [("root".toList, root.text)]
  | .readRoot root files bytes =>
    [("root".toList, root.text), ("files".toList, Text.ofNat files),
      ("bytes".toList, Text.ofNat bytes)]
  | .skipped name => [("class".toList, Text.quoted name)]
  | .wrote output rules left =>
    [("output".toList, output.text), ("rules".toList, Text.ofNat rules),
      ("skipped".toList, Text.ofNat left)]

/-- The name under which the headline of an event counts as one of its fields. -/
def headlineName : Text := "message".toList

/-- Whether an event has a field. -/
def hasField (e : Event) (name : Text) : Bool :=
  name == headlineName || e.fields.any (·.1 == name)

/-- What the line of an event says. -/
def message (e : Event) : Text :=
  e.headline ++ e.fields.flatMap fun (name, value) => ' ' :: name ++ '=' :: value

/-- An event as a line of the log. -/
def line (e : Event) : Text := e.level.name ++ " ".toList ++ e.message

end Event

end Journal

namespace Sources

open Journal (Event)

/-- The events of joining the texts of steps, `files` files of `bytes` bytes being joined already.
Nothing happens behind a file that cannot be read, and no end is reported then. -/
def journalOfSteps (root : Path) (extension : Text) (files bytes : Nat) :
    List Walk.Step → List Event
  | [] => [.readRoot root files bytes]
  | .passed path :: steps => .passed path :: journalOfSteps root extension files bytes steps
  | .file path content :: steps =>
    if path.hasExtension extension then
      match Disk.decodeText content with
      | .ok _ => journalOfSteps root extension (files + 1) (bytes + content.size) steps
      | .error _ => []
    else journalOfSteps root extension files bytes steps

/-- The events of reading the sources below a root. -/
def journal (disk : Disk) (extension : Text) (root : Path) : List Event :=
  if disk.contains root then journalOfSteps root extension 0 0 (disk.walk root)
  else [.missingRoot root]

end Sources

end ClassSheet
