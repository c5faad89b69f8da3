import ClassSheet.Program

/-!
# A run step by step

`Invocation.run` says what a run comes to. Here a run is the sequence of its steps, each of which
may look at the disk, change it, write to the output or fail. What was done before a failure stays.

* `Session`: what the steps of a run change.
* `Session.look`, `Session.build`, `Session.say`: the steps.
* `Invocation.steps`: the steps of a run.
-/

namespace ClassSheet

/-- What the steps of a run change. -/
structure Session where
  disk : Disk
  /-- All that has been written to the output. -/
  output : Text

namespace Session

/-- A step of a run. -/
abbrev Step := EStateM RunError Session

/-- Looks at the disk, and fails if that does. -/
def look {ε α : Type} (failure : ε → RunError) (f : Disk → Except ε α) : Step α := do
  match f (← get).disk with
  | .ok a => return a
  | .error e => throw (failure e)

/-- Writes the stylesheet to its file. -/
def build (c : Configuration) : Step BuildReport := do
  let session ← get
  let (disk, result) := Build.write session.disk c
  set { session with disk }
  match result with
  | .ok report => return report
  | .error e => throw (.build e)

/-- Writes to the output. -/
def say (s : Text) : Step Unit :=
  modify fun session => { session with output := session.output ++ s }

end Session

namespace Invocation

open Session (look build say)

/-- The steps of a run. A class name is written to the output as soon as its line is made. -/
def steps (i : Invocation) : Session.Step Unit := do
  let c ← look (.loading i.config) fun disk => Configuration.load disk i.config
  match i.command with
  | .build => say (reportLine (← build c))
  | .print => say ((← look (.build ∘ .source) fun disk => Build.css disk c) ++ ['\n'])
  | .classes =>
    let names ← look (.build ∘ .source) fun disk => Build.classNames disk c
    names.forM fun name => say (classLine name)

end Invocation

end ClassSheet
