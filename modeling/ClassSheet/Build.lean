import ClassSheet.Configuration.Basic
import ClassSheet.Sheet.Basic
import ClassSheet.Sources

/-!
# Building the stylesheet of a project

* `Build.classNames`: the class names in all sources of a configuration.
* `Build.sheet`: the stylesheet for them.
* `Build.write`: writes the stylesheet to its file and reports what it holds.
-/

namespace ClassSheet

/-- Why no stylesheet is written. -/
inductive BuildError where
  | source (cause : SourceError)
  /-- The file at this path cannot be written. -/
  | unwritable (path : Path) (cause : FileError)
  deriving DecidableEq, Repr

namespace SourceError

/-- The message of the cause. -/
def cause (words : Wording) : SourceError → Text
  | .unreadable _ cause => words.file cause

/-- The message for the user, with that of the cause. -/
def message (words : Wording) : SourceError → Text
  | .unreadable path cause =>
    "Failed to read ".toList ++ path.text ++ ": ".toList ++ words.file cause

end SourceError

namespace BuildError

/-- The message of the cause. -/
def cause (words : Wording) : BuildError → Text
  | .source e => e.cause words
  | .unwritable _ cause => words.file cause

/-- The message for the user, with that of the cause. -/
def message (words : Wording) : BuildError → Text
  | .source e => e.message words
  | .unwritable path cause =>
    "Failed to write stylesheet ".toList ++ path.text ++ ": ".toList ++ words.file cause

end BuildError

/-- What a written stylesheet holds. -/
structure BuildReport where
  output : Path
  /-- How many class names the sources hold. -/
  classes : Nat
  declarations : Nat
  rules : Nat
  /-- How many utility classes have no rule. -/
  skipped : Nat
  deriving DecidableEq, Repr

namespace Build

/-- The class names in all sources, in the order of their first occurrences. -/
def classNames (disk : Disk) (c : Configuration) : Except SourceError (List Text) :=
  (Sources.collect disk c.content.fileExtension c.sourceRoots).map Markup.classNames

/-- The stylesheet for the class names in all sources. -/
def sheet (disk : Disk) (c : Configuration) : Except SourceError Sheet :=
  (classNames disk c).map c.style.sheet

/-- The text of the stylesheet. -/
def css (disk : Disk) (c : Configuration) : Except SourceError Text :=
  (sheet disk c).map Sheet.css

/-- Makes the directories that a file lies in, as far as its path names them. -/
def makeParent (disk : Disk) (output : Path) : Disk × Except FileError Unit :=
  match output.parent? with
  | none => (disk, .ok ())
  | some parent => if parent.bytes = [] then (disk, .ok ()) else disk.makeDirectories parent

/-- Writes a text to a file, in directories that are made where they lack. -/
def writeText (disk : Disk) (output : Path) (text : Text) : Disk × Except FileError Unit :=
  match makeParent disk output with
  | (disk, .error cause) => (disk, .error cause)
  | (disk, .ok ()) =>
    match disk.writeBytes output text.utf8 with
    | .error cause => (disk, .error cause)
    | .ok disk => (disk, .ok ())

/-- Writes the stylesheet for the class names in all sources. -/
def write (disk : Disk) (c : Configuration) : Disk × Except BuildError BuildReport :=
  match classNames disk c with
  | .error e => (disk, .error (.source e))
  | .ok names =>
    let sheet := c.style.sheet names
    let output := c.outputPath
    match writeText disk output sheet.css with
    | (disk, .error cause) => (disk, .error (.unwritable output cause))
    | (disk, .ok ()) =>
      (disk, .ok ⟨output, names.length, sheet.declarations, sheet.rules, sheet.skipped.length⟩)

end Build

end ClassSheet
