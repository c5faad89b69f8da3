import ClassSheet.Files.Walk

/-!
# Source texts

Markup is gathered from the files below one or more roots and joined to a single text.

* `SourceError`: why the sources cannot be read.
* `Sources.read`: the texts of the files with an extension below a root, joined in the order of
  the walk.
* `Sources.collect`: the texts of several roots, joined in the order of the roots.
-/

namespace ClassSheet

/-- Why the sources cannot be read. A directory is never the reason: everybody may list what is on a
disk, which says nothing about permissions. -/
inductive SourceError where
  /-- The file at this path cannot be read. -/
  | unreadable (path : Path) (cause : FileError)
  deriving DecidableEq, Repr

namespace Sources

/-- What a step adds to the source text: the text of a file with the extension. -/
def stepText (extension : Text) : Walk.Step → Except SourceError Text
  | .file path bytes =>
    if path.hasExtension extension then
      match Disk.decodeText bytes with
      | .ok text => .ok text
      | .error cause => .error (.unreadable path cause)
    else .ok []
  | .passed _ => .ok []

/-- The joined texts of the steps, or the error of the first one that has one. -/
def joinSteps (extension : Text) : List Walk.Step → Except SourceError Text
  | [] => .ok []
  | step :: steps => do
    let text ← stepText extension step
    let texts ← joinSteps extension steps
    return text ++ texts

/-- The joined texts of the files with the extension below a root. A root that is not there has
none. -/
def read (disk : Disk) (root : Path) (extension : Text) : Except SourceError Text :=
  if disk.contains root then joinSteps extension (disk.walk root) else .ok []

/-- The joined texts of several roots. -/
def collect (disk : Disk) (extension : Text) : List Path → Except SourceError Text
  | [] => .ok []
  | root :: roots => do
    let text ← read disk root extension
    let texts ← collect disk extension roots
    return text ++ texts

end Sources

end ClassSheet
