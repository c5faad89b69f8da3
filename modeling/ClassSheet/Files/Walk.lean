import ClassSheet.Files.Disk

/-!
# Walking through a directory

A walk meets the files below a path, depth first and in the order of their names. A link to a file
counts as a file; a link to a directory is passed over, except at the path itself.

* `Walk.Step`: what a walk meets.
* `Disk.walk`: the steps of the walk from a path, in order.
* `Disk.filesBelow`: the paths of the files it meets.
-/

namespace ClassSheet

namespace Walk

/-- What a walk meets. -/
inductive Step where
  /-- A file. -/
  | file (path : Path) (bytes : ByteArray)
  /-- A link to a directory, which is passed over. -/
  | passed (path : Path)

/-- Whether a name comes before another one or is the same, byte by byte. -/
def nameLe (a b : Bytes) : Bool := (compare a b).isLE

/-- The links to directories among the entries of the directory at a path, as they are listed. -/
def passedLinks (disk : Disk) (path : Path) (entries : List (Bytes × Node)) : List Step :=
  entries.filterMap fun entry =>
    match entry.2 with
    | .link _ =>
      let path := path.join ⟨entry.1⟩
      if disk.isDirectory path then some (.passed path) else none
    | _ => none

mutual

/-- The steps from a node on, given its path. A path that has become too long to lead to the node
leads nowhere. -/
def visit (disk : Disk) (path : Path) : Node → List Step
  | .directory entries =>
    if disk.isDirectory path then
      passedLinks disk path entries ++
        ((visitEntries disk path entries).mergeSort fun a b => nameLe a.1 b.1).flatMap (·.2)
    else []
  | _ =>
    match disk.find? path with
    | some (_, .file bytes) => [.file path bytes]
    | _ => []

/-- The names of the entries of a directory, each with its steps, given the path of the
directory. -/
def visitEntries (disk : Disk) (path : Path) : List (Bytes × Node) → List (Bytes × List Step)
  | [] => []
  | (name, node) :: entries =>
    (name, visit disk (path.join ⟨name⟩) node) :: visitEntries disk path entries

end

end Walk

namespace Disk

/-- The steps of the walk from a path. A path that names a file is that file alone. -/
def walk (disk : Disk) (path : Path) : List Walk.Step :=
  match disk.find? path with
  | some (_, node) => Walk.visit disk path node
  | none => []

/-- The paths of the files that the walk from a path meets. -/
def filesBelow (disk : Disk) (path : Path) : List Path :=
  (disk.walk path).filterMap fun
    | .file path _ => some path
    | .passed _ => none

end Disk

end ClassSheet
