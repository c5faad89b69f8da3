import ClassSheet.Program

/-!
# The program on a real file system

A run is a function from one disk to another, so it is wrapped in three steps: what the run will
look at is copied to a disk, the run is computed, and what it changed is written back.

* `Snapshot.add`: copies what lies at a path.
* `Snapshot.forRun`: copies what a run looks at: its configuration, its sources and the way to its
  output.
* `Snapshot.writeBack`: makes the changes of a run.
-/

namespace ClassSheet

namespace Snapshot

/-- The place at an address. -/
def placeOf (address : Address) : String :=
  "/" ++ "/".intercalate (address.map fun name => (Bytes.shown name).asString)

/-- What is found at an address, the last link not being followed. -/
def kindAt (address : Address) : IO (Option IO.FS.FileType) := do
  let here ← IO.currentDir
  try return some (← (here / placeOf address).symlinkMetadata).type catch _ => return none

/-- The address that the link at an address leads to in the end, if it leads anywhere. -/
def targetOf (address : Address) : IO (Option Address) := do
  try
    let target := (← IO.FS.realPath (placeOf address)).toString
    return some ((Path.ofText target.toList).parts.filter (!Path.isIdle ·))
  catch _ => return none

/-- The names in the directory at an address. -/
def namesAt (address : Address) : IO (List Bytes) := do
  let here ← IO.currentDir
  return (← (here / placeOf address).readDir).toList.map fun entry => entry.fileName.toList

/-- The tree with a directory at an address, unless there is one. -/
def withDirectory (root : Node) (address : Address) : Node :=
  match root.at? address with
  | some (.directory _) => root
  | _ => Node.put (.directory []) root address

/-- Copies the node at an address, and with `below` all that lies below a directory. A link is
copied with the node it leads to; one that leads nowhere is left out, since nothing can be read
through it. -/
partial def addNode (below : Bool) (root : Node) (address : Address) :
    IO Node := do
  match ← kindAt address with
  | none | some .other => return root
  | some .file => return Node.put (.file (← IO.FS.readBinFile (placeOf address))) root address
  | some .dir =>
    let mut root := withDirectory root address
    if below then
      for name in ← namesAt address do
        root ← addNode below root (address ++ [name])
    return root
  | some .symlink =>
    match ← targetOf address with
    | none => return root
    | some target =>
      let mut root := root
      for length in List.range (target.length + 1) do
        root ← addNode false root (target.take length)
      return Node.put (.link ⟨(placeOf target).toList⟩) root address

/-- Copies what lies along the parts of a path, starting from a directory. -/
def addAlong (below : Bool) (root : Node) :
    Address → List Bytes → IO Node
  | address, [] => addNode below root address
  | address, part :: parts => do
    if Path.isIdle part then addAlong below root address parts
    else if part = Path.above then addAlong below root address.dropLast parts
    else
      let next := address ++ [part]
      let root ← addNode false root next
      match ← kindAt next with
      | none => return root
      | some .symlink =>
        match ← targetOf next with
        | none => return root
        | some target => addAlong below root target parts
      | _ => addAlong below root next parts

/-- Copies what lies at a path, and with `below` all that lies below a directory. -/
def add (below : Bool) (disk : Disk) (p : Path) : IO Disk := do
  return { disk with root := ← addAlong below disk.root (Disk.start disk.current p) p.parts }

/-- A disk with the current directory and nothing else. -/
def ofCurrent : IO Disk := do
  let here := (← IO.currentDir).toString
  let current := (Path.ofText here.toList).parts.filter (!Path.isIdle ·)
  let addresses := (List.range (current.length + 1)).map current.take
  return ⟨addresses.foldl withDirectory (.directory []), current⟩

/-- What a run for some arguments looks at. -/
def forRun (arguments : List Text) : IO Disk := do
  let disk ← ofCurrent
  match Arguments.parse arguments with
  | .error _ => return disk
  | .ok i =>
    let disk ← add false disk i.config
    match Configuration.load disk i.config with
    | .error _ => return disk
    | .ok c =>
      let disk ← c.sourceRoots.foldlM (add true) disk
      add false disk c.outputPath

/-- Makes the directories and writes the files that a run has changed at an address. -/
partial def writeBack (old? : Option Node) (new : Node) (address : Address) : IO Unit := do
  match new with
  | .link _ => return
  | .file bytes =>
    let kept := match old? with
      | some (.file old) => old.data == bytes.data
      | _ => false
    unless kept do IO.FS.writeBinFile (placeOf address) bytes
  | .directory entries =>
    let oldEntries ← match old? with
      | some (.directory oldEntries) => pure oldEntries
      | _ => do
        IO.FS.createDir (placeOf address)
        pure []
    for (name, node) in entries do
      writeBack (oldEntries.lookup name) node (address ++ [name])

end Snapshot

end ClassSheet

open ClassSheet in
/-- Runs the program: its output and its errors go to the standard streams. -/
def main (arguments : List String) : IO UInt32 := do
  let arguments := arguments.map String.toList
  let directives? := (← IO.getEnv "RUST_LOG").map String.toList
  try
    let disk ← Snapshot.forRun arguments
    let result := Program.run arguments directives? disk
    Snapshot.writeBack (some disk.root) result.disk.root []
    IO.eprint (result.errorText .plain).asString
    IO.print result.output.asString
    return UInt32.ofNat result.status
  catch e =>
    IO.eprintln ("error: " ++ toString e)
    return 1
