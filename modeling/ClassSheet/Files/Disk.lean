import ClassSheet.Files.Path

/-!
# File trees

* `Node`: a file, a directory with its entries in the order of their listing, or a link.
* `Node.at?`, `Node.put`: the node at an address, and the tree with another one there.
* `Disk`: a file tree and the address of the current directory.
* `Disk.locate`: the place that a path names. Links are followed, up to a certain number.
* `Disk.find?`, `Disk.isDirectory`, `Disk.isFile`: what lies at a path.
-/

namespace ClassSheet

/-- What lies at some place of a file tree. -/
inductive Node where
  | file (bytes : ByteArray)
  | directory (entries : List (Bytes × Node))
  /-- The target is a path as it was written, taken from the directory of the link. -/
  | link (target : Path)

/-- The names on the way from the root of all directories to a place. -/
abbrev Address := List Bytes

namespace Node

/-- The list with another node under a name. A new name comes last. -/
def putEntry (name : Bytes) (node : Node) : List (Bytes × Node) → List (Bytes × Node)
  | [] => [(name, node)]
  | (other, old) :: entries =>
    if other = name then (name, node) :: entries
    else (other, old) :: putEntry name node entries

/-- The node at an address. No link is followed. -/
def at? : Node → Address → Option Node
  | node, [] => some node
  | .directory entries, name :: address => (entries.lookup name).bind fun node => node.at? address
  | _, _ :: _ => none

/-- The tree with another node at an address. The directories on the way have to be there, or
nothing changes. -/
def put (new : Node) : Node → Address → Node
  | _, [] => new
  | .directory entries, [name] => .directory (putEntry name new entries)
  | .directory entries, name :: address =>
    match entries.lookup name with
    | some node => .directory (putEntry name (put new node address) entries)
    | none => .directory entries
  | node, _ :: _ => node

/-- The tree without the node at an address. -/
def erase : Node → Address → Node
  | .directory entries, [name] => .directory (entries.filter (·.1 != name))
  | .directory entries, name :: address =>
    match entries.lookup name with
    | some node => .directory (putEntry name (node.erase address) entries)
    | none => .directory entries
  | node, _ => node

end Node

/-- Why nothing can be done at a path. -/
inductive FileError where
  /-- Nothing is there. -/
  | absent
  /-- Something is there already. -/
  | occupied
  /-- What should be a directory is none. -/
  | notDirectory
  /-- What should be a file is a directory. -/
  | isDirectory
  /-- The path leads over too many links. -/
  | tooManyLinks
  /-- The path, or the name of something in it, is too long. -/
  | nameTooLong
  /-- The path holds the byte that no name may have. -/
  | invalidName
  /-- The bytes of the file are no text. -/
  | notText
  deriving DecidableEq, Repr

/-- The message for the user. -/
def FileError.message : FileError → Text
  | .absent => "No such file or directory".toList
  | .occupied => "File exists".toList
  | .notDirectory => "Not a directory".toList
  | .isDirectory => "Is a directory".toList
  | .tooManyLinks => "Too many levels of symbolic links".toList
  | .nameTooLong => "File name too long".toList
  | .invalidName => "file name contained an unexpected NUL byte".toList
  | .notText => "stream did not contain valid UTF-8".toList

/-- A place that a path names. -/
inductive Place where
  /-- Something is there. -/
  | taken (address : Address)
  /-- Nothing is there, in a directory that is. -/
  | vacant (address : Address)
  deriving DecidableEq, Repr

/-- A file tree and the address of the current directory. -/
structure Disk where
  root : Node
  current : Address

namespace Disk

/-- How many links may be followed on the way along a path. -/
def greatestLinkCount : Nat := 40

/-- How many bytes a name may have. -/
def greatestNameLength : Nat := 255

/-- How many bytes a path may have. -/
def greatestPathLength : Nat := 4095

/-- The directory that a path is taken from, given the one for relative paths. -/
def start (base : Address) (p : Path) : Address := if p.isAbsolute then [] else base

/-- Goes along the parts of a path from a directory on. At a link it leaves the rest to `follow`,
which is given where the target starts and the parts to go along from there: those of the target
and then those that are left. A link in the last place is followed only if `followLast`. -/
def go (root : Node) (follow : Address → List Bytes → Except FileError Place) (followLast : Bool) :
    Address → List Bytes → Except FileError Place
  | address, [] => .ok (.taken address)
  | address, part :: parts =>
    match root.at? address with
    | some (.directory entries) =>
      if Path.isIdle part then go root follow followLast address parts
      else if part = Path.above then go root follow followLast address.dropLast parts
      else if greatestNameLength < part.length then .error .nameTooLong
      else
        match entries.lookup part with
        | none => if parts = [] then .ok (.vacant (address ++ [part])) else .error .absent
        | some (.link target) =>
          if parts = [] ∧ !followLast then .ok (.taken (address ++ [part]))
          else if target.bytes = [] then .error .absent
          else follow (start address target) (target.parts ++ parts)
        | some _ => go root follow followLast (address ++ [part]) parts
    | some _ => .error .notDirectory
    | none => .error .absent

/-- Goes along the parts of a path from a directory on, over at most `links` links. -/
def goFollowing (root : Node) (followLast : Bool) :
    (links : Nat) → Address → List Bytes → Except FileError Place
  | 0 => go root (fun _ _ => .error .tooManyLinks) followLast
  | links + 1 => go root (goFollowing root followLast links) followLast

/-- Why a path names nothing, whatever lies on the disk: it is empty or too long, or it holds the
byte that ends paths. -/
def pathError? (p : Path) : Option FileError :=
  if p.bytes = [] then some .absent
  else if 0 ∈ p.bytes then some .invalidName
  else if greatestPathLength < p.bytes.length then some .nameTooLong
  else none

/-- The place that a path names. A link in the last place is followed only if `followLast`. -/
def locate (disk : Disk) (followLast : Bool) (p : Path) : Except FileError Place :=
  match pathError? p with
  | some e => .error e
  | none => goFollowing disk.root followLast greatestLinkCount (start disk.current p) p.parts

/-- The address and the node that a path names. -/
def find? (disk : Disk) (p : Path) : Option (Address × Node) :=
  match disk.locate true p with
  | .ok (.taken address) => (disk.root.at? address).map (address, ·)
  | _ => none

/-- Whether anything is at a path. -/
def contains (disk : Disk) (p : Path) : Bool := (disk.find? p).isSome

/-- Whether a directory is at a path. -/
def isDirectory (disk : Disk) (p : Path) : Bool :=
  match disk.find? p with
  | some (_, .directory _) => true
  | _ => false

/-- Whether a file is at a path. -/
def isFile (disk : Disk) (p : Path) : Bool :=
  match disk.find? p with
  | some (_, .file _) => true
  | _ => false

/-! ## Reading and changing files -/

/-- The bytes of the file at a path. -/
def readBytes (disk : Disk) (p : Path) : Except FileError ByteArray :=
  match disk.locate true p with
  | .error e => .error e
  | .ok (.vacant _) => .error .absent
  | .ok (.taken address) =>
    match disk.root.at? address with
    | some (.file bytes) => .ok bytes
    | some (.directory _) => .error .isDirectory
    | _ => .error .absent

/-- The text whose UTF-8 form the bytes are. -/
def decodeText (bytes : ByteArray) : Except FileError Text :=
  match Text.ofUtf8? bytes with
  | some text => .ok text
  | none => .error .notText

/-- The text of the file at a path. -/
def readText (disk : Disk) (p : Path) : Except FileError Text :=
  (disk.readBytes p).bind decodeText

/-- The disk with another node at an address. -/
def put (disk : Disk) (address : Address) (node : Node) : Disk :=
  { disk with root := node.put disk.root address }

/-- Writes a file. What it held before is lost; a link to a file is followed. -/
def writeBytes (disk : Disk) (p : Path) (bytes : ByteArray) : Except FileError Disk :=
  match disk.locate true p with
  | .error e => .error e
  | .ok (.vacant address) => .ok (disk.put address (.file bytes))
  | .ok (.taken address) =>
    match disk.root.at? address with
    | some (.directory _) => .error .isDirectory
    | _ => .ok (disk.put address (.file bytes))

/-- A path without the slashes at its end. -/
def withoutSlashes (p : Path) : Path :=
  match (p.bytes.reverse.dropWhile (· == Path.slash)).reverse with
  | [] => p
  | bytes => ⟨bytes⟩

/-- Puts a new node at a path where nothing is yet, not even a link. -/
def create (disk : Disk) (p : Path) (node : Node) : Except FileError Disk :=
  match disk.locate false (withoutSlashes p) with
  | .error e => .error e
  | .ok (.taken _) => .error .occupied
  | .ok (.vacant address) => .ok (disk.put address node)

/-- Makes a link. What its target names does not matter, but it has to be able to name something. -/
def makeLink (disk : Disk) (p target : Path) : Except FileError Disk :=
  match pathError? target with
  | some e => .error e
  | none => disk.create p (.link target)

/-- Makes an empty directory. -/
def makeDirectory (disk : Disk) (p : Path) : Except FileError Disk :=
  disk.create p (.directory [])

/-- Makes a directory at `p` after its parent, unless there is one already. The disk keeps the
directories that were made before a failure. -/
def makeDirectoriesWithin : Nat → Disk → Path → Disk × Except FileError Unit
  | 0, disk, _ => (disk, .error .absent)
  | n + 1, disk, p =>
    if p.bytes = [] then (disk, .ok ())
    else
      match disk.makeDirectory p with
      | .ok disk => (disk, .ok ())
      | .error .absent =>
        match p.parent? with
        | none => (disk, .error .absent)
        | some parent =>
          match makeDirectoriesWithin n disk parent with
          | (disk, .error e) => (disk, .error e)
          | (disk, .ok ()) =>
            match disk.makeDirectory p with
            | .ok disk => (disk, .ok ())
            | .error e => if disk.isDirectory p then (disk, .ok ()) else (disk, .error e)
      | .error e => if disk.isDirectory p then (disk, .ok ()) else (disk, .error e)

/-- Makes a directory with all directories that it lies in. A parent has a shorter path, so the
length of the path bounds the steps. -/
def makeDirectories (disk : Disk) (p : Path) : Disk × Except FileError Unit :=
  makeDirectoriesWithin (p.bytes.length + 1) disk p

/-- Removes what is at a path: a file, a link, or a directory with all that is in it. -/
def remove (disk : Disk) (p : Path) : Except FileError Disk :=
  match disk.locate false p with
  | .error e => .error e
  | .ok (.vacant _) => .error .absent
  | .ok (.taken address) => .ok { disk with root := disk.root.erase address }

end Disk

end ClassSheet
