import ClassSheet.Files.Walk

/-!
# A walk turn by turn

`Disk.walk` says what a walk meets from beginning to end. Here a walk is a stack of paths that are
still to be visited, and each turn takes the first one off: a directory leaves its entries on the
stack, a file is handed out, anything else is passed over. In what order a directory lists its
entries is left open.

* `Walk.children`: what a directory leaves on the stack.
* `Walk.Turn`: what a turn may do.
* `Walk.Next`: turns until a file is handed out or nothing is left.
* `Walk.Calls`: calls for the next file, one after the other.
-/

namespace ClassSheet.Walk

/-- Whether an entry of the directory at a path is a link to a directory. -/
def isPassed (disk : Disk) (path : Path) (entry : Bytes × Node) : Bool :=
  match entry.2 with
  | .link _ => disk.isDirectory (path.join ⟨entry.1⟩)
  | _ => false

/-- The paths of the entries of the directory at a path, in the order of their names, without links
to directories. -/
def children (disk : Disk) (path : Path) (listed : List (Bytes × Node)) : List Path :=
  ((listed.filter fun entry => !isPassed disk path entry).mergeSort
    fun a b => nameLe a.1 b.1).map fun entry => path.join ⟨entry.1⟩

/-- A turn, from the stack before it to the file that it hands out and the stack after it. -/
inductive Turn (disk : Disk) : List Path → Option Path → List Path → Prop where
  /-- The entries of a directory are listed in any order. -/
  | directory {path pending x entries listed} (hfind : disk.find? path = some (x, .directory entries))
    (hlisted : listed.Perm entries) :
    Turn disk (path :: pending) none (children disk path listed ++ pending)
  | file {path pending} (hdir : ¬disk.isDirectory path) (hfile : disk.isFile path) :
    Turn disk (path :: pending) (some path) pending
  | other {path pending} (hdir : ¬disk.isDirectory path) (hfile : ¬disk.isFile path) :
    Turn disk (path :: pending) none pending

/-- The turns until a file is handed out, or until none is left. -/
inductive Next (disk : Disk) : List Path → Option Path → List Path → Prop where
  | finished : Next disk [] none []
  | handed {pending path left} (turn : Turn disk pending (some path) left) :
    Next disk pending (some path) left
  | more {pending between answer left} (turn : Turn disk pending none between)
    (rest : Next disk between answer left) : Next disk pending answer left

/-- Calls for the next file, one after the other, of a walk that starts from a path. After `n` of them
the stack is `piles n`. -/
structure Calls (disk : Disk) (root : Path) (piles : Nat → List Path)
    (answers : Nat → Option Path) : Prop where
  start : piles 0 = [root]
  next : ∀ n, Next disk (piles n) (answers n) (piles (n + 1))

end ClassSheet.Walk
