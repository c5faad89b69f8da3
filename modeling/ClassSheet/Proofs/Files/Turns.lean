import ClassSheet.Files.Turns
import ClassSheet.Proofs.Files.Joined
import ClassSheet.Proofs.Files.Walk
import Mathlib.Logic.Function.Iterate

/-!
# The files that a walk hands out

* `Disk.filesBelow_directory`: the files below a directory are those below its children.
* `Walk.wellFounded_leaves`, `Walk.exists_next`: there is always a next turn, but not for ever.
* `Walk.Turn.filesBelow`, `Walk.Calls.answers_eq`: what a turn keeps, and what all calls answer.
* `Walk.FileNames`, `Walk.exists_fileNames`: the names of the files from a node on, and their order.
* `Walk.calls_hand_out`: what a walk hands out.
-/

namespace ClassSheet

/-! ## Names in a tree -/

theorem Node.WellFormed.isName_of_mem {node : Node} {names : Address} (h : node.WellFormed)
    (hat : (node.at? names).isSome) : ∀ name ∈ names, IsName name := by
  induction names generalizing node with
  | nil => exact nofun
  | cons first names ih =>
    cases node with
    | file bytes => cases hat
    | link target => cases hat
    | directory entries =>
      obtain ⟨found, hfound⟩ := Option.isSome_iff_exists.mp hat
      rw [at?_directory_cons, Option.bind_eq_some_iff] at hfound
      obtain ⟨child, hchild, hfound⟩ := hfound
      obtain ⟨hname, hwf⟩ := (wellFormed_directory_iff.mp h).2 _ (mem_of_lookup hchild)
      exact List.forall_mem_cons.mpr ⟨hname, ih hwf (Option.isSome_iff_exists.mpr ⟨_, hfound⟩)⟩

namespace Disk

open Node

variable {disk : Disk} {path : Path} {names : Address}

theorem isFile_iff : disk.isFile path ↔ ∃ x bytes, disk.find? path = some (x, .file bytes) := by
  unfold isFile
  split
  · rename_i x bytes h
    exact ⟨fun _ => ⟨x, bytes, h⟩, fun _ => rfl⟩
  · rename_i hnone
    exact ⟨nofun, fun ⟨x, bytes, h⟩ => absurd h (hnone x bytes)⟩

theorem contains_of_isFile (h : disk.isFile path) : disk.contains path := by
  obtain ⟨x, bytes, hfind⟩ := isFile_iff.mp h
  rw [contains, hfind]
  rfl

theorem not_isDirectory_of_isFile (h : disk.isFile path) : ¬disk.isDirectory path := by
  obtain ⟨x, bytes, hfind⟩ := isFile_iff.mp h
  intro hdir
  obtain ⟨y, entries, hfind'⟩ := isDirectory_iff.mp hdir
  rw [hfind] at hfind'
  cases hfind'

/-- Where something is below a path, so it is at the path. -/
theorem contains_of_contains_below (hpath : path.bytes ≠ []) (hnames : ∀ name ∈ names, IsName name)
    (h : disk.contains (path.below names)) : disk.contains path := by
  induction names generalizing path with
  | nil => exact h
  | cons name names ih =>
    obtain ⟨hname, hrest⟩ := List.forall_mem_cons.mp hnames
    have hjoin := ih (Path.bytes_join_name_ne_nil hname) hrest h
    exact contains_of_isDirectory (isDirectory_of_contains_join hpath hname.2.2 hjoin)

end Disk

namespace Walk

open Node Sources

variable {disk : Disk} {path root : Path} {node : Node} {entries listed : List (Bytes × Node)}
  {pending left : List Path}

/-! ## The files from a node on -/

/-- The path of a file that a walk meets. -/
def filePath? : Step → Option Path
  | .file path _ => some path
  | .passed _ => none

/-- The paths of the files that a walk meets from a node on, given its path. -/
def filesFrom (disk : Disk) (path : Path) (node : Node) : List Path :=
  (visit disk path node).filterMap filePath?

theorem filesFrom_directory :
    filesFrom disk path (.directory entries) =
      if disk.isDirectory path then
        ((entries.map fun entry =>
          (entry.1, filesFrom disk (path.join ⟨entry.1⟩) entry.2)).mergeSort entryLe).flatMap (·.2)
      else [] :=
  filterMap_visit_directory filePath? fun _ => rfl

theorem filesFrom_leaf (hnode : ∀ entries, node ≠ .directory entries) :
    filesFrom disk path node = if disk.isFile path then [path] else [] := by
  rw [filesFrom, visit.eq_2 _ _ _ hnode]
  split
  · rename_i x bytes hfind
    rw [if_pos (Disk.isFile_iff.mpr ⟨x, bytes, hfind⟩)]
    rfl
  · rename_i hnone
    rw [if_neg fun hfile => by
      obtain ⟨x, bytes, hfind⟩ := Disk.isFile_iff.mp hfile
      exact hnone x bytes hfind]
    rfl

theorem filesBelow_eq_of_find? {x : Address} (h : disk.find? path = some (x, node)) :
    disk.filesBelow path = filesFrom disk path node := by
  rw [Disk.filesBelow, Disk.walk, h]
  rfl

theorem filesBelow_of_not_contains (h : ¬disk.contains path) : disk.filesBelow path = [] := by
  rw [Disk.filesBelow, Disk.walk]
  cases hfind : disk.find? path with
  | none => rfl
  | some found => simp [Disk.contains, hfind] at h

theorem filesBelow_of_not_isDirectory (h : ¬disk.isDirectory path) :
    disk.filesBelow path = if disk.isFile path then [path] else [] := by
  cases hfind : disk.find? path with
  | none =>
    have hcontains : ¬disk.contains path := by simp [Disk.contains, hfind]
    rw [filesBelow_of_not_contains hcontains,
      if_neg fun hfile => hcontains (Disk.contains_of_isFile hfile)]
  | some found =>
    obtain ⟨x, node⟩ := found
    rw [filesBelow_eq_of_find? hfind, filesFrom_leaf]
    rintro entries rfl
    exact h (Disk.isDirectory_iff.mpr ⟨x, entries, hfind⟩)

/-- From a node that is no link to a directory, a walk meets the files below its path. -/
theorem filesFrom_eq_filesBelow (hlies : LiesAt disk path node)
    (hlink : ∀ target, node = .link target → ¬disk.isDirectory path) :
    filesFrom disk path node = disk.filesBelow path := by
  by_cases hdir : disk.isDirectory path
  · obtain ⟨x, entries, hfind⟩ := Disk.isDirectory_iff.mp hdir
    rcases hlies x _ hfind with ⟨target, rfl⟩ | rfl
    · exact absurd hdir (hlink target rfl)
    · exact (filesBelow_eq_of_find? hfind).symm
  · rw [filesBelow_of_not_isDirectory hdir]
    by_cases hnode : ∃ entries, node = .directory entries
    · obtain ⟨entries, rfl⟩ := hnode
      rw [filesFrom_directory, if_neg hdir, if_neg]
      intro hfile
      obtain ⟨x, hfind⟩ := hlies.find?_directory (Disk.contains_of_isFile hfile)
      exact hdir (Disk.isDirectory_iff.mpr ⟨x, entries, hfind⟩)
    · exact filesFrom_leaf fun entries e => hnode ⟨entries, e⟩

/-! ## The children of a directory -/

theorem mem_children {child : Path} :
    child ∈ children disk path listed ↔
      ∃ entry ∈ listed, ¬isPassed disk path entry ∧ path.join ⟨entry.1⟩ = child := by
  simp only [children, List.mem_map, List.mem_mergeSort, List.mem_filter, Bool.not_eq_true',
    Bool.not_eq_true, and_assoc]

theorem isPassed_iff {entry : Bytes × Node} :
    isPassed disk path entry ↔
      ∃ target, entry.2 = .link target ∧ disk.isDirectory (path.join ⟨entry.1⟩) := by
  unfold isPassed
  split
  · rename_i target h
    simp [h]
  · rename_i h
    simp only [Bool.false_eq_true, false_iff]
    rintro ⟨target, hlink, -⟩
    exact h target hlink

/-- A walk meets nothing from a link to a directory on. -/
theorem filesFrom_of_isPassed {entry : Bytes × Node} (h : isPassed disk path entry) :
    filesFrom disk (path.join ⟨entry.1⟩) entry.2 = [] := by
  obtain ⟨target, hlink, hdir⟩ := isPassed_iff.mp h
  have hleaf : ∀ entries, entry.2 ≠ .directory entries := by
    rw [hlink]
    exact fun _ => nofun
  rw [filesFrom_leaf hleaf, if_neg fun hfile => Disk.not_isDirectory_of_isFile hfile hdir]

/-- The files below a directory are those below its children, in whatever order it lists them. -/
theorem filesBelow_directory {x : Address} (hentries : (Node.directory entries).WellFormed)
    (hfind : disk.find? path = some (x, .directory entries)) (hlisted : listed.Perm entries) :
    disk.filesBelow path = (children disk path listed).flatMap disk.filesBelow := by
  have hdir := Disk.isDirectory_iff.mpr ⟨x, entries, hfind⟩
  obtain ⟨hnodup, hall⟩ := wellFormed_directory_iff.mp hentries
  let kept := listed.filter fun entry => !isPassed disk path entry
  have hkept (entry : Bytes × Node) : entry ∈ kept ↔ entry ∈ entries ∧ ¬isPassed disk path entry := by
    simp [kept, hlisted.mem_iff]
  have hbelow (entry : Bytes × Node) (hentry : entry ∈ entries)
      (hpassed : ¬isPassed disk path entry) :
      filesFrom disk (path.join ⟨entry.1⟩) entry.2 = disk.filesBelow (path.join ⟨entry.1⟩) :=
    filesFrom_eq_filesBelow (.entry hfind hentries hentry) fun target hlink hdir =>
      hpassed (isPassed_iff.mpr ⟨target, hlink, hdir⟩)
  have hchildren : (children disk path listed).flatMap disk.filesBelow =
      ((kept.map fun entry =>
        (entry.1, disk.filesBelow (path.join ⟨entry.1⟩))).mergeSort entryLe).flatMap (·.2) := by
    rw [children, ← map_mergeSort_entryLe, List.flatMap_map, List.flatMap_map]
  rw [filesBelow_eq_of_find? hfind, filesFrom_directory, if_pos hdir, hchildren]
  refine flatMap_mergeSort_eq ?_ ?_ fun entry hne => ?_
  · rwa [List.map_map]
  · rw [List.map_map]
    have hnames := (hlisted.map (·.1)).nodup_iff.mpr hnodup
    exact hnames.sublist (List.filter_sublist.map _)
  · simp only [List.mem_map, hkept]
    constructor
    · rintro ⟨entry, hentry, rfl⟩
      have hpassed : ¬isPassed disk path entry := fun h => hne (filesFrom_of_isPassed h)
      exact ⟨entry, ⟨hentry, hpassed⟩, by rw [hbelow entry hentry hpassed]⟩
    · rintro ⟨entry, ⟨hentry, hpassed⟩, rfl⟩
      exact ⟨entry, hentry, by rw [hbelow entry hentry hpassed]⟩

/-! ## Turns -/

/-- One stack is left by a turn from the other one. -/
def Leaves (disk : Disk) (left pending : List Path) : Prop := ∃ answer, Turn disk pending answer left

theorem acc_append {paths : List Path}
    (hpaths : ∀ path ∈ paths, ∀ pending, Acc (Leaves disk) pending →
      Acc (Leaves disk) (path :: pending))
    (h : Acc (Leaves disk) pending) : Acc (Leaves disk) (paths ++ pending) := by
  induction paths with
  | nil => exact h
  | cons path paths ih =>
    obtain ⟨hpath, hrest⟩ := List.forall_mem_cons.mp hpaths
    exact hpath _ (ih hrest)

/-- The turns for a path come to an end if it leads to no directory but the node. -/
theorem acc_cons (hnode : node.WellFormed)
    (hdir : ∀ x entries, disk.find? path = some (x, .directory entries) →
      node = .directory entries)
    (h : Acc (Leaves disk) pending) : Acc (Leaves disk) (path :: pending) := by
  -- Links to directories are not among the children, so that each child is in the node itself.
  induction node using Node.induct generalizing path pending with
  | leaf node hleaf =>
    refine .intro _ ?_
    rintro left ⟨answer, turn⟩
    cases turn with
    | directory hfind hlisted => exact absurd (hdir _ _ hfind) (hleaf _)
    | file => exact h
    | other => exact h
  | directory entries ih =>
    refine .intro _ ?_
    rintro left ⟨answer, turn⟩
    cases turn with
    | directory hfind hlisted =>
      cases hdir _ _ hfind
      refine acc_append (fun child hchild pending hpending => ?_) h
      obtain ⟨entry, hlist, hpassed, rfl⟩ := mem_children.mp hchild
      have hentry := hlisted.mem_iff.mp hlist
      refine ih entry hentry ((wellFormed_directory_iff.mp hnode).2 entry hentry).2
        (fun y below hbelow => ?_) hpending
      rcases LiesAt.entry hfind hnode hentry y _ hbelow with ⟨target, hlink⟩ | heq
      · exact absurd (isPassed_iff.mpr
          ⟨target, hlink, Disk.isDirectory_iff.mpr ⟨y, below, hbelow⟩⟩) hpassed
      · exact heq
    | file => exact h
    | other => exact h

/-- No walk goes on for ever, even where links lead in a circle. -/
theorem wellFounded_leaves (hroot : disk.root.WellFormed) : WellFounded (Leaves disk) := by
  refine ⟨fun pending => ?_⟩
  induction pending with
  | nil =>
    refine .intro _ ?_
    rintro left ⟨answer, turn⟩
    cases turn
  | cons path pending ih =>
    cases hfind : disk.find? path with
    | none => exact acc_cons (wellFormed_file .empty) (fun x entries h => by
        rw [hfind] at h
        cases h) ih
    | some found =>
      obtain ⟨x, node⟩ := found
      refine acc_cons (hroot.at? (Disk.find?_eq_some_iff.mp hfind).2) (fun y entries h => ?_) ih
      rw [hfind] at h
      cases h
      rfl

/-- While a path is left there is a turn for it. -/
theorem exists_turn (disk : Disk) (path : Path) (pending : List Path) :
    ∃ answer left, Turn disk (path :: pending) answer left := by
  by_cases hdir : disk.isDirectory path
  · obtain ⟨x, entries, hfind⟩ := Disk.isDirectory_iff.mp hdir
    exact ⟨_, _, .directory hfind (.refl entries)⟩
  · by_cases hfile : disk.isFile path
    · exact ⟨_, _, .file hdir hfile⟩
    · exact ⟨_, _, .other hdir hfile⟩

/-- A call for the next file always has an answer. -/
theorem exists_next (hroot : disk.root.WellFormed) (pending : List Path) :
    ∃ answer left, Next disk pending answer left := by
  induction pending using (wellFounded_leaves hroot).induction with
  | _ pending ih =>
    cases pending with
    | nil => exact ⟨_, _, .finished⟩
    | cons path pending =>
      obtain ⟨answer, left, turn⟩ := exists_turn disk path pending
      cases answer with
      | some file => exact ⟨_, _, .handed turn⟩
      | none =>
        obtain ⟨answer, left', next⟩ := ih left ⟨_, turn⟩
        exact ⟨answer, left', .more turn next⟩

theorem exists_calls (hroot : disk.root.WellFormed) (root : Path) :
    ∃ piles answers, Calls disk root piles answers := by
  choose answer left hnext using exists_next hroot
  refine ⟨fun n => Nat.iterate left n [root], fun n => answer (Nat.iterate left n [root]), rfl,
    fun n => ?_⟩
  rw [Function.iterate_succ_apply']
  exact hnext _

/-! ## What the turns keep -/

/-- The file that a turn hands out is the first of those below the paths on the stack. -/
theorem Turn.filesBelow {answer : Option Path} (hroot : disk.root.WellFormed)
    (h : Turn disk pending answer left) :
    pending.flatMap disk.filesBelow = answer.toList ++ left.flatMap disk.filesBelow := by
  cases h with
  | directory hfind hlisted =>
    have hentries := hroot.at? (Disk.find?_eq_some_iff.mp hfind).2
    rw [List.flatMap_cons, List.flatMap_append, filesBelow_directory hentries hfind hlisted]
    rfl
  | file hdir hfile =>
    rw [List.flatMap_cons, filesBelow_of_not_isDirectory hdir, if_pos hfile]
    rfl
  | other hdir hfile =>
    rw [List.flatMap_cons, filesBelow_of_not_isDirectory hdir, if_neg hfile]
    rfl

theorem Next.filesBelow {answer : Option Path} (hroot : disk.root.WellFormed)
    (h : Next disk pending answer left) :
    pending.flatMap disk.filesBelow = answer.toList ++ left.flatMap disk.filesBelow := by
  induction h with
  | finished => rfl
  | handed turn => exact turn.filesBelow hroot
  | more turn rest ih => exact (turn.filesBelow hroot).trans ih

theorem Next.left_eq_nil (h : Next disk pending none left) : left = [] := by
  generalize hanswer : none = answer at h
  induction h with
  | finished => rfl
  | handed turn => cases hanswer
  | more turn rest ih => exact ih hanswer

/-- A call is answered by the first of the files below the paths on the stack, and leaves the others. -/
theorem Next.answer_eq {answer : Option Path} (hroot : disk.root.WellFormed)
    (h : Next disk pending answer left) :
    answer = (pending.flatMap disk.filesBelow).head? ∧
      left.flatMap disk.filesBelow = (pending.flatMap disk.filesBelow).tail := by
  rw [h.filesBelow hroot]
  cases answer with
  | some file => exact ⟨rfl, rfl⟩
  | none =>
    rw [h.left_eq_nil]
    exact ⟨rfl, rfl⟩

/-- After some calls the files are left that they have not handed out. -/
theorem Calls.filesBelow_piles {piles : Nat → List Path} {answers : Nat → Option Path}
    (hroot : disk.root.WellFormed) (h : Calls disk root piles answers) (n : Nat) :
    (piles n).flatMap disk.filesBelow = (disk.filesBelow root).drop n := by
  induction n with
  | zero => rw [h.start, List.flatMap_singleton, List.drop_zero]
  | succ n ih =>
    obtain ⟨-, hleft⟩ := (h.next n).answer_eq hroot
    rw [hleft, ih, List.tail_drop]

theorem Calls.answers_eq {piles : Nat → List Path} {answers : Nat → Option Path}
    (hroot : disk.root.WellFormed) (h : Calls disk root piles answers) (n : Nat) :
    answers n = (disk.filesBelow root)[n]? := by
  obtain ⟨hanswer, -⟩ := (h.next n).answer_eq hroot
  rw [hanswer, h.filesBelow_piles hroot, List.head?_drop]

/-! ## The names of the files -/

/-- Name by name, and byte by byte in each, the first names come before the second ones. -/
def Precedes (names names' : Address) : Prop := names < names'

theorem Precedes.ne {names names' : Address} (h : Precedes names names') : names ≠ names' := by
  rintro rfl
  exact List.lt_irrefl _ h

/-- The entries of a directory, sorted by the bytes of their names. -/
theorem pairwise_lt_mergeSort (hnodup : (entries.map (·.1)).Nodup) :
    (entries.mergeSort fun a b => nameLe a.1 b.1).Pairwise fun a b => a.1 < b.1 := by
  have hsorted : (entries.mergeSort fun a b => nameLe a.1 b.1).Pairwise fun a b => nameLe a.1 b.1 :=
    @List.pairwise_mergeSort _ (fun a b : Bytes × Node => nameLe a.1 b.1)
      (fun _ _ _ => nameLe_trans) (fun _ _ => nameLe_total _ _) entries
  have hnames : ((entries.mergeSort fun a b => nameLe a.1 b.1).map (·.1)).Nodup :=
    ((List.mergeSort_perm entries _).map _).nodup_iff.mpr hnodup
  exact (hsorted.and (List.pairwise_map.mp hnames)).imp fun h => lt_of_nameLe h.1 h.2

/-- Under the names, one below the other, lie the files that a walk meets from a node on. It meets each
once and in the order of the names. -/
structure FileNames (disk : Disk) (path : Path) (node : Node) (nss : List Address) : Prop where
  files : filesFrom disk path node = nss.map path.below
  order : nss.Pairwise Precedes
  mem : ∀ names, names ∈ nss ↔ (node.at? names).isSome ∧ disk.isFile (path.below names)

theorem FileNames.leaf (hnode : ∀ entries, node ≠ .directory entries) :
    FileNames disk path node (if disk.isFile path then [[]] else []) := by
  have hat (name : Bytes) (names : Address) : node.at? (name :: names) = none := by
    cases node with
    | file bytes => rfl
    | link target => rfl
    | directory entries => exact absurd rfl (hnode entries)
  refine ⟨?_, ?_, fun names => ?_⟩
  · rw [filesFrom_leaf hnode]
    split <;> rfl
  · split
    · exact List.pairwise_singleton _ _
    · exact .nil
  · cases names with
    | nil => simp
    | cons name names => simp [hat]

/-- The names of the files in a directory are those in its entries, behind the names of the entries. -/
theorem FileNames.directory {nss : Bytes × Node → List Address}
    (hnodup : (entries.map (·.1)).Nodup) (hdir : disk.isDirectory path)
    (h : ∀ entry ∈ entries, FileNames disk (path.join ⟨entry.1⟩) entry.2 (nss entry)) :
    FileNames disk path (.directory entries)
      ((entries.mergeSort fun a b => nameLe a.1 b.1).flatMap fun entry =>
        (nss entry).map (entry.1 :: ·)) := by
  have hsorted (entry : Bytes × Node) :
      (entry ∈ entries.mergeSort fun a b => nameLe a.1 b.1) ↔ entry ∈ entries := List.mem_mergeSort
  refine ⟨?_, ?_, fun names => ?_⟩
  · rw [filesFrom_directory, if_pos hdir, ← map_mergeSort_entryLe, List.flatMap_map, List.map_flatMap]
    refine List.flatMap_congr fun entry hentry => ?_
    rw [List.map_map]
    exact (h entry ((hsorted entry).mp hentry)).files
  · refine List.pairwise_flatMap.mpr ⟨fun entry hentry => ?_, ?_⟩
    · refine List.pairwise_map.mpr ((h entry ((hsorted entry).mp hentry)).order.imp ?_)
      exact fun h => List.cons_lt_cons_iff.mpr (.inr ⟨rfl, h⟩)
    · refine (pairwise_lt_mergeSort hnodup).imp fun hlt names hnames names' hnames' => ?_
      obtain ⟨rest, -, rfl⟩ := List.mem_map.mp hnames
      obtain ⟨rest', -, rfl⟩ := List.mem_map.mp hnames'
      exact List.cons_lt_cons_iff.mpr (.inl hlt)
  · cases names with
    | nil =>
      have hnot : ¬disk.isFile path := fun hfile => Disk.not_isDirectory_of_isFile hfile hdir
      simp [hnot]
    | cons name names =>
      simp only [List.mem_flatMap, List.mem_map, hsorted, List.cons.injEq, at?_directory_cons]
      constructor
      · rintro ⟨⟨listed, child⟩, hentry, rest, hrest, rfl, rfl⟩
        rw [lookup_of_mem hnodup hentry]
        exact ((h _ hentry).mem rest).mp hrest
      · rintro ⟨hat, hfile⟩
        cases hlookup : entries.lookup name with
        | none => simp [hlookup] at hat
        | some child =>
          rw [hlookup] at hat
          have hentry := mem_of_lookup hlookup
          exact ⟨_, hentry, names, ((h _ hentry).mem names).mpr ⟨hat, hfile⟩, rfl, rfl⟩

/-- A path that leads nowhere is above no file, though there is a directory. -/
theorem FileNames.absent (hnode : (Node.directory entries).WellFormed) (hpath : path.bytes ≠ [])
    (hcontains : ¬disk.contains path) : FileNames disk path (.directory entries) [] := by
  have hdir : ¬disk.isDirectory path := fun h => hcontains (Disk.contains_of_isDirectory h)
  refine ⟨by rw [filesFrom_directory, if_neg hdir]; rfl, .nil, fun names => ?_⟩
  simp only [List.not_mem_nil, false_iff, not_and]
  intro hat hfile
  exact hcontains (Disk.contains_of_contains_below hpath (hnode.isName_of_mem hat)
    (Disk.contains_of_isFile hfile))

theorem exists_fileNames (hnode : node.WellFormed) (hlies : LiesAt disk path node)
    (hpath : path.bytes ≠ []) : ∃ nss, FileNames disk path node nss := by
  induction node using Node.induct generalizing path with
  | leaf node hleaf => exact ⟨_, .leaf hleaf⟩
  | directory entries ih =>
    obtain ⟨hnodup, hall⟩ := wellFormed_directory_iff.mp hnode
    by_cases hcontains : disk.contains path
    · obtain ⟨x, hfind⟩ := hlies.find?_directory hcontains
      have hbelow (entry : Bytes × Node) (hentry : entry ∈ entries) :
          ∃ nss, FileNames disk (path.join ⟨entry.1⟩) entry.2 nss :=
        ih entry hentry (hall entry hentry).2 (.entry hfind hnode hentry)
          (Path.bytes_join_name_ne_nil (hall entry hentry).1)
      choose! nss hnss using hbelow
      exact ⟨_, .directory hnodup (Disk.isDirectory_iff.mpr ⟨x, entries, hfind⟩) hnss⟩
    · exact ⟨[], .absent hnode hpath hcontains⟩

/-! ## Whole walks -/

/-- Something lies under the names, one below the other, in what the path leads to. On the way from
there no link is followed. -/
def Reaches (disk : Disk) (root : Path) (names : Address) : Prop :=
  ∃ x node, disk.find? root = some (x, node) ∧ (node.at? names).isSome

theorem exists_names_below (hroot : disk.root.WellFormed) (root : Path) :
    ∃ nss : List Address, disk.filesBelow root = nss.map root.below ∧ nss.Pairwise Precedes ∧
      ∀ names, names ∈ nss ↔ Reaches disk root names ∧ disk.isFile (root.below names) := by
  cases hfind : disk.find? root with
  | none =>
    have hcontains : ¬disk.contains root := by simp [Disk.contains, hfind]
    refine ⟨[], filesBelow_of_not_contains hcontains, .nil, fun names => ?_⟩
    simp [Reaches, hfind]
  | some found =>
    obtain ⟨x, node⟩ := found
    rw [filesBelow_eq_of_find? hfind]
    obtain ⟨nss, hfiles, horder, hmem⟩ := exists_fileNames
      (hroot.at? (Disk.find?_eq_some_iff.mp hfind).2) (.of_find? hfind)
      (Disk.bytes_ne_nil_of_find? hfind)
    refine ⟨nss, hfiles, horder, fun names => ?_⟩
    rw [hmem]
    simp [Reaches, hfind]

theorem Reaches.isName {names : Address} (hroot : disk.root.WellFormed)
    (h : Reaches disk root names) : ∀ name ∈ names, IsName name := by
  obtain ⟨x, node, hfind, hat⟩ := h
  exact (hroot.at? (Disk.find?_eq_some_iff.mp hfind).2).isName_of_mem hat

/-- On every disk, a walk from any path makes finitely many turns before it hands out the next file or
ends. Whatever the order in which directories list their entries, the calls for the next file are
answered by the same files, one after the other, and then by none. These are the files that are reached
from the path with no link to a directory on the way, each once, ordered by the bytes of their names,
name by name. A path that leads to a file is that file alone, and below a path that leads nowhere there
is none. -/
theorem calls_hand_out (disk : Disk) (hroot : disk.root.WellFormed) (root : Path) :
    (WellFounded (Leaves disk) ∧ (∀ pending, ∃ answer left, Next disk pending answer left) ∧
      ∃ piles answers, Calls disk root piles answers) ∧
    ∃ nss : List Address,
      (∀ piles answers, Calls disk root piles answers →
        ∀ n, answers n = (nss.map root.below)[n]?) ∧
      disk.filesBelow root = nss.map root.below ∧
      (∀ names, names ∈ nss ↔ Reaches disk root names ∧ disk.isFile (root.below names)) ∧
      nss.Pairwise Precedes ∧ (nss.map root.below).Nodup ∧
      (disk.isFile root → nss = [[]]) ∧ (¬disk.contains root → nss = []) := by
  obtain ⟨nss, hfiles, horder, hmem⟩ := exists_names_below hroot root
  refine ⟨⟨wellFounded_leaves hroot, exists_next hroot, exists_calls hroot root⟩, nss,
    fun piles answers hcalls n => ?_, hfiles, hmem, horder, ?_, fun hfile => ?_,
    fun hcontains => ?_⟩
  · rw [hcalls.answers_eq hroot, hfiles]
  · refine List.pairwise_map.mpr (horder.imp_of_mem fun {names names'} hnames hnames' hlt heq => ?_)
    exact hlt.ne (Path.below_injective (((hmem names).mp hnames).1.isName hroot)
      (((hmem names').mp hnames').1.isName hroot) heq)
  · rw [filesBelow_of_not_isDirectory (Disk.not_isDirectory_of_isFile hfile), if_pos hfile] at hfiles
    obtain ⟨names, rfl, hnames⟩ := List.map_eq_singleton_iff.mp hfiles.symm
    obtain ⟨x, bytes, hfind⟩ := Disk.isFile_iff.mp hfile
    have hnil : [] ∈ [names] := (hmem []).mpr ⟨⟨x, _, hfind, by simp⟩, hfile⟩
    rw [List.mem_singleton.mp hnil]
  · rw [filesBelow_of_not_contains hcontains] at hfiles
    exact List.map_eq_nil_iff.mp hfiles.symm

/-- The files below a directory whose entries are listed backwards, given what it hands on. -/
theorem filesBelow_of_sorted {x : Address} {paths : List Path} (hroot : disk.root.WellFormed)
    (hfind : disk.find? path = some (x, .directory entries))
    (hsorted : entries.reverse.Pairwise fun a b => nameLe a.1 b.1)
    (hpaths : (entries.reverse.filter fun entry => !isPassed disk path entry).map
      (fun entry => path.join ⟨entry.1⟩) = paths) :
    disk.filesBelow path = paths.flatMap disk.filesBelow := by
  have hentries := hroot.at? (Disk.find?_eq_some_iff.mp hfind).2
  rw [filesBelow_directory hentries hfind (List.reverse_perm entries), children,
    List.mergeSort_of_pairwise (hsorted.filter _), hpaths]

/-- A directory with links to a file, to directories around it, to nothing and to themselves. Its
entries are listed backwards. -/
def linked : Disk where
  root := .directory
    [("src".toList, .directory
      [("turn".toList, .link ⟨"turn".toList⟩),
       ("loop".toList, .link ⟨"../src".toList⟩),
       ("gone".toList, .link ⟨"nowhere".toList⟩),
       ("d.tsx".toList, .link ⟨"c.tsx".toList⟩),
       ("c.tsx".toList, .file .empty),
       ("a-b".toList, .directory [("x".toList, .file .empty)]),
       ("a".toList, .directory [("z".toList, .file .empty), ("up".toList, .link ⟨"..".toList⟩)])]),
     ("entry".toList, .link ⟨"src".toList⟩)]
  current := []

theorem linked_wellFormed : linked.root.WellFormed := by decide

theorem filesBelow_linked :
    linked.filesBelow ⟨"entry".toList⟩ =
      [⟨"entry/a/z".toList⟩, ⟨"entry/a-b/x".toList⟩, ⟨"entry/c.tsx".toList⟩,
        ⟨"entry/d.tsx".toList⟩] := by
  have hfile (path : Path) (hdir : ¬linked.isDirectory path) (h : linked.isFile path) :
      linked.filesBelow path = [path] := (filesBelow_of_not_isDirectory hdir).trans (if_pos h)
  have hnothing (path : Path) (h : ¬linked.contains path) : linked.filesBelow path = [] :=
    filesBelow_of_not_contains h
  have ha : linked.filesBelow ⟨"entry/a".toList⟩ = [⟨"entry/a/z".toList⟩] := by
    have hfind : linked.find? ⟨"entry/a".toList⟩ = some ((["src".toList, "a".toList] : Address), _) :=
      Disk.find?_eq_some_iff.mpr ⟨by decide +kernel, rfl⟩
    have hchildren : linked.filesBelow ⟨"entry/a".toList⟩ =
        [⟨"entry/a/z".toList⟩].flatMap linked.filesBelow :=
      filesBelow_of_sorted linked_wellFormed hfind (by decide +kernel) (by decide +kernel)
    rw [hchildren, List.flatMap_singleton, hfile _ (by decide +kernel) (by decide +kernel)]
  have hab : linked.filesBelow ⟨"entry/a-b".toList⟩ = [⟨"entry/a-b/x".toList⟩] := by
    have hfind : linked.find? ⟨"entry/a-b".toList⟩ =
        some ((["src".toList, "a-b".toList] : Address), _) :=
      Disk.find?_eq_some_iff.mpr ⟨by decide +kernel, rfl⟩
    have hchildren : linked.filesBelow ⟨"entry/a-b".toList⟩ =
        [⟨"entry/a-b/x".toList⟩].flatMap linked.filesBelow :=
      filesBelow_of_sorted linked_wellFormed hfind (by decide +kernel) (by decide +kernel)
    rw [hchildren, List.flatMap_singleton, hfile _ (by decide +kernel) (by decide +kernel)]
  have hfind : linked.find? ⟨"entry".toList⟩ = some ((["src".toList] : Address), _) :=
    Disk.find?_eq_some_iff.mpr ⟨by decide +kernel, rfl⟩
  have hchildren : linked.filesBelow ⟨"entry".toList⟩ =
      [⟨"entry/a".toList⟩, ⟨"entry/a-b".toList⟩, ⟨"entry/c.tsx".toList⟩, ⟨"entry/d.tsx".toList⟩,
        ⟨"entry/gone".toList⟩, ⟨"entry/turn".toList⟩].flatMap linked.filesBelow :=
    filesBelow_of_sorted linked_wellFormed hfind (by decide +kernel) (by decide +kernel)
  rw [hchildren]
  simp only [List.flatMap_cons, List.flatMap_nil]
  rw [ha, hab, hfile ⟨"entry/c.tsx".toList⟩ (by decide +kernel) (by decide +kernel),
    hfile ⟨"entry/d.tsx".toList⟩ (by decide +kernel) (by decide +kernel),
    hnothing ⟨"entry/gone".toList⟩ (by decide +kernel),
    hnothing ⟨"entry/turn".toList⟩ (by decide +kernel)]
  rfl

/-- The link from which the walk starts is followed, and `a/z` comes before `a-b/x`. -/
theorem calls_hand_out_linked :
    linked.root.WellFormed ∧
      ∀ piles answers, Calls linked ⟨"entry".toList⟩ piles answers →
        (List.range 5).map answers =
          [some ⟨"entry/a/z".toList⟩, some ⟨"entry/a-b/x".toList⟩, some ⟨"entry/c.tsx".toList⟩,
            some ⟨"entry/d.tsx".toList⟩, none] := by
  obtain ⟨-, nss, hanswers, hfiles, -⟩ := calls_hand_out linked linked_wellFormed ⟨"entry".toList⟩
  refine ⟨linked_wellFormed, fun piles answers hcalls => ?_⟩
  have hanswer : answers = fun n => (linked.filesBelow ⟨"entry".toList⟩)[n]? := by
    funext n
    rw [hfiles]
    exact hanswers piles answers hcalls n
  rw [hanswer, filesBelow_linked]
  rfl

end Walk

end ClassSheet
