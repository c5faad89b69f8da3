import ClassSheet.Proofs.Files.Turns

/-!
# Disks with the same directories

A file may be on one of two disks only, or hold other bytes there, while the ways that lead to files
are the same.

* `Walk.ReachesDirectory`: the directories below a path, with no link on the way.
* `Walk.ReachesDirectory.reaches_concat`: what a path leads to in such a directory lies there.
* `Disk.SameWays`: the disks have the same directories and links.
* `Disk.SameWays.find?`, `Disk.SameWays.reachesDirectory`: they lead to the same places.
* `Disk.sameWays_put_file`: so it is before and after a file is written.
-/

namespace ClassSheet

open Node

theorem Node.SameKind.symm {node node' : Node} (h : SameKind node node') : SameKind node' node := by
  cases h <;> constructor

namespace Path

variable {p : Path} {names : Address} {name : Bytes}

theorem below_concat (p : Path) (names : Address) (name : Bytes) :
    p.below (names ++ [name]) = (p.below names).join ⟨name⟩ := by
  simp [below]

theorem bytes_below_ne_nil (hp : p.bytes ≠ []) (hnames : ∀ name ∈ names, IsName name) :
    (p.below names).bytes ≠ [] := by
  rcases List.eq_nil_or_concat names with rfl | ⟨front, last, rfl⟩
  · exact hp
  · rw [List.concat_eq_append, below_concat]
    exact bytes_join_name_ne_nil (hnames last (by simp))

end Path

/-- A node below another one lies at the path of its names, if the other one lies at its own path. -/
theorem Sources.LiesAt.below {disk : Disk} {path : Path} {node found : Node} {names : Address}
    (hlies : LiesAt disk path node) (hpath : path.bytes ≠ []) (hnode : node.WellFormed)
    (hat : node.at? names = some found) : LiesAt disk (path.below names) found := by
  induction names generalizing path node with
  | nil =>
    rw [at?_nil, Option.some.injEq] at hat
    exact hat ▸ hlies
  | cons name names ih =>
    cases node with
    | file bytes => cases hat
    | link target => cases hat
    | directory entries =>
      rw [at?_directory_cons, Option.bind_eq_some_iff] at hat
      obtain ⟨child, hchild, hat⟩ := hat
      have hentry := mem_of_lookup hchild
      obtain ⟨hname, hwf⟩ := (wellFormed_directory_iff.mp hnode).2 _ hentry
      refine ih ?_ (Path.bytes_join_name_ne_nil hname) hwf hat
      by_cases hcontains : disk.contains path
      · obtain ⟨x, hfind⟩ := hlies.find?_directory hcontains
        exact .entry hfind hnode hentry
      · -- Nothing is below a path that leads nowhere.
        intro x other hother
        have hthere : disk.contains (path.join ⟨name⟩) := by simp [Disk.contains, hother]
        exact absurd (Disk.contains_of_isDirectory
          (Disk.isDirectory_of_contains_join hpath hname.2.2 hthere)) hcontains

namespace Walk

variable {disk : Disk} {root : Path} {names : Address} {name : Bytes}

/-- Under the names, one below the other, lies a directory in what the path leads to. On the way from
there no link is followed. -/
def ReachesDirectory (disk : Disk) (root : Path) (names : Address) : Prop :=
  ∃ x node entries, disk.find? root = some (x, node) ∧ node.at? names = some (.directory entries)

theorem Reaches.reachesDirectory (h : Reaches disk root (names ++ [name])) :
    ReachesDirectory disk root names := by
  obtain ⟨x, node, hfind, hat⟩ := h
  obtain ⟨found, hfound⟩ := Option.isSome_iff_exists.mp hat
  obtain ⟨entries, hentries, -⟩ := exists_of_at?_concat hfound
  exact ⟨x, node, entries, hfind, hentries⟩

/-- If the path of a name in the directory leads anywhere, the directory has an entry of that name. -/
theorem ReachesDirectory.reaches_concat (hroot : disk.root.WellFormed)
    (h : ReachesDirectory disk root names) (hname : IsName name)
    (hcontains : disk.contains (root.below (names ++ [name]))) :
    Reaches disk root (names ++ [name]) := by
  obtain ⟨x, node, entries, hfind, hentries⟩ := h
  have hnode := hroot.at? (Disk.find?_eq_some_iff.mp hfind).2
  have hne := Disk.bytes_ne_nil_of_find? hfind
  have hnames := hnode.isName_of_mem (Option.isSome_iff_exists.mpr ⟨_, hentries⟩)
  have hlies := (Sources.LiesAt.of_find? hfind).below hne hnode hentries
  rw [Path.below_concat] at hcontains
  have hdir := Disk.isDirectory_of_contains_join (Path.bytes_below_ne_nil hne hnames) hname.2.2
    hcontains
  obtain ⟨y, hy⟩ := hlies.find?_directory (Disk.contains_of_isDirectory hdir)
  obtain ⟨⟨z, found⟩, hz⟩ := Option.isSome_iff_exists.mp hcontains
  obtain ⟨child, hchild, -⟩ := Disk.find?_join hy hname hz
  refine ⟨x, node, hfind, ?_⟩
  rw [at?_concat hentries, hchild]
  rfl

end Walk

namespace Disk

variable {disk disk' : Disk} {p root : Path} {x : Address} {names : Address} {new old : Node}

/-- The disks have the same directories and links at the same addresses. A file may be on one of them
only, and it may hold other bytes. -/
structure SameWays (disk disk' : Disk) : Prop where
  current : disk'.current = disk.current
  there : disk.root.KeepsWays disk'.root
  back : disk'.root.KeepsWays disk.root

namespace SameWays

theorem symm (h : SameWays disk disk') : SameWays disk' disk := ⟨h.current.symm, h.back, h.there⟩

/-- Where a path leads on the one disk it leads on the other one, if that has a file or a directory
there. -/
theorem find? (h : SameWays disk disk') (hfind : disk.find? p = some (x, old))
    (hat : disk'.root.at? x = some new) (hlink : ∀ target, new ≠ .link target) :
    disk'.find? p = some (x, new) :=
  find?_of_keepsWays h.current h.there (find?_eq_some_iff.mp hfind).1 hat hlink

theorem reachesDirectory (h : SameWays disk disk') (hdir : Walk.ReachesDirectory disk root names) :
    Walk.ReachesDirectory disk' root names := by
  obtain ⟨x, node, entries, hfind, hentries⟩ := hdir
  have hnode := (find?_eq_some_iff.mp hfind).2
  have hat : disk.root.at? (x ++ names) = some (.directory entries) := by
    rw [at?_append, hnode, Option.bind_some, hentries]
  obtain ⟨new, hnew, hkind⟩ := h.there _ _ hat nofun
  cases hkind with | directory _ entries' =>
  obtain ⟨node', hnode', hentries'⟩ := Option.bind_eq_some_iff.mp ((at?_append _ _ _).symm.trans hnew)
  have hlink : ∀ target, node' ≠ .link target := by
    rintro target rfl
    cases names <;> cases hentries'
  exact ⟨x, node', entries', h.find? hfind hnode' hlink, hentries'⟩

end SameWays

/-- To write a file, be it over another one, keeps the directories and links. -/
theorem sameWays_put_file {bytes : ByteArray}
    (hold : ∀ old, disk.root.at? x = some old → ∃ bytes', old = .file bytes')
    (hx : (disk.put x (.file bytes)).root.at? x = some (.file bytes)) :
    disk.SameWays (disk.put x (.file bytes)) := by
  have hleaf : ∀ old, disk.root.at? x = some old →
      old.IsLeaf ∧ SameKind old (.file bytes) := by
    intro old hat
    obtain ⟨bytes', rfl⟩ := hold old hat
    exact ⟨isLeaf_file bytes', .file bytes' bytes⟩
  constructor
  · rfl
  · exact (Grows.put (isLeaf_file bytes) hleaf).keepsWays
  · exact keepsWays_of_put (fun old hat => (hleaf old hat).1) hx

end Disk

end ClassSheet
