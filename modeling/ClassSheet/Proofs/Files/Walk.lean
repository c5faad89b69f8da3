import ClassSheet.Proofs.Files.Write
import ClassSheet.Proofs.Sources

/-!
# The files that a walk selects

* `Sources.selectedFrom`: the files with an extension among the steps of a walk.
* `Walk.filterMap_visit_directory`: what is kept of the steps from a directory.
* `Walk.flatMap_mergeSort_eq`: entries without files do not matter for what a walk selects.
* `Sources.contains_of_mem_selectedFrom`: whatever a walk selects is below the path it starts from.
* `Sources.selectedFrom_directory_eq`: two directories of which the same is selected.
* `Sources.selected_eq_iff`: on a disk that extends another one the same files are selected iff all
  that are selected there had the same content before.
-/

namespace ClassSheet

/-- Trees by induction, with the property for all entries of a directory. -/
@[elab_as_elim]
theorem Node.induct {motive : Node → Prop}
    (leaf : ∀ node : Node, (∀ entries, node ≠ .directory entries) → motive node)
    (directory : ∀ entries, (∀ entry ∈ entries, motive entry.2) → motive (.directory entries))
    (node : Node) : motive node :=
  @Node.rec motive (fun entries => ∀ entry ∈ entries, motive entry.2) (fun entry => motive entry.2)
    (fun bytes => leaf (.file bytes) nofun) directory (fun target => leaf (.link target) nofun) nofun
    (fun _ _ hentry hentries => List.forall_mem_cons.mpr ⟨hentry, hentries⟩) (fun _ _ h => h) node

namespace Walk

/-! ## The order of a walk -/

theorem nameLe_trans {a b c : Bytes} (h : nameLe a b) (h' : nameLe b c) : nameLe a c :=
  Std.TransCmp.isLE_trans h h'

theorem nameLe_total (a b : Bytes) : nameLe a b || nameLe b a := by
  have hswap : compare b a = (compare a b).swap := Std.OrientedCmp.eq_swap
  rw [nameLe, nameLe, hswap]
  cases compare a b <;> rfl

theorem nameLe_antisymm {a b : Bytes} (h : nameLe a b) (h' : nameLe b a) : a = b :=
  Std.LawfulEqCmp.eq_of_compare (Std.OrientedCmp.isLE_antisymm h h')

theorem lt_of_nameLe {a b : Bytes} (h : nameLe a b) (hne : a ≠ b) : a < b := by
  rw [nameLe, List.compare_eq_compareLex] at h
  induction a generalizing b with
  | nil =>
    cases b with
    | nil => exact absurd rfl hne
    | cons y b => exact List.nil_lt_cons y b
  | cons x a ih =>
    cases b with
    | nil =>
      rw [List.compareLex_cons_nil] at h
      cases h
    | cons y b =>
      rw [List.compareLex_cons_cons] at h
      rw [List.cons_lt_cons_iff]
      rcases hcompare : compare x y with _ | _ | _
      · exact .inl (compareOfLessAndEq_eq_lt.mp hcompare)
      · obtain rfl : x = y := Std.LawfulEqCmp.eq_of_compare hcompare
        rw [hcompare] at h
        exact .inr ⟨rfl, ih h fun e => hne (by rw [e])⟩
      · rw [hcompare] at h
        cases h

variable {α : Type} {l l' : List (Bytes × List α)}

theorem flatMap_filter_ne_nil (l : List (Bytes × List α)) :
    (l.filter fun entry => !entry.2.isEmpty).flatMap (·.2) = l.flatMap (·.2) := by
  induction l with
  | nil => rfl
  | cons entry l ih =>
    rw [List.flatMap_cons, ← ih]
    cases hentry : entry.2 with
    | nil => simp [hentry]
    | cons a rest => simp [hentry]

/-- Entries in the order of their names. -/
abbrev entryLe {β : Type} (a b : Bytes × β) : Bool := nameLe a.1 b.1

/-- In the order of their names, two lists with distinct names come to the same if they have the
same entries except for empty ones. -/
theorem flatMap_mergeSort_eq (hl : (l.map (·.1)).Nodup) (hl' : (l'.map (·.1)).Nodup)
    (h : ∀ entry, entry.2 ≠ [] → (entry ∈ l ↔ entry ∈ l')) :
    (l.mergeSort entryLe).flatMap (·.2) = (l'.mergeSort entryLe).flatMap (·.2) := by
  rw [← flatMap_filter_ne_nil, ← flatMap_filter_ne_nil (l'.mergeSort _)]
  have hsorted (l : List (Bytes × List α)) : (l.mergeSort entryLe).Pairwise fun a b => entryLe a b :=
    @List.pairwise_mergeSort _ entryLe (fun _ _ _ => nameLe_trans) (fun _ _ => nameLe_total _ _) l
  have hmem (l : List (Bytes × List α)) (entry : Bytes × List α) :
      (entry ∈ (l.mergeSort entryLe).filter fun entry => !entry.2.isEmpty) ↔
        entry ∈ l ∧ entry.2 ≠ [] := by
    simp [List.mem_mergeSort]
  have hnodup (l : List (Bytes × List α)) (hl : (l.map (·.1)).Nodup) :
      ((l.mergeSort entryLe).filter fun entry => !entry.2.isEmpty).Nodup :=
    ((List.mergeSort_perm l _).nodup_iff.mpr hl.of_map).filter _
  have hsame (entry : Bytes × List α) : entry ∈ l ∧ entry.2 ≠ [] ↔ entry ∈ l' ∧ entry.2 ≠ [] :=
    and_congr_left (h entry)
  congr 1
  refine List.Perm.eq_of_pairwise (fun a b ha hb hab hba => ?_)
    ((hsorted l).filter _) ((hsorted l').filter _) ?_
  · rw [hmem] at ha
    rw [hmem, ← hsame] at hb
    exact List.inj_on_of_nodup_map hl ha.1 hb.1 (nameLe_antisymm hab hba)
  · refine (List.perm_ext_iff_of_nodup (hnodup l hl) (hnodup l' hl')).mpr fun entry => ?_
    rw [hmem, hmem, hsame]

/-- What becomes of the entries does not matter for their order. -/
theorem map_mergeSort_entryLe {β γ : Type} (f : Bytes × β → γ) (l : List (Bytes × β)) :
    (l.mergeSort entryLe).map (fun entry => (entry.1, f entry)) =
      (l.map fun entry => (entry.1, f entry)).mergeSort entryLe :=
  List.map_mergeSort fun _ _ _ _ => rfl

/-! ## The steps from a directory -/

theorem visitEntries_eq_map (disk : Disk) (path : Path) (entries : List (Bytes × Node)) :
    visitEntries disk path entries =
      entries.map fun entry => (entry.1, visit disk (path.join ⟨entry.1⟩) entry.2) := by
  induction entries with
  | nil => rw [visitEntries, List.map_nil]
  | cons entry entries ih => rw [visitEntries, ih, List.map_cons]

/-- What is kept of the steps from a directory, if nothing is kept of the links that are passed. -/
theorem filterMap_visit_directory {β : Type} {disk : Disk} {path : Path}
    {entries : List (Bytes × Node)} (f : Step → Option β) (hf : ∀ path, f (.passed path) = none) :
    (visit disk path (.directory entries)).filterMap f =
      if disk.isDirectory path then
        ((entries.map fun entry =>
          (entry.1, (visit disk (path.join ⟨entry.1⟩) entry.2).filterMap f)).mergeSort
            entryLe).flatMap (·.2)
      else [] := by
  have hpassed : (passedLinks disk path entries).filterMap f = [] := by
    refine List.filterMap_eq_nil_iff.mpr fun step hstep => ?_
    obtain ⟨entry, -, hentry⟩ := List.mem_filterMap.mp hstep
    split at hentry
    · dsimp only at hentry
      split at hentry
      · cases hentry
        exact hf _
      · cases hentry
    · cases hentry
  rw [visit]
  split
  · rw [List.filterMap_append, hpassed, List.nil_append, visitEntries_eq_map,
      List.filterMap_flatMap]
    have hmap := map_mergeSort_entryLe (fun entry => entry.2.filterMap f)
      (entries.map fun entry => (entry.1, visit disk (path.join ⟨entry.1⟩) entry.2))
    rw [List.map_map] at hmap
    have hkept : (fun entry : Bytes × Node =>
        (entry.1, (visit disk (path.join ⟨entry.1⟩) entry.2).filterMap f)) =
      (fun entry => (entry.1, entry.2.filterMap f)) ∘
        fun entry => (entry.1, visit disk (path.join ⟨entry.1⟩) entry.2) := rfl
    rw [hkept, ← hmap, List.flatMap_map]
  · rfl

end Walk

namespace Sources

open Node

variable {disk disk' : Disk} {extension : Text} {path : Path} {node node' : Node}
  {entries : List (Bytes × Node)} {file : Path × ByteArray}

/-- The files with the extension that a walk meets from a node on, given its path. -/
def selectedFrom (disk : Disk) (extension : Text) (path : Path) (node : Node) :
    List (Path × ByteArray) :=
  (Walk.visit disk path node).filterMap (selectedFile? extension)

theorem selectedFrom_directory :
    selectedFrom disk extension path (.directory entries) =
      if disk.isDirectory path then
        ((entries.map fun entry =>
          (entry.1, selectedFrom disk extension (path.join ⟨entry.1⟩) entry.2)).mergeSort
            Walk.entryLe).flatMap (·.2)
      else [] :=
  Walk.filterMap_visit_directory (selectedFile? extension) fun _ => rfl

/-- A file and a link to one are met as the file that their path leads to. -/
theorem selectedFrom_leaf (hnode : ∀ entries, node ≠ .directory entries) :
    selectedFrom disk extension path node =
      match disk.readBytes path with
      | .ok bytes => if path.hasExtension extension then [(path, bytes)] else []
      | .error _ => [] := by
  rw [selectedFrom, Walk.visit.eq_2 _ _ _ hnode]
  cases hread : disk.readBytes path with
  | ok bytes =>
    obtain ⟨x, hfind⟩ := Disk.readBytes_eq_ok_iff.mp hread
    rw [hfind]
    by_cases hextension : path.hasExtension extension <;> simp [selectedFile?, hextension]
  | error e =>
    split
    · rename_i x bytes hfind
      rw [Disk.readBytes_eq_ok_iff.mpr ⟨x, hfind⟩] at hread
      cases hread
    · rfl

theorem mem_selectedFrom_directory :
    file ∈ selectedFrom disk extension path (.directory entries) ↔
      disk.isDirectory path ∧ ∃ entry ∈ entries,
        file ∈ selectedFrom disk extension (path.join ⟨entry.1⟩) entry.2 := by
  rw [selectedFrom_directory]
  by_cases hdir : disk.isDirectory path
  · simp only [hdir, if_true, true_and, List.mem_flatMap, List.mem_mergeSort, List.mem_map]
    constructor
    · rintro ⟨_, ⟨entry, hentry, rfl⟩, hfile⟩
      exact ⟨entry, hentry, hfile⟩
    · rintro ⟨entry, hentry, hfile⟩
      exact ⟨_, ⟨entry, hentry, rfl⟩, hfile⟩
  · simp [hdir]

theorem mem_selectedFrom_leaf (hnode : ∀ entries, node ≠ .directory entries) :
    file ∈ selectedFrom disk extension path node ↔
      file.1 = path ∧ path.hasExtension extension ∧ disk.readBytes path = .ok file.2 := by
  rw [selectedFrom_leaf hnode]
  obtain ⟨q, bytes⟩ := file
  cases disk.readBytes path with
  | error e => simp
  | ok bytes' =>
    by_cases hextension : path.hasExtension extension <;> simp [hextension, eq_comm]

theorem selectedFrom_leaf_of_not_hasExtension (hnode : ∀ entries, node ≠ .directory entries)
    (h : ¬path.hasExtension extension) : selectedFrom disk extension path node = [] :=
  List.eq_nil_iff_forall_not_mem.mpr fun _ hfile => h ((mem_selectedFrom_leaf hnode).mp hfile).2.1

/-- A selected file holds what its path leads to. -/
theorem readBytes_of_mem_selectedFrom (hfile : file ∈ selectedFrom disk extension path node) :
    disk.readBytes file.1 = .ok file.2 := by
  induction node using Node.induct generalizing path with
  | leaf node hleaf =>
    obtain ⟨rfl, -, hread⟩ := (mem_selectedFrom_leaf hleaf).mp hfile
    exact hread
  | directory entries ih =>
    obtain ⟨-, entry, hentry, hfile⟩ := mem_selectedFrom_directory.mp hfile
    exact ih entry hentry hfile

/-! ## What is selected on a disk that extends another one -/

/-- If what a walk selects on one disk is there on another one, so is the start of the walk. -/
theorem contains_of_mem_selectedFrom (hnode : node.WellFormed)
    (hfile : file ∈ selectedFrom disk' extension path node) (h : disk.contains file.1) :
    disk.contains path := by
  induction node using Node.induct generalizing path with
  | leaf node hleaf =>
    obtain ⟨rfl, -⟩ := (mem_selectedFrom_leaf hleaf).mp hfile
    exact h
  | directory entries ih =>
    obtain ⟨hdir, entry, hentry, hfile⟩ := mem_selectedFrom_directory.mp hfile
    obtain ⟨hname, hchild⟩ := (wellFormed_directory_iff.mp hnode).2 entry hentry
    obtain ⟨x, listed, hfind'⟩ := Disk.isDirectory_iff.mp hdir
    exact Disk.contains_of_isDirectory (Disk.isDirectory_of_contains_join
      (Disk.bytes_ne_nil_of_find? hfind') hname.2.2 (ih entry hentry hchild hfile))

/-- Where nothing was, nothing is selected that was there before. -/
theorem selectedFrom_eq_nil (hnode : node.WellFormed) (hpath : ¬disk.contains path)
    (hfiles : ∀ file ∈ selectedFrom disk' extension path node,
      disk.readBytes file.1 = .ok file.2) : selectedFrom disk' extension path node = [] :=
  List.eq_nil_iff_forall_not_mem.mpr fun file hfile => hpath
    (contains_of_mem_selectedFrom hnode hfile (Disk.contains_of_readBytes (hfiles file hfile)))

/-- The node is what the path leads to, if anything; the path may go on from it if it is a link. -/
def LiesAt (disk : Disk) (path : Path) (node : Node) : Prop :=
  ∀ x found, disk.find? path = some (x, found) → (∃ target, node = .link target) ∨ node = found

theorem LiesAt.of_find? {x : Address} (h : disk.find? path = some (x, node)) :
    LiesAt disk path node := by
  intro y found hfound
  rw [h] at hfound
  cases hfound
  exact .inr rfl

theorem LiesAt.find?_directory (h : LiesAt disk path (.directory entries))
    (hpath : disk.contains path) : ∃ x, disk.find? path = some (x, .directory entries) := by
  obtain ⟨⟨x, found⟩, hfind⟩ := Option.isSome_iff_exists.mp hpath
  obtain rfl := (h x found hfind).resolve_left nofun
  exact ⟨x, hfind⟩

theorem LiesAt.entry {entry : Bytes × Node} {x : Address}
    (hfind : disk.find? path = some (x, .directory entries))
    (hentries : (Node.directory entries).WellFormed) (hentry : entry ∈ entries) :
    LiesAt disk (path.join ⟨entry.1⟩) entry.2 := by
  intro y found hfound
  obtain ⟨hnodup, hall⟩ := wellFormed_directory_iff.mp hentries
  obtain ⟨child, hchild, hor⟩ := Disk.find?_join hfind (hall entry hentry).1 hfound
  rw [lookup_of_mem hnodup hentry, Option.some.injEq] at hchild
  exact hchild ▸ hor

theorem selectedFrom_leaf_eq (hextends : disk.Extends disk')
    (hnode : ∀ entries, node ≠ .directory entries) (hnode' : ∀ entries, node' ≠ .directory entries)
    (hfiles : ∀ file ∈ selectedFrom disk' extension path node',
      disk.readBytes file.1 = .ok file.2) :
    selectedFrom disk extension path node = selectedFrom disk' extension path node' := by
  by_cases hextension : path.hasExtension extension
  · rw [selectedFrom_leaf hnode, selectedFrom_leaf hnode']
    cases hread' : disk'.readBytes path with
    | ok bytes =>
      rw [hfiles (path, bytes) ((mem_selectedFrom_leaf hnode').mpr ⟨rfl, hextension, hread'⟩)]
    | error e =>
      cases hread : disk.readBytes path with
      | error e => rfl
      | ok bytes =>
        obtain ⟨bytes', h⟩ := hextends.exists_readBytes hread
        rw [hread'] at h
        cases h
  · rw [selectedFrom_leaf_of_not_hasExtension hnode hextension,
      selectedFrom_leaf_of_not_hasExtension hnode' hextension]

/-- Of two directories the same is selected if that is so below the names that both have, and nothing
is below the names that only the second one has. -/
theorem selectedFrom_directory_eq {entries' : List (Bytes × Node)} (hdir : disk.isDirectory path)
    (hdir' : disk'.isDirectory path) (hnodup : (entries.map (·.1)).Nodup)
    (hnodup' : (entries'.map (·.1)).Nodup)
    (hboth : ∀ name child, entries.lookup name = some child →
      ∃ child', entries'.lookup name = some child' ∧
        selectedFrom disk extension (path.join ⟨name⟩) child =
          selectedFrom disk' extension (path.join ⟨name⟩) child')
    (hnew : ∀ name child', entries'.lookup name = some child' →
      selectedFrom disk' extension (path.join ⟨name⟩) child' ≠ [] →
        ∃ child, entries.lookup name = some child) :
    selectedFrom disk extension path (.directory entries) =
      selectedFrom disk' extension path (.directory entries') := by
  rw [selectedFrom_directory, selectedFrom_directory, if_pos hdir, if_pos hdir']
  refine Walk.flatMap_mergeSort_eq ?_ ?_ fun entry hne => ?_
  · rwa [List.map_map]
  · rwa [List.map_map]
  · simp only [List.mem_map]
    constructor
    · rintro ⟨⟨name, child⟩, hchild, rfl⟩
      obtain ⟨child', hlookup', heq⟩ := hboth name child (lookup_of_mem hnodup hchild)
      exact ⟨(name, child'), mem_of_lookup hlookup', by rw [heq]⟩
    · rintro ⟨⟨name, child'⟩, hchild', rfl⟩
      have hlookup' := lookup_of_mem hnodup' hchild'
      obtain ⟨child, hlookup⟩ := hnew name child' hlookup' hne
      obtain ⟨other, hother, heq⟩ := hboth name child hlookup
      rw [hlookup', Option.some.injEq] at hother
      subst hother
      exact ⟨(name, child), mem_of_lookup hlookup, by rw [heq]⟩

/-- If everything that is selected on the larger disk had the same content on the smaller one, then
the same files are selected there. -/
theorem selectedFrom_eq (hextends : disk.Extends disk') (hgrows : node.Grows node')
    (hnode : node.WellFormed) (hnode' : node'.WellFormed) (hlies : LiesAt disk path node)
    (hfiles : ∀ file ∈ selectedFrom disk' extension path node',
      disk.readBytes file.1 = .ok file.2) :
    selectedFrom disk extension path node = selectedFrom disk' extension path node' := by
  have hkind := hgrows.sameKind
  induction node using Node.induct generalizing node' path with
  | leaf node hleaf =>
    have hleaf' : ∀ entries, node' ≠ .directory entries := by
      rintro entries rfl
      cases hkind
      exact hleaf _ rfl
    exact selectedFrom_leaf_eq hextends hleaf hleaf' hfiles
  | directory entries ih =>
    cases hkind with | directory _ entries' =>
    by_cases hpath : disk.contains path
    · obtain ⟨x, hfind⟩ := hlies.find?_directory hpath
      have hdir := Disk.isDirectory_iff.mpr ⟨x, entries, hfind⟩
      have hdir' := hextends.isDirectory hdir
      obtain ⟨hnodup, hall⟩ := wellFormed_directory_iff.mp hnode
      obtain ⟨hnodup', hall'⟩ := wellFormed_directory_iff.mp hnode'
      have hbelow : ∀ name child', entries'.lookup name = some child' →
          ∀ file ∈ selectedFrom disk' extension (path.join ⟨name⟩) child',
            disk.readBytes file.1 = .ok file.2 := fun name child' hlookup' file hfile =>
        hfiles file (mem_selectedFrom_directory.mpr ⟨hdir', _, mem_of_lookup hlookup', hfile⟩)
      refine selectedFrom_directory_eq hdir hdir' hnodup hnodup' (fun name child hlookup => ?_)
        (fun name child' hlookup' hne => ?_)
      · obtain ⟨child', hlookup', hgrows'⟩ := hgrows.entry hlookup
        have hchild := mem_of_lookup hlookup
        exact ⟨child', hlookup', ih _ hchild hgrows' (hall _ hchild).2
          (hall' _ (mem_of_lookup hlookup')).2 (.entry hfind hnode hchild)
          (hbelow name child' hlookup') hgrows'.sameKind⟩
      · -- Something that was there is selected below this name, so the smaller directory had it.
        obtain ⟨hname, hchild'⟩ := hall' _ (mem_of_lookup hlookup')
        obtain ⟨file, hfile⟩ := List.exists_mem_of_ne_nil _ hne
        have hthere := contains_of_mem_selectedFrom hchild' hfile
          (Disk.contains_of_readBytes (hbelow name child' hlookup' file hfile))
        obtain ⟨⟨y, found⟩, hfound⟩ := Option.isSome_iff_exists.mp hthere
        obtain ⟨child, hlookup, -⟩ := Disk.find?_join hfind hname hfound
        exact ⟨child, hlookup⟩
    · have hdir : ¬disk.isDirectory path := fun h => hpath (Disk.contains_of_isDirectory h)
      rw [selectedFrom_eq_nil hnode' hpath hfiles, selectedFrom_directory, if_neg hdir]

theorem selected_eq_flatMap (disk : Disk) (extension : Text) (roots : List Path) :
    selected disk extension roots = roots.flatMap fun root =>
      (disk.walk root).filterMap (selectedFile? extension) := by
  rw [selected, List.filterMap_flatMap]

theorem readBytes_of_mem_selected {roots : List Path}
    (hfile : file ∈ selected disk extension roots) : disk.readBytes file.1 = .ok file.2 := by
  rw [selected_eq_flatMap] at hfile
  obtain ⟨root, -, hfile⟩ := List.mem_flatMap.mp hfile
  unfold Disk.walk at hfile
  split at hfile
  · exact readBytes_of_mem_selectedFrom hfile
  · cases hfile

/-- On both disks the same files are selected, with the same contents, iff everything that is
selected on the larger one had the same content on the smaller one. -/
theorem selected_eq_iff {roots : List Path} (hextends : disk.Extends disk')
    (hroot : disk.root.WellFormed) :
    selected disk extension roots = selected disk' extension roots ↔
      ∀ file ∈ selected disk' extension roots, disk.readBytes file.1 = .ok file.2 := by
  refine ⟨fun h file hfile => readBytes_of_mem_selected (h ▸ hfile), fun hfiles => ?_⟩
  rw [selected_eq_flatMap] at hfiles ⊢
  rw [selected_eq_flatMap]
  refine List.flatMap_congr fun root hmem => ?_
  have hfiles : ∀ file ∈ (disk'.walk root).filterMap (selectedFile? extension),
      disk.readBytes file.1 = .ok file.2 :=
    fun file hfile => hfiles file (List.mem_flatMap.mpr ⟨root, hmem, hfile⟩)
  have hroot' := hextends.wellFormed hroot
  unfold Disk.walk at hfiles ⊢
  cases hfind : disk.find? root with
  | some found =>
    obtain ⟨x, node⟩ := found
    obtain ⟨node', hfind', hgrows⟩ := hextends.find? hfind
    rw [hfind'] at hfiles ⊢
    exact selectedFrom_eq hextends hgrows (hroot.at? (Disk.find?_eq_some_iff.mp hfind).2)
      (hroot'.at? (Disk.find?_eq_some_iff.mp hfind').2) (.of_find? hfind) hfiles
  | none =>
    cases hfind' : disk'.find? root with
    | none => rfl
    | some found =>
      rw [hfind'] at hfiles
      have hpath : ¬disk.contains root := by simp [Disk.contains, hfind]
      exact (selectedFrom_eq_nil (hroot'.at? (Disk.find?_eq_some_iff.mp hfind').2) hpath
        hfiles).symm

end Sources

end ClassSheet
