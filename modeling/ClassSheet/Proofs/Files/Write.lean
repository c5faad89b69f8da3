import ClassSheet.Build
import ClassSheet.Proofs.Files.Locate

/-!
# What writing a file changes

* `Disk.Extends`: from one disk to the other nothing is lost but the bytes of files.
* `Disk.writeBytes_spec`: to write a file changes its bytes, or puts it in a place that was vacant.
* `Disk.makeDirectoriesWithin_spec`: directories that are made are there afterwards.
* `Build.writeText_again`: to write the same text once more changes nothing.
-/

namespace ClassSheet

namespace Disk

open Node

variable {disk disk' disk'' : Disk} {p : Path} {followLast : Bool} {x : Address} {new old : Node}
  {bytes : ByteArray}

/-- From the one disk to the other nothing is lost but the bytes of files. -/
structure Extends (disk disk' : Disk) : Prop where
  current : disk'.current = disk.current
  grows : disk.root.Grows disk'.root
  wellFormed : disk.root.WellFormed → disk'.root.WellFormed

namespace Extends

theorem refl (disk : Disk) : disk.Extends disk := ⟨rfl, .refl _, id⟩

theorem trans (h : disk.Extends disk') (h' : disk'.Extends disk'') : disk.Extends disk'' where
  current := h'.current.trans h.current
  grows := h.grows.trans h'.grows
  wellFormed := fun hroot => h'.wellFormed (h.wellFormed hroot)

/-- What a path leads to grows with the disk. -/
theorem find? (h : disk.Extends disk') (hfind : disk.find? p = some (x, old)) :
    ∃ new, disk'.find? p = some (x, new) ∧ old.Grows new := by
  obtain ⟨hlocate, hold⟩ := find?_eq_some_iff.mp hfind
  obtain ⟨new, hnew, hgrows⟩ := h.grows.at? hold
  have hlink : ∀ target, new ≠ .link target := by
    rintro target rfl
    have hkind := hgrows.sameKind
    cases hkind
    exact not_link_of_find? hfind target rfl
  exact ⟨new, find?_of_keepsWays h.current h.grows.keepsWays hlocate hnew hlink, hgrows⟩

theorem find?_directory {entries : List (Bytes × Node)} (h : disk.Extends disk')
    (hfind : disk.find? p = some (x, .directory entries)) :
    ∃ entries', disk'.find? p = some (x, .directory entries') := by
  obtain ⟨new, hnew, hgrows⟩ := h.find? hfind
  have hkind := hgrows.sameKind
  cases hkind
  exact ⟨_, hnew⟩

theorem isDirectory (h : disk.Extends disk') (hdir : disk.isDirectory p) : disk'.isDirectory p := by
  obtain ⟨x, entries, hfind⟩ := isDirectory_iff.mp hdir
  obtain ⟨entries', hfind'⟩ := h.find?_directory hfind
  exact isDirectory_iff.mpr ⟨x, entries', hfind'⟩

theorem exists_readBytes (h : disk.Extends disk') (hread : disk.readBytes p = .ok bytes) :
    ∃ bytes', disk'.readBytes p = .ok bytes' := by
  obtain ⟨x, hfind⟩ := readBytes_eq_ok_iff.mp hread
  obtain ⟨new, hnew, hgrows⟩ := h.find? hfind
  have hkind := hgrows.sameKind
  cases hkind
  exact ⟨_, readBytes_eq_ok_iff.mpr ⟨x, hnew⟩⟩

end Extends

/-! ## A new node in a vacant place -/

theorem exists_of_vacant (h : disk.locate followLast p = .ok (.vacant x)) :
    ∃ parent name entries, x = parent ++ [name] ∧ IsName name ∧
      disk.root.at? parent = some (.directory entries) ∧ disk.root.at? x = none := by
  obtain ⟨parent, name, entries, rfl, hname, hparent, hentry⟩ :=
    (locate_eq_ok_iff.mp h).2.vacant_spec fun part => Path.slash_notMem_of_mem_parts
  exact ⟨parent, name, entries, rfl, hname, hparent, (at?_concat hparent name).trans hentry⟩

theorem extends_put_of_vacant (h : disk.locate followLast p = .ok (.vacant x)) (hleaf : new.IsLeaf)
    (hnew : new.WellFormed) : disk.Extends (disk.put x new) := by
  obtain ⟨parent, name, entries, rfl, hname, -, hvacant⟩ := exists_of_vacant h
  refine ⟨rfl, .put hleaf fun old hold => ?_, fun hroot => hroot.put hnew fun last hlast => ?_⟩
  · rw [hvacant] at hold
    cases hold
  · rw [List.getLast?_concat, Option.mem_some] at hlast
    exact hlast ▸ hname

theorem find?_put_of_vacant (h : disk.locate true p = .ok (.vacant x)) (hleaf : new.IsLeaf)
    (hnew : new.WellFormed) (hlink : ∀ target, new ≠ .link target) :
    (disk.put x new).find? p = some (x, new) := by
  have hgrows := (extends_put_of_vacant h hleaf hnew).grows
  obtain ⟨parent, name, entries, rfl, -, hparent, -⟩ := exists_of_vacant h
  have hat : (disk.put (parent ++ [name]) new).root.at? (parent ++ [name]) = some new :=
    at?_put_concat hparent
  have hcurrent : (disk.put (parent ++ [name]) new).current = disk.current := rfl
  exact find?_of_keepsWays hcurrent hgrows.keepsWays h hat hlink

/-! ## Files -/

theorem extends_put_of_file {bytes' : ByteArray} (hat : disk.root.at? x = some (.file bytes')) :
    disk.Extends (disk.put x (.file bytes)) := by
  refine ⟨rfl, .put (isLeaf_file _) fun old hold => ?_,
    fun hroot => hroot.put (wellFormed_file _) (hroot.isName_of_at? hat)⟩
  rw [hat] at hold
  cases hold
  exact ⟨isLeaf_file _, .file _ _⟩

theorem find?_put_of_file {bytes' : ByteArray} (h : disk.find? p = some (x, .file bytes')) :
    (disk.put x (.file bytes)).find? p = some (x, .file bytes) := by
  obtain ⟨-, hat⟩ := find?_eq_some_iff.mp h
  obtain ⟨new, hnew, -⟩ := (extends_put_of_file hat).find? h
  exact find?_eq_some_iff.mpr ⟨(find?_eq_some_iff.mp hnew).1, at?_put_self hat⟩

/-- To write a file puts it in a vacant place, or in that of another file. -/
theorem writeBytes_spec (h : disk.writeBytes p bytes = .ok disk') :
    ∃ x, disk' = disk.put x (.file bytes) ∧ disk'.find? p = some (x, .file bytes) ∧
      (∀ old, disk.root.at? x = some old → old.IsLeaf) ∧ disk.Extends disk' := by
  unfold writeBytes at h
  split at h
  · cases h
  · rename_i x hlocate
    cases h
    obtain ⟨-, -, -, -, -, -, hvacant⟩ := exists_of_vacant hlocate
    refine ⟨x, rfl, find?_put_of_vacant hlocate (isLeaf_file _) (wellFormed_file _) nofun,
      fun old hold => ?_, extends_put_of_vacant hlocate (isLeaf_file _) (wellFormed_file _)⟩
    rw [hvacant] at hold
    cases hold
  · rename_i x hlocate
    obtain ⟨-, hleads⟩ := locate_eq_ok_iff.mp hlocate
    obtain ⟨old, hat, hlink⟩ := hleads.taken_spec fun hnil => absurd hnil p.parts_ne_nil
    rw [hat] at h
    cases old with
    | directory entries => cases h
    | link target => exact absurd rfl (hlink target)
    | file bytes' =>
      cases h
      refine ⟨x, rfl, find?_put_of_file (find?_eq_some_iff.mpr ⟨hlocate, hat⟩), fun old hold => ?_,
        extends_put_of_file hat⟩
      rw [hat] at hold
      cases hold
      exact isLeaf_file _

/-- To write what is there changes nothing. -/
theorem writeBytes_of_find? (h : disk.find? p = some (x, .file bytes)) :
    disk.writeBytes p bytes = .ok disk := by
  obtain ⟨hlocate, hat⟩ := find?_eq_some_iff.mp h
  rw [writeBytes, hlocate]
  simp only [hat, put, put_self hat]

/-- Where a file was written all ways are as before. -/
theorem keepsWays_of_put (hold : ∀ old, disk.root.at? x = some old → old.IsLeaf)
    (hx : (disk.put x (.file bytes)).root.at? x = some (.file bytes)) :
    (disk.put x (.file bytes)).root.KeepsWays disk.root := by
  intro place old hplace hfile
  have hne : place ≠ x := by
    rintro rfl
    rw [hx, Option.some.injEq] at hplace
    exact hfile bytes hplace.symm
  have heq : ((disk.put x (.file bytes)).root.at? place).map outline =
      (disk.root.at? place).map outline := outline_at?_put (isLeaf_file bytes) hold hne
  rw [hplace, Option.map_some] at heq
  obtain ⟨new, hnew, houtline⟩ := Option.map_eq_some_iff.mp heq.symm
  exact ⟨new, hnew, .of_outline_eq houtline.symm⟩

/-- What is found where no file was written was there. -/
theorem find?_of_put {other : ByteArray} {y : Address}
    (hold : ∀ old, disk.root.at? x = some old → old.IsLeaf)
    (hx : (disk.put x (.file bytes)).root.at? x = some (.file bytes)) (hy : y ≠ x)
    (h : (disk.put x (.file bytes)).find? p = some (y, .file other)) :
    disk.find? p = some (y, .file other) := by
  obtain ⟨hlocate, hat⟩ := find?_eq_some_iff.mp h
  obtain ⟨herror, hleads⟩ := locate_eq_ok_iff.mp hlocate
  have hfile : disk.root.at? y = some (.file other) := by
    have heq : ((disk.put x (.file bytes)).root.at? y).map outline =
        (disk.root.at? y).map outline := outline_at?_put (isLeaf_file bytes) hold hy
    rw [hat, Option.map_some] at heq
    obtain ⟨new, hnew, houtline⟩ := Option.map_eq_some_iff.mp heq.symm
    cases new <;> cases houtline
    exact hnew
  exact find?_eq_some_iff.mpr ⟨locate_eq_ok_iff.mpr
    ⟨herror, hleads.transfer (keepsWays_of_put hold hx) ⟨_, hfile, nofun⟩⟩, hfile⟩

/-! ## Directories -/

theorem makeDirectory_spec (h : disk.makeDirectory p = .ok disk') :
    disk.Extends disk' ∧ disk'.isDirectory (withoutSlashes p) := by
  unfold makeDirectory create at h
  split at h
  · cases h
  · cases h
  · rename_i x hlocate
    cases h
    obtain ⟨herror, hleads⟩ := locate_eq_ok_iff.mp hlocate
    have hvacant : disk.locate true (withoutSlashes p) = .ok (.vacant x) :=
      locate_eq_ok_iff.mpr ⟨herror, hleads.following⟩
    have hempty : (Node.directory []).WellFormed := wellFormed_directory_iff.mpr (by simp)
    exact ⟨extends_put_of_vacant hvacant isLeaf_empty hempty, isDirectory_iff.mpr
      ⟨x, [], find?_put_of_vacant hvacant isLeaf_empty hempty nofun⟩⟩

/-- Directories that were made are there, and nothing is lost even where that fails. -/
theorem makeDirectoriesWithin_spec {n : Nat} {result : Except FileError Unit}
    (h : makeDirectoriesWithin n disk p = (disk', result)) :
    disk.Extends disk' ∧
      (result = .ok () → p.bytes ≠ [] → withoutSlashes p = p → disk'.isDirectory p) := by
  induction n generalizing disk disk' p result with
  | zero =>
    cases h
    exact ⟨.refl _, nofun⟩
  | succ n ih =>
    unfold makeDirectoriesWithin at h
    split at h
    · rename_i hnil
      cases h
      exact ⟨.refl _, fun _ hp => absurd hnil hp⟩
    split at h
    · rename_i hmade
      cases h
      obtain ⟨hextends, hdir⟩ := makeDirectory_spec hmade
      exact ⟨hextends, fun _ _ hslash => hslash ▸ hdir⟩
    · split at h
      · cases h
        exact ⟨.refl _, nofun⟩
      · split at h
        · rename_i hparent
          cases h
          exact ⟨(ih hparent).1, nofun⟩
        · rename_i hparent
          have hextends := (ih hparent).1
          split at h
          · rename_i hmade
            cases h
            obtain ⟨hextends', hdir⟩ := makeDirectory_spec hmade
            exact ⟨hextends.trans hextends', fun _ _ hslash => hslash ▸ hdir⟩
          · split at h
            · rename_i hdir
              cases h
              exact ⟨hextends, fun _ _ _ => hdir⟩
            · cases h
              exact ⟨hextends, nofun⟩
    · split at h
      · rename_i hdir
        cases h
        exact ⟨.refl _, fun _ _ _ => hdir⟩
      · cases h
        exact ⟨.refl _, nofun⟩

theorem makeDirectory_of_isDirectory (h : disk.isDirectory p) (hslash : withoutSlashes p = p) :
    disk.makeDirectory p = .error .occupied := by
  obtain ⟨x, entries, hfind⟩ := isDirectory_iff.mp h
  obtain ⟨herror, hleads⟩ := locate_eq_ok_iff.mp (find?_eq_some_iff.mp hfind).1
  obtain ⟨y, hy⟩ := hleads.exists_notFollowing
  rw [makeDirectory, create, hslash, locate_eq_ok_iff.mpr ⟨herror, hy⟩]

/-- To make a directory that is there changes nothing. -/
theorem makeDirectoriesWithin_of_isDirectory (n : Nat) (h : disk.isDirectory p)
    (hslash : withoutSlashes p = p) : makeDirectoriesWithin (n + 1) disk p = (disk, .ok ()) := by
  obtain ⟨x, entries, hfind⟩ := isDirectory_iff.mp h
  rw [makeDirectoriesWithin, if_neg (bytes_ne_nil_of_find? hfind),
    makeDirectory_of_isDirectory h hslash]
  simp only [h, if_true]

theorem makeDirectories_of_isDirectory (h : disk.isDirectory p) (hslash : withoutSlashes p = p) :
    disk.makeDirectories p = (disk, .ok ()) :=
  makeDirectoriesWithin_of_isDirectory _ h hslash

end Disk

namespace Build

variable {disk disk' : Disk} {output : Path} {text : Text}

/-- The directory that the file lies in is there, as far as its path names one. -/
def HasParent (disk : Disk) (output : Path) : Prop :=
  ∀ parent, output.parent? = some parent → parent.bytes ≠ [] → disk.isDirectory parent

theorem HasParent.of_extends (h : HasParent disk output) (hextends : disk.Extends disk') :
    HasParent disk' output := fun parent hparent hne => hextends.isDirectory (h parent hparent hne)

theorem makeParent_spec (h : makeParent disk output = (disk', .ok ())) :
    disk.Extends disk' ∧ HasParent disk' output := by
  unfold makeParent at h
  split at h
  · rename_i hnone
    cases h
    exact ⟨.refl _, fun parent hparent => absurd (hnone.symm.trans hparent) nofun⟩
  · rename_i parent hparent
    split at h
    · rename_i hnil
      cases h
      refine ⟨.refl _, fun parent' hparent' hne => ?_⟩
      rw [hparent] at hparent'
      cases hparent'
      exact absurd hnil hne
    · obtain ⟨hextends, hdir⟩ := Disk.makeDirectoriesWithin_spec h
      refine ⟨hextends, fun parent' hparent' hne => ?_⟩
      rw [hparent] at hparent'
      cases hparent'
      exact hdir rfl hne (Disk.withoutSlashes_of_parent? hparent)

theorem makeParent_of_hasParent (h : HasParent disk output) :
    makeParent disk output = (disk, .ok ()) := by
  unfold makeParent
  split
  · rfl
  · rename_i parent hparent
    split
    · rfl
    · rename_i hne
      exact Disk.makeDirectories_of_isDirectory (h parent hparent hne)
        (Disk.withoutSlashes_of_parent? hparent)

/-- After the directories were made, only the file is written. -/
theorem writeText_eq_ok_iff :
    writeText disk output text = (disk', .ok ()) ↔
      ∃ between, makeParent disk output = (between, .ok ()) ∧
        between.writeBytes output text.utf8 = .ok disk' := by
  unfold writeText
  split
  · rename_i hparent
    simp [hparent]
  · rename_i between hparent
    rw [hparent]
    simp only [Prod.mk.injEq, and_true, exists_eq_left']
    cases between.writeBytes output text.utf8 <;> simp

theorem writeText_spec (h : writeText disk output text = (disk', .ok ())) :
    disk.Extends disk' ∧ HasParent disk' output ∧
      ∃ x, disk'.find? output = some (x, .file text.utf8) := by
  obtain ⟨between, hparent, hwrite⟩ := writeText_eq_ok_iff.mp h
  obtain ⟨hmade, hdir⟩ := makeParent_spec hparent
  obtain ⟨x, -, hfind, -, hwritten⟩ := Disk.writeBytes_spec hwrite
  exact ⟨hmade.trans hwritten, hdir.of_extends hwritten, x, hfind⟩

/-- To write the same text once more changes nothing. -/
theorem writeText_again (h : writeText disk output text = (disk', .ok ())) :
    writeText disk' output text = (disk', .ok ()) := by
  obtain ⟨-, hparent, x, hfind⟩ := writeText_spec h
  exact writeText_eq_ok_iff.mpr
    ⟨disk', makeParent_of_hasParent hparent, Disk.writeBytes_of_find? hfind⟩

end Build

end ClassSheet
