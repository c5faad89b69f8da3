import ClassSheet.Proofs.Files.Write
import Mathlib.Logic.Relation

/-!
# What stays when a file is written

* `Path.IsAbove`: a path is left when the last parts of another one are taken away.
* `Disk.SameAt`: two disks have the same at an address, but for the entries of a directory.
* `Disk.Makes`: from one disk to the other nothing changes but that there are new directories, each
  named by a path with a given property.
* `Disk.makeDirectoriesWithin_makes`: to make a directory makes what is missing on the way to it.
* `Build.Leaves`: nothing changes but the file at a path, and new directories above it.
* `Build.writeText_leaves`: that is so when a text is written to a file.
-/

namespace ClassSheet

/-- The first path is left when one or more of the last parts of the second one are taken away. -/
def Path.IsAbove (q p : Path) : Prop := Relation.TransGen (fun p q => p.parent? = some q) p q

theorem Path.isAbove_of_parent? {p q parent : Path} (hparent : p.parent? = some parent)
    (hq : q = parent ∨ q.IsAbove parent) : q.IsAbove p := by
  rcases hq with rfl | hq
  · exact .single hparent
  · exact .head hparent hq

namespace Disk

open Node

variable {disk disk' disk'' : Disk} {p : Path} {x y : Address} {bytes : ByteArray}
  {named named' : Path → Prop}

/-- What both disks have at an address is the same, but for the entries of a directory. Those are the
same if this holds of the addresses below. -/
def SameAt (disk disk' : Disk) (y : Address) : Prop :=
  (disk'.root.at? y).map outline = (disk.root.at? y).map outline

theorem SameAt.trans (h : disk.SameAt disk' y) (h' : disk'.SameAt disk'' y) :
    disk.SameAt disk'' y := Eq.trans h' h

theorem SameAt.at?_eq_none_iff (h : disk.SameAt disk' y) :
    disk'.root.at? y = none ↔ disk.root.at? y = none := by
  rw [← Option.map_eq_none_iff (f := outline), h, Option.map_eq_none_iff]

theorem SameAt.file (h : disk.SameAt disk' y) (hat : disk.root.at? y = some (.file bytes)) :
    disk'.root.at? y = some (.file bytes) := by
  rw [SameAt, hat, Option.map_some] at h
  obtain ⟨new, hnew, houtline⟩ := Option.map_eq_some_iff.mp h
  cases new <;> cases houtline
  exact hnew

/-! ## New directories -/

/-- At the address is a directory that was not there before, and a path with the property names it. -/
def NewAt (named : Path → Prop) (disk disk' : Disk) (y : Address) : Prop :=
  disk.root.at? y = none ∧ ∃ q entries, named q ∧ disk'.find? q = some (y, .directory entries)

/-- From the one disk to the other nothing changes but that there are new directories, each named by
a path with the property. -/
structure Makes (named : Path → Prop) (disk disk' : Disk) : Prop where
  extending : disk.Extends disk'
  atAddress : ∀ y, disk.SameAt disk' y ∨ NewAt named disk disk' y

theorem NewAt.of_extends (h : NewAt named disk disk' y) (hextends : disk'.Extends disk'') :
    NewAt named disk disk'' y := by
  obtain ⟨hnone, q, entries, hq, hfind⟩ := h
  obtain ⟨entries', hfind'⟩ := hextends.find?_directory hfind
  exact ⟨hnone, q, entries', hq, hfind'⟩

theorem Makes.refl (disk : Disk) : Makes named disk disk := ⟨.refl disk, fun _ => .inl rfl⟩

theorem Makes.trans (h : Makes named disk disk') (h' : Makes named disk' disk'') :
    Makes named disk disk'' := by
  refine ⟨h.extending.trans h'.extending, fun y => ?_⟩
  rcases h.atAddress y with hsame | hnew
  · rcases h'.atAddress y with hsame' | ⟨hnone, hfind⟩
    · exact .inl (hsame.trans hsame')
    · exact .inr ⟨hsame.at?_eq_none_iff.mp hnone, hfind⟩
  · exact .inr (hnew.of_extends h'.extending)

theorem Makes.imp (h : Makes named disk disk') (himp : ∀ q, named q → named' q) :
    Makes named' disk disk' := by
  refine ⟨h.extending, fun y => (h.atAddress y).imp_right ?_⟩
  rintro ⟨hnone, q, entries, hq, hfind⟩
  exact ⟨hnone, q, entries, himp q hq, hfind⟩

theorem makeDirectory_eq_ok_iff :
    disk.makeDirectory p = .ok disk' ↔
      ∃ x, disk.locate false (withoutSlashes p) = .ok (.vacant x) ∧
        disk' = disk.put x (.directory []) := by
  unfold makeDirectory create
  split
  · rename_i hlocate
    simp [hlocate]
  · rename_i hlocate
    simp [hlocate]
  · rename_i x hlocate
    simp [hlocate, eq_comm]

/-- One directory is made, in a vacant place. -/
theorem makeDirectory_makes (hslash : withoutSlashes p = p) (h : disk.makeDirectory p = .ok disk') :
    Makes (· = p) disk disk' := by
  obtain ⟨x, hlocate, rfl⟩ := makeDirectory_eq_ok_iff.mp h
  rw [hslash] at hlocate
  have hempty : (Node.directory []).WellFormed := wellFormed_directory_iff.mpr (by simp)
  obtain ⟨-, -, -, -, -, -, hvacant⟩ := exists_of_vacant hlocate
  refine ⟨extends_put_of_vacant hlocate isLeaf_empty hempty, fun y => ?_⟩
  by_cases hy : y = x
  · subst hy
    obtain ⟨herror, hleads⟩ := locate_eq_ok_iff.mp hlocate
    have hfollowing := locate_eq_ok_iff.mpr ⟨herror, hleads.following⟩
    exact .inr ⟨hvacant, p, [], rfl, find?_put_of_vacant hfollowing isLeaf_empty hempty nofun⟩
  · refine .inl (outline_at?_put isLeaf_empty (fun old hold => ?_) hy)
    rw [hvacant] at hold
    cases hold

/-- To make a directory makes what is missing on the way to it and nothing else, even where that
fails. -/
theorem makeDirectoriesWithin_makes {n : Nat} {result : Except FileError Unit}
    (hslash : withoutSlashes p = p) (h : makeDirectoriesWithin n disk p = (disk', result)) :
    Makes (fun q => q = p ∨ q.IsAbove p) disk disk' := by
  induction n generalizing disk disk' p result with
  | zero =>
    cases h
    exact .refl _
  | succ n ih =>
    have hmake : ∀ {disk disk' : Disk}, disk.makeDirectory p = .ok disk' →
        Makes (fun q => q = p ∨ q.IsAbove p) disk disk' :=
      fun hmade => (makeDirectory_makes hslash hmade).imp fun _ => .inl
    unfold makeDirectoriesWithin at h
    split at h
    · cases h
      exact .refl _
    split at h
    · rename_i hmade
      cases h
      exact hmake hmade
    · split at h
      · cases h
        exact .refl _
      · rename_i parent hparent
        have habove : ∀ {between result}, makeDirectoriesWithin n disk parent = (between, result) →
            Makes (fun q => q = p ∨ q.IsAbove p) disk between := by
          intro between result hbetween
          exact (ih (withoutSlashes_of_parent? hparent) hbetween).imp fun q hq =>
            .inr (Path.isAbove_of_parent? hparent hq)
        split at h
        · rename_i hbetween
          cases h
          exact habove hbetween
        · rename_i hbetween
          split at h
          · rename_i hmade
            cases h
            exact (habove hbetween).trans (hmake hmade)
          · split at h
            · cases h
              exact habove hbetween
            · cases h
              exact habove hbetween
    · split at h
      · cases h
        exact .refl _
      · cases h
        exact .refl _

end Disk

namespace Build

open Disk Node

variable {disk disk' : Disk} {output : Path} {text : Text}

theorem makeParent_makes {result : Except FileError Unit}
    (h : makeParent disk output = (disk', result)) : Makes (·.IsAbove output) disk disk' := by
  unfold makeParent at h
  split at h
  · cases h
    exact .refl _
  · rename_i parent hparent
    split at h
    · cases h
      exact .refl _
    · exact (makeDirectoriesWithin_makes (withoutSlashes_of_parent? hparent) h).imp fun q hq =>
        Path.isAbove_of_parent? hparent hq

/-- The path leads to a file with the given bytes. From the one disk to the other everything else is
the same, but for new directories that paths above that of the file name. -/
def Leaves (disk disk' : Disk) (output : Path) (bytes : ByteArray) : Prop :=
  disk'.current = disk.current ∧
  ∃ x, disk'.find? output = some (x, .file bytes) ∧
    ∀ y, y ≠ x → disk.SameAt disk' y ∨ NewAt (·.IsAbove output) disk disk' y

theorem writeText_leaves (h : writeText disk output text = (disk', .ok ())) :
    Leaves disk disk' output text.utf8 := by
  obtain ⟨between, hparent, hwrite⟩ := writeText_eq_ok_iff.mp h
  have hmakes := makeParent_makes hparent
  obtain ⟨x, hput, hfind, hold, hextends⟩ := writeBytes_spec hwrite
  refine ⟨hextends.current.trans hmakes.extending.current, x, hfind, fun y hy => ?_⟩
  have hsame : between.SameAt disk' y := by
    subst hput
    exact outline_at?_put (isLeaf_file _) hold hy
  rcases hmakes.atAddress y with hbefore | hnew
  · exact .inl (hbefore.trans hsame)
  · exact .inr (hnew.of_extends hextends)

/-- The files that do not lie in the place of the output hold what they held. -/
theorem writeText_readBytes {p : Path} {bytes : ByteArray}
    (h : writeText disk output text = (disk', .ok ())) (hread : disk.readBytes p = .ok bytes)
    (hp : disk'.locate true p ≠ disk'.locate true output) : disk'.readBytes p = .ok bytes := by
  obtain ⟨-, x, hfind, hothers⟩ := writeText_leaves h
  obtain ⟨y, hy⟩ := readBytes_eq_ok_iff.mp hread
  obtain ⟨new, hnew, -⟩ := (writeText_spec h).1.find? hy
  obtain ⟨hlocate, hat⟩ := find?_eq_some_iff.mp hnew
  have hne : y ≠ x := by
    rintro rfl
    exact hp (hlocate.trans (find?_eq_some_iff.mp hfind).1.symm)
  have hbefore := (find?_eq_some_iff.mp hy).2
  rcases hothers y hne with hsame | ⟨hnone, -⟩
  · exact readBytes_eq_ok_iff.mpr ⟨y, find?_eq_some_iff.mpr ⟨hlocate, hsame.file hbefore⟩⟩
  · rw [hnone] at hbefore
    cases hbefore

end Build

end ClassSheet
