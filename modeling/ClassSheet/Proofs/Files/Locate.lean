import ClassSheet.Proofs.Files.Path
import ClassSheet.Proofs.Files.Tree

/-!
# Where paths lead

* `Disk.Leads`: going along the parts of a path, step by step, to the place that it names.
* `Disk.goFollowing_eq_ok_iff`: it is what the search for the place does.
* `Disk.Leads.transfer`: in a tree that keeps directories and links a path leads to the same place,
  also if that was vacant and something has been put there.
* `Disk.Leads.taken_spec`, `Disk.Leads.vacant_spec`: what is at a place, and where a vacant one is.
* `Disk.Leads.split`: all but the last parts lead to a directory, and the last ones on from there.
* `Disk.isDirectory_of_contains_join`, `Disk.find?_join`: a path with one more name.
-/

namespace ClassSheet

/-- The address of a place, taken or not. -/
def Place.address : Place → Address
  | .taken address => address
  | .vacant address => address

namespace Disk

open Node

/-- The part is the name of an entry, or could be one. -/
def IsEntryPart (part : Bytes) : Prop :=
  ¬Path.isIdle part ∧ part ≠ Path.above ∧ part.length ≤ greatestNameLength

/-- From the directory at an address, the parts lead to a place, over at most `links` links. -/
inductive Leads (root : Node) (followLast : Bool) : Nat → Address → List Bytes → Place → Prop where
  | done {links address} : Leads root followLast links address [] (.taken address)
  | idle {links address entries part parts place}
    (hat : root.at? address = some (.directory entries)) (hpart : Path.isIdle part)
    (rest : Leads root followLast links address parts place) :
    Leads root followLast links address (part :: parts) place
  | above {links address entries parts place}
    (hat : root.at? address = some (.directory entries))
    (rest : Leads root followLast links address.dropLast parts place) :
    Leads root followLast links address (Path.above :: parts) place
  /-- Only the last part may be new. -/
  | vacant {links address entries part} (hat : root.at? address = some (.directory entries))
    (hpart : IsEntryPart part) (hentry : entries.lookup part = none) :
    Leads root followLast links address [part] (.vacant (address ++ [part]))
  | enter {links address entries part parts node place}
    (hat : root.at? address = some (.directory entries)) (hpart : IsEntryPart part)
    (hentry : entries.lookup part = some node) (hnode : ∀ target, node ≠ .link target)
    (rest : Leads root followLast links (address ++ [part]) parts place) :
    Leads root followLast links address (part :: parts) place
  /-- A link in the last place that is not followed. -/
  | stay {links address entries part target}
    (hat : root.at? address = some (.directory entries)) (hpart : IsEntryPart part)
    (hentry : entries.lookup part = some (.link target)) (hlast : followLast = false) :
    Leads root followLast links address [part] (.taken (address ++ [part]))
  | follow {links address entries part parts target place}
    (hat : root.at? address = some (.directory entries)) (hpart : IsEntryPart part)
    (hentry : entries.lookup part = some (.link target)) (hlast : parts ≠ [] ∨ followLast = true)
    (htarget : target.bytes ≠ [])
    (rest : Leads root followLast links (start address target) (target.parts ++ parts) place) :
    Leads root followLast (links + 1) address (part :: parts) place

variable {root root' : Node} {followLast : Bool} {links : Nat} {address x : Address}
  {part name : Bytes} {parts qs : List Bytes} {place : Place} {entries : List (Bytes × Node)}

/-! ## What the search does -/

/-- One step, for any number of links. -/
theorem goFollowing_cons :
    goFollowing root followLast links address (part :: parts) =
      match root.at? address with
      | some (.directory entries) =>
        if Path.isIdle part then goFollowing root followLast links address parts
        else if part = Path.above then goFollowing root followLast links address.dropLast parts
        else if greatestNameLength < part.length then .error .nameTooLong
        else
          match entries.lookup part with
          | none => if parts = [] then .ok (.vacant (address ++ [part])) else .error .absent
          | some (.link target) =>
            if parts = [] ∧ !followLast then .ok (.taken (address ++ [part]))
            else if target.bytes = [] then .error .absent
            else
              match links with
              | 0 => .error .tooManyLinks
              | links + 1 =>
                goFollowing root followLast links (start address target) (target.parts ++ parts)
          | some _ => goFollowing root followLast links (address ++ [part]) parts
      | some _ => .error .notDirectory
      | none => .error .absent := by
  cases links <;> rfl

theorem goFollowing_nil :
    goFollowing root followLast links address [] = .ok (.taken address) := by
  cases links <;> rfl

theorem leads_of_goFollowing (h : goFollowing root followLast links address parts = .ok place) :
    Leads root followLast links address parts place := by
  -- Over a link fewer links are left, and otherwise fewer parts.
  induction links using Nat.strongRecOn generalizing address parts with
  | ind links hlinks =>
  induction parts generalizing address with
  | nil =>
    rw [goFollowing_nil, Except.ok.injEq] at h
    exact h ▸ .done
  | cons part parts ih =>
    rw [goFollowing_cons] at h
    split at h
    · rename_i entries hat
      split at h
      · rename_i hidle
        exact .idle hat hidle (ih h)
      rename_i hidle
      split at h
      · rename_i habove
        exact habove ▸ .above hat (ih h)
      rename_i habove
      split at h
      · cases h
      rename_i hlength
      have hpart : IsEntryPart part := ⟨hidle, habove, Nat.le_of_not_lt hlength⟩
      split at h
      · rename_i hentry
        split at h
        · rename_i hparts
          subst hparts
          cases h
          exact .vacant hat hpart hentry
        · cases h
      · rename_i target hentry
        split at h
        · rename_i hlast
          obtain ⟨rfl, hlast⟩ := hlast
          cases h
          exact .stay hat hpart hentry (by simpa using hlast)
        · rename_i hlast
          split at h
          · cases h
          · rename_i htarget
            cases links with
            | zero => cases h
            | succ links =>
              have hlast' : parts ≠ [] ∨ followLast = true := by
                by_cases hparts : parts = []
                · exact .inr (by simpa [hparts] using hlast)
                · exact .inl hparts
              exact .follow hat hpart hentry hlast' htarget (hlinks links (Nat.lt_succ_self _) h)
      · rename_i node hnode hentry
        exact .enter hat hpart hentry (fun target e => hnode target e) (ih h)
    · cases h
    · cases h

theorem Leads.goFollowing_eq (h : Leads root followLast links address parts place) :
    goFollowing root followLast links address parts = .ok place := by
  induction h with
  | done => exact goFollowing_nil
  | idle hat hpart rest ih =>
    rw [goFollowing_cons, hat]
    exact (if_pos hpart).trans ih
  | above hat rest ih =>
    rw [goFollowing_cons, hat]
    exact ih
  | vacant hat hpart hentry =>
    obtain ⟨hidle, habove, hlength⟩ := hpart
    rw [goFollowing_cons, hat]
    simp only [hidle, habove, hentry, Nat.not_lt.mpr hlength, if_false, if_true, Bool.false_eq_true]
  | enter hat hpart hentry hnode rest ih =>
    obtain ⟨hidle, habove, hlength⟩ := hpart
    rw [goFollowing_cons, hat]
    simp only [hidle, habove, hentry, Nat.not_lt.mpr hlength, if_false, Bool.false_eq_true]
    exact ih
  | stay hat hpart hentry hlast =>
    obtain ⟨hidle, habove, hlength⟩ := hpart
    rw [goFollowing_cons, hat]
    simp [hidle, habove, hentry, Nat.not_lt.mpr hlength, hlast]
  | @follow links address entries part parts target place hat hpart hentry hlast htarget rest ih =>
    obtain ⟨hidle, habove, hlength⟩ := hpart
    have hlast' : ¬(parts = [] ∧ (!followLast) = true) := by
      rintro ⟨hparts, hfollow⟩
      cases hlast with
      | inl h => exact h hparts
      | inr h => simp [h] at hfollow
    rw [goFollowing_cons, hat]
    simp only [hidle, habove, hentry, Nat.not_lt.mpr hlength, if_false, Bool.false_eq_true, hlast',
      htarget]
    exact ih

theorem goFollowing_eq_ok_iff :
    goFollowing root followLast links address parts = .ok place ↔
      Leads root followLast links address parts place :=
  ⟨leads_of_goFollowing, Leads.goFollowing_eq⟩

theorem Leads.exists_directory (h : Leads root followLast links address (part :: parts) place) :
    ∃ entries, root.at? address = some (.directory entries) := by
  cases h <;> exact ⟨_, ‹_›⟩

/-! ## Trees that keep the ways -/

/-- Where directories and links stay, a path leads to the same place as before if anything is there
that is no link. -/
theorem Leads.transfer (h : Leads root true links address parts place)
    (hkeeps : root.KeepsWays root')
    (hplace : ∃ new, root'.at? place.address = some new ∧ ∀ target, new ≠ .link target) :
    Leads root' true links address parts (.taken place.address) := by
  induction h with
  | done => exact .done
  | idle hat hpart rest ih =>
    obtain ⟨new, hnew, hkind⟩ := hkeeps _ _ hat nofun
    cases hkind
    exact .idle hnew hpart (ih hplace)
  | above hat rest ih =>
    obtain ⟨new, hnew, hkind⟩ := hkeeps _ _ hat nofun
    cases hkind
    exact .above hnew (ih hplace)
  | vacant hat hpart hentry =>
    obtain ⟨new, hnew, hlink⟩ := hplace
    obtain ⟨entries', hat', hentry'⟩ := exists_of_at?_concat hnew
    exact .enter hat' hpart hentry' hlink .done
  | @enter links address entries part parts node place hat hpart hentry hnode rest ih =>
    cases node with
    | link target => exact absurd rfl (hnode target)
    | directory listed =>
      obtain ⟨new, hnew, hkind⟩ := hkeeps (address ++ [part]) (.directory listed)
        (by rw [at?_concat hat, hentry]) nofun
      cases hkind
      obtain ⟨entries', hat', hentry'⟩ := exists_of_at?_concat hnew
      exact .enter hat' hpart hentry' nofun (ih hplace)
    | file bytes =>
      -- The path cannot go on from a file, so this is the last place.
      cases parts with
      | nil =>
        cases rest
        obtain ⟨new, hnew, hlink⟩ := hplace
        obtain ⟨entries', hat', hentry'⟩ := exists_of_at?_concat hnew
        exact .enter hat' hpart hentry' hlink .done
      | cons next parts =>
        obtain ⟨listed, hlisted⟩ := rest.exists_directory
        rw [at?_concat hat, hentry] at hlisted
        cases hlisted
  | stay hat hpart hentry hlast => cases hlast
  | @follow links address entries part parts target place hat hpart hentry hlast htarget rest ih =>
    obtain ⟨new, hnew, hkind⟩ := hkeeps (address ++ [part]) (.link target)
      (by rw [at?_concat hat, hentry]) nofun
    cases hkind
    obtain ⟨entries', hat', hentry'⟩ := exists_of_at?_concat hnew
    exact .follow hat' hpart hentry' hlast htarget (ih hplace)

/-! ## What is at the places -/

/-- What a path is followed to is no link, if that holds of where a path without parts starts. -/
theorem Leads.taken_spec (h : Leads root true links address parts (.taken x))
    (hstart : parts = [] → ∃ node, root.at? address = some node ∧ ∀ target, node ≠ .link target) :
    ∃ node, root.at? x = some node ∧ ∀ target, node ≠ .link target := by
  generalize hplace : Place.taken x = place at h
  induction h with
  | done =>
    cases hplace
    exact hstart rfl
  | idle hat hpart rest ih => exact ih (fun _ => ⟨_, hat, nofun⟩) hplace
  | above hat rest ih =>
    obtain ⟨above, habove⟩ := exists_at?_dropLast hat
    exact ih (fun _ => ⟨_, habove, nofun⟩) hplace
  | vacant => cases hplace
  | enter hat hpart hentry hnode rest ih =>
    exact ih (fun _ => ⟨_, (at?_concat hat _).trans hentry, hnode⟩) hplace
  | stay hat hpart hentry hlast => cases hlast
  | @follow _ _ _ _ _ target _ _ _ _ _ _ _ ih =>
    exact ih (fun hnil => absurd (List.append_eq_nil_iff.mp hnil).1 target.parts_ne_nil) hplace

/-- A vacant place is under a new name in a directory. -/
theorem Leads.vacant_spec (h : Leads root followLast links address parts (.vacant x))
    (hparts : ∀ part ∈ parts, Path.slash ∉ part) :
    ∃ parent name entries, x = parent ++ [name] ∧ IsName name ∧
      root.at? parent = some (.directory entries) ∧ entries.lookup name = none := by
  generalize hplace : Place.vacant x = place at h
  induction h with
  | done => cases hplace
  | idle hat hpart rest ih => exact ih (fun part h => hparts part (List.mem_cons_of_mem _ h)) hplace
  | above hat rest ih => exact ih (fun part h => hparts part (List.mem_cons_of_mem _ h)) hplace
  | vacant hat hpart hentry =>
    cases hplace
    exact ⟨_, _, _, rfl, ⟨hpart.1, hpart.2.1, hparts _ List.mem_cons_self⟩, hat, hentry⟩
  | enter hat hpart hentry hnode rest ih =>
    exact ih (fun part h => hparts part (List.mem_cons_of_mem _ h)) hplace
  | stay => cases hplace
  | follow hat hpart hentry hlast htarget rest ih =>
    refine ih (fun part h => ?_) hplace
    rcases List.mem_append.mp h with h | h
    · exact Path.slash_notMem_of_mem_parts h
    · exact hparts part (List.mem_cons_of_mem _ h)

/-! ## Links in the last place -/

/-- What is vacant without following a link in the last place is so if it is followed. -/
theorem Leads.following (h : Leads root false links address parts (.vacant x)) :
    Leads root true links address parts (.vacant x) := by
  generalize hplace : Place.vacant x = place at h ⊢
  induction h with
  | done => cases hplace
  | idle hat hpart rest ih => exact .idle hat hpart (ih hplace)
  | above hat rest ih => exact .above hat (ih hplace)
  | vacant hat hpart hentry => exact .vacant hat hpart hentry
  | enter hat hpart hentry hnode rest ih => exact .enter hat hpart hentry hnode (ih hplace)
  | stay => cases hplace
  | follow hat hpart hentry hlast htarget rest ih =>
    exact .follow hat hpart hentry (.inr rfl) htarget (ih hplace)

/-- What is taken is so too if a link in the last place is not followed. -/
theorem Leads.exists_notFollowing (h : Leads root true links address parts (.taken x)) :
    ∃ y, Leads root false links address parts (.taken y) := by
  generalize hplace : Place.taken x = place at h
  induction h with
  | done => exact ⟨_, .done⟩
  | idle hat hpart rest ih =>
    obtain ⟨y, hy⟩ := ih hplace
    exact ⟨y, .idle hat hpart hy⟩
  | above hat rest ih =>
    obtain ⟨y, hy⟩ := ih hplace
    exact ⟨y, .above hat hy⟩
  | vacant => cases hplace
  | enter hat hpart hentry hnode rest ih =>
    obtain ⟨y, hy⟩ := ih hplace
    exact ⟨y, .enter hat hpart hentry hnode hy⟩
  | stay hat hpart hentry hlast => exact ⟨_, .stay hat hpart hentry rfl⟩
  | @follow _ _ _ _ parts _ _ hat hpart hentry hlast htarget rest ih =>
    by_cases hparts : parts = []
    · subst hparts
      exact ⟨_, .stay hat hpart hentry rfl⟩
    · obtain ⟨y, hy⟩ := ih hplace
      exact ⟨y, .follow hat hpart hentry (.inl hparts) htarget hy⟩

/-! ## The parts of a path -/

/-- All but the last parts lead to a directory, and the last ones lead on from there. -/
theorem Leads.split (h : Leads root followLast links address (parts ++ qs) place) (hqs : qs ≠ []) :
    ∃ y entries left, Leads root true links address parts (.taken y) ∧
      root.at? y = some (.directory entries) ∧ Leads root followLast left y qs place := by
  obtain ⟨q, qs, rfl⟩ := List.exists_cons_of_ne_nil hqs
  generalize hall : parts ++ q :: qs = all at h
  induction h generalizing parts with
  | done => simp at hall
  | @idle _ _ _ _ _ _ hat hpart rest ih =>
    cases parts with
    | nil =>
      cases hall
      exact ⟨_, _, _, .done, hat, .idle hat hpart rest⟩
    | cons part parts =>
      obtain ⟨rfl, rfl⟩ := List.cons.inj hall
      obtain ⟨y, entries, left, hy, hentries, hleft⟩ := ih rfl
      exact ⟨y, entries, left, .idle hat hpart hy, hentries, hleft⟩
  | above hat rest ih =>
    cases parts with
    | nil =>
      cases hall
      exact ⟨_, _, _, .done, hat, .above hat rest⟩
    | cons part parts =>
      obtain ⟨rfl, rfl⟩ := List.cons.inj hall
      obtain ⟨y, entries, left, hy, hentries, hleft⟩ := ih rfl
      exact ⟨y, entries, left, .above hat hy, hentries, hleft⟩
  | vacant hat hpart hentry =>
    cases parts with
    | nil =>
      cases hall
      exact ⟨_, _, links, .done, hat, .vacant hat hpart hentry⟩
    | cons part parts => simp at hall
  | enter hat hpart hentry hnode rest ih =>
    cases parts with
    | nil =>
      cases hall
      exact ⟨_, _, _, .done, hat, .enter hat hpart hentry hnode rest⟩
    | cons part parts =>
      obtain ⟨rfl, rfl⟩ := List.cons.inj hall
      obtain ⟨y, entries, left, hy, hentries, hleft⟩ := ih rfl
      exact ⟨y, entries, left, .enter hat hpart hentry hnode hy, hentries, hleft⟩
  | stay hat hpart hentry hlast =>
    cases parts with
    | nil =>
      cases hall
      exact ⟨_, _, links, .done, hat, .stay hat hpart hentry hlast⟩
    | cons part parts => simp at hall
  | follow hat hpart hentry hlast htarget rest ih =>
    cases parts with
    | nil =>
      cases hall
      exact ⟨_, _, _, .done, hat, .follow hat hpart hentry hlast htarget rest⟩
    | cons part parts =>
      obtain ⟨rfl, rfl⟩ := List.cons.inj hall
      obtain ⟨y, entries, left, hy, hentries, hleft⟩ := ih (List.append_assoc _ _ _)
      exact ⟨y, entries, left, .follow hat hpart hentry (.inr rfl) htarget hy, hentries, hleft⟩

/-- An empty part behind a directory leads nowhere else. -/
theorem Leads.concat_nil (h : Leads root true links address parts (.taken x))
    (hx : root.at? x = some (.directory entries)) :
    Leads root true links address (parts ++ [[]]) (.taken x) := by
  generalize hplace : Place.taken x = place at h ⊢
  induction h with
  | done =>
    cases hplace
    exact .idle hx rfl .done
  | idle hat hpart rest ih => exact .idle hat hpart (ih hplace)
  | above hat rest ih => exact .above hat (ih hplace)
  | vacant => cases hplace
  | enter hat hpart hentry hnode rest ih => exact .enter hat hpart hentry hnode (ih hplace)
  | stay hat hpart hentry hlast => cases hlast
  | follow hat hpart hentry hlast htarget rest ih =>
    have hrest := ih hplace
    rw [List.append_assoc] at hrest
    exact .follow hat hpart hentry (.inr rfl) htarget hrest

/-! ## What is found on a disk -/

variable {disk disk' : Disk} {p : Path} {node : Node}

theorem locate_eq_ok_iff :
    disk.locate followLast p = .ok place ↔ pathError? p = none ∧
      Leads disk.root followLast greatestLinkCount (start disk.current p) p.parts place := by
  rw [locate, ← goFollowing_eq_ok_iff]
  cases pathError? p with
  | none => simp
  | some e => simp

theorem find?_eq_some_iff :
    disk.find? p = some (x, node) ↔
      disk.locate true p = .ok (.taken x) ∧ disk.root.at? x = some node := by
  unfold find?
  split
  · rename_i y hy
    rw [hy]
    simp only [Option.map_eq_some_iff, Prod.mk.injEq, Except.ok.injEq, Place.taken.injEq]
    constructor
    · rintro ⟨node, hnode, rfl, rfl⟩
      exact ⟨rfl, hnode⟩
    · rintro ⟨rfl, hnode⟩
      exact ⟨node, hnode, rfl, rfl⟩
  · rename_i hnone
    exact ⟨nofun, fun h => absurd h.1 (hnone x)⟩

theorem isDirectory_iff :
    disk.isDirectory p ↔ ∃ x entries, disk.find? p = some (x, .directory entries) := by
  unfold isDirectory
  split
  · rename_i x entries h
    exact ⟨fun _ => ⟨x, entries, h⟩, fun _ => rfl⟩
  · rename_i hnone
    exact ⟨nofun, fun ⟨x, entries, h⟩ => absurd h (hnone x entries)⟩

theorem readBytes_eq_ok_iff {bytes : ByteArray} :
    disk.readBytes p = .ok bytes ↔ ∃ x, disk.find? p = some (x, .file bytes) := by
  simp only [find?_eq_some_iff]
  unfold readBytes
  split
  · rename_i hlocate
    simp [hlocate]
  · rename_i hlocate
    simp [hlocate]
  · rename_i y hlocate
    simp only [hlocate, Except.ok.injEq, Place.taken.injEq, exists_eq_left']
    split
    · rename_i hfile
      simp [hfile]
    · rename_i hdirectory
      simp [hdirectory]
    · rename_i hfile hdirectory
      constructor
      · nofun
      · intro h
        exact absurd h (hfile bytes)

/-- On a disk that keeps directories and links, a path leads to what is in the place to which it leads
on the other one, if that is no link. -/
theorem find?_of_keepsWays (hcurrent : disk'.current = disk.current)
    (hkeeps : disk.root.KeepsWays disk'.root) (hlocate : disk.locate true p = .ok place)
    (hat : disk'.root.at? place.address = some node) (hlink : ∀ target, node ≠ .link target) :
    disk'.find? p = some (place.address, node) := by
  obtain ⟨herror, hleads⟩ := locate_eq_ok_iff.mp hlocate
  refine find?_eq_some_iff.mpr ⟨locate_eq_ok_iff.mpr ⟨herror, ?_⟩, hat⟩
  rw [hcurrent]
  exact hleads.transfer hkeeps ⟨node, hat, hlink⟩

theorem readText_eq_ok_iff {s : Text} :
    disk.readText p = .ok s ↔ ∃ bytes, disk.readBytes p = .ok bytes ∧ decodeText bytes = .ok s := by
  unfold readText
  cases disk.readBytes p with
  | error e => exact ⟨nofun, fun ⟨bytes, hbytes, _⟩ => nomatch hbytes⟩
  | ok bytes => exact ⟨fun h => ⟨bytes, rfl, h⟩, fun ⟨_, hbytes, h⟩ => Except.ok.inj hbytes ▸ h⟩

theorem contains_of_isDirectory (h : disk.isDirectory p) : disk.contains p := by
  obtain ⟨x, entries, hfind⟩ := isDirectory_iff.mp h
  rw [contains, hfind]
  rfl

theorem contains_of_readBytes {bytes : ByteArray} (h : disk.readBytes p = .ok bytes) :
    disk.contains p := by
  obtain ⟨x, hfind⟩ := readBytes_eq_ok_iff.mp h
  rw [contains, hfind]
  rfl

theorem bytes_ne_nil_of_find? (h : disk.find? p = some (x, node)) : p.bytes ≠ [] := by
  obtain ⟨herror, -⟩ := locate_eq_ok_iff.mp (find?_eq_some_iff.mp h).1
  intro hnil
  simp [pathError?, hnil] at herror

/-- What is found is no link. -/
theorem not_link_of_find? (h : disk.find? p = some (x, node)) (target : Path) :
    node ≠ .link target := by
  obtain ⟨hlocate, hnode⟩ := find?_eq_some_iff.mp h
  obtain ⟨node', hnode', hlink⟩ := (locate_eq_ok_iff.mp hlocate).2.taken_spec
    fun hnil => absurd hnil p.parts_ne_nil
  rw [hnode, Option.some.injEq] at hnode'
  exact hnode' ▸ hlink target

/-! ## Paths with one more name -/

/-- A path with one more name leads to the directory that the path names, and on from there. -/
theorem exists_leads_of_join (hp : p.bytes ≠ []) (hname : Path.slash ∉ name)
    (h : disk.locate true (p.join ⟨name⟩) = .ok place) :
    ∃ y entries left, disk.find? p = some (y, .directory entries) ∧
      Leads disk.root true left y [name] place := by
  obtain ⟨herror, hleads⟩ := locate_eq_ok_iff.mp h
  obtain ⟨parts, hparts, hjoin⟩ := Path.exists_parts_join hp hname
  have hstart : start disk.current (p.join ⟨name⟩) = start disk.current p := by
    rw [start, start, Path.isAbsolute_join hp hname]
  rw [hjoin, hstart] at hleads
  obtain ⟨y, entries, left, hy, hentries, hlast⟩ := hleads.split (List.cons_ne_nil _ _)
  refine ⟨y, entries, left, find?_eq_some_iff.mpr ⟨?_, hentries⟩, hlast⟩
  refine locate_eq_ok_iff.mpr ⟨pathError?_of_join hp hname herror, ?_⟩
  rcases hparts with hparts | hparts
  · rwa [hparts]
  · rw [hparts]
    exact hy.concat_nil hentries

/-- What is below a path is in a directory. -/
theorem isDirectory_of_contains_join (hp : p.bytes ≠ []) (hname : Path.slash ∉ name)
    (h : disk.contains (p.join ⟨name⟩)) : disk.isDirectory p := by
  obtain ⟨⟨x, node⟩, hfind⟩ := Option.isSome_iff_exists.mp h
  obtain ⟨y, entries, -, hdir, -⟩ := exists_leads_of_join hp hname (find?_eq_some_iff.mp hfind).1
  exact isDirectory_iff.mpr ⟨y, entries, hdir⟩

/-- What is found under a name below a directory is what the directory has under the name, or what
the link that it has there leads to. -/
theorem find?_join (hdir : disk.find? p = some (address, .directory entries)) (hname : IsName name)
    (h : disk.find? (p.join ⟨name⟩) = some (x, node)) :
    ∃ child, entries.lookup name = some child ∧
      ((∃ target, child = .link target) ∨ child = node) := by
  obtain ⟨hlocate, hnode⟩ := find?_eq_some_iff.mp h
  obtain ⟨y, listed, left, hdir', hlast⟩ :=
    exists_leads_of_join (bytes_ne_nil_of_find? hdir) hname.2.2 hlocate
  rw [hdir] at hdir'
  cases hdir'
  have hentries := (find?_eq_some_iff.mp hdir).2
  obtain ⟨hidle, habove, -⟩ := hname
  cases hlast with
  | idle hat hpart rest => exact absurd hpart hidle
  | above hat rest => exact absurd rfl habove
  | enter hat hpart hentry hlink rest =>
    rw [hentries] at hat
    cases hat
    cases rest
    rw [at?_concat hentries, hentry, Option.some.injEq] at hnode
    exact ⟨_, hentry, .inr hnode⟩
  | stay hat hpart hentry hlast => cases hlast
  | follow hat hpart hentry hlast htarget rest =>
    rw [hentries] at hat
    cases hat
    exact ⟨_, hentry, .inl ⟨_, rfl⟩⟩

end Disk

end ClassSheet
