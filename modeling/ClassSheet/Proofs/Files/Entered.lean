import ClassSheet.Proofs.Files.Above
import ClassSheet.Proofs.Files.Frame

/-!
# From another directory

A path that is taken from a directory names the same as the rest of it does from inside. Only the
limits of the system are reached earlier, since the path is longer and may lead over more links.

* `Disk.enter`: the disk with another current directory.
* `Disk.Refuses`: the path is too long, or it leads over too many links.
* `Disk.goFollowing_append`: behind a directory the search goes on as it would from there.
* `Disk.locate_join`, `Disk.find?_join_eq`: what a path names from outside and from inside.
* `Disk.makeDirectoriesWithin_join`, `Build.writeText_join`: so for what is written.
-/

namespace ClassSheet

namespace Disk

open Node

/-- The disk with the directory at an address for the current one. -/
def enter (disk : Disk) (address : Address) : Disk := { disk with current := address }

/-- The path is too long, or leads over too many links. -/
def Refuses (disk : Disk) (p : Path) : Prop :=
  disk.locate true p = .error .tooManyLinks ∨ disk.locate true p = .error .nameTooLong

instance (disk : Disk) (p : Path) : Decidable (disk.Refuses p) :=
  inferInstanceAs (Decidable (_ ∨ _))

variable {disk disk' : Disk} {root : Node} {followLast : Bool} {links left : Nat} {a address : Address}
  {ps qs : List Bytes} {entries : List (Bytes × Node)} {base q : Path} {start : Path.Start}

/-! ## The search, part by part -/

/-- Behind parts that lead to a place, the search goes on from there, with the links that are left. -/
theorem goFollowing_append (h : Leads root true links address ps (.taken a)) (hqs : qs ≠ []) :
    ∃ left ≤ links, ∀ followLast, goFollowing root followLast links address (ps ++ qs) =
      goFollowing root followLast left a qs := by
  generalize hplace : Place.taken a = place at h
  induction h with
  | done =>
    cases hplace
    exact ⟨_, Nat.le_refl _, fun _ => rfl⟩
  | idle hat hpart rest ih =>
    obtain ⟨left, hleft, hgo⟩ := ih hplace
    refine ⟨left, hleft, fun followLast => ?_⟩
    rw [List.cons_append, goFollowing_cons, hat, ← hgo]
    exact if_pos hpart
  | above hat rest ih =>
    obtain ⟨left, hleft, hgo⟩ := ih hplace
    refine ⟨left, hleft, fun followLast => ?_⟩
    rw [List.cons_append, goFollowing_cons, hat, ← hgo]
    rfl
  | vacant => cases hplace
  | enter hat hpart hentry hnode rest ih =>
    obtain ⟨hidle, habove, hlength⟩ := hpart
    obtain ⟨left, hleft, hgo⟩ := ih hplace
    refine ⟨left, hleft, fun followLast => ?_⟩
    rw [List.cons_append, goFollowing_cons, hat, ← hgo]
    simp only [hidle, habove, hentry, Nat.not_lt.mpr hlength, if_false, Bool.false_eq_true]
  | stay hat hpart hentry hlast => cases hlast
  | follow hat hpart hentry hlast htarget rest ih =>
    obtain ⟨hidle, habove, hlength⟩ := hpart
    obtain ⟨left, hleft, hgo⟩ := ih hplace
    refine ⟨left, Nat.le_succ_of_le hleft, fun followLast => ?_⟩
    rw [List.cons_append, goFollowing_cons, hat, ← hgo]
    simp only [hidle, habove, hentry, Nat.not_lt.mpr hlength, if_false, Bool.false_eq_true, hqs,
      htarget, List.append_eq_nil_iff, and_false, false_and, List.append_assoc]

/-- With more links to follow the search ends at the same place, unless the links were too few. -/
theorem goFollowing_mono (h : left ≤ links) :
    goFollowing root followLast left address ps = goFollowing root followLast links address ps ∨
      goFollowing root followLast left address ps = .error .tooManyLinks := by
  induction left using Nat.strongRecOn generalizing links address ps with
  | ind left hleft =>
  induction ps generalizing address with
  | nil => exact .inl (by rw [goFollowing_nil, goFollowing_nil])
  | cons part ps ih =>
    rw [goFollowing_cons, goFollowing_cons]
    split
    · split
      · exact ih
      split
      · exact ih
      split
      · exact .inl rfl
      split
      · exact .inl rfl
      · split
        · exact .inl rfl
        split
        · exact .inl rfl
        cases left with
        | zero => exact .inr rfl
        | succ left =>
          obtain ⟨links, rfl⟩ : ∃ n, links = n + 1 := ⟨links - 1, by omega⟩
          exact hleft left (Nat.lt_succ_self _) (Nat.le_of_succ_le_succ h)
      · exact ih
    · exact .inl rfl
    · exact .inl rfl

/-- The search ends the same whether a link in the last place is followed or not, or else it finds
something if such a link is not followed. -/
theorem goFollowing_false :
    goFollowing root false links address ps = goFollowing root true links address ps ∨
      ∃ x, goFollowing root false links address ps = .ok (.taken x) := by
  induction links using Nat.strongRecOn generalizing address ps with
  | ind links hlinks =>
  induction ps generalizing address with
  | nil => exact .inr ⟨address, goFollowing_nil⟩
  | cons part ps ih =>
    rw [goFollowing_cons, goFollowing_cons]
    split
    · split
      · exact ih
      split
      · exact ih
      split
      · exact .inl rfl
      split
      · exact .inl rfl
      · by_cases hlast : ps = []
        · exact .inr ⟨_, if_pos ⟨hlast, rfl⟩⟩
        simp only [hlast, false_and, if_false]
        split
        · exact .inl rfl
        cases links with
        | zero => exact .inl rfl
        | succ links => exact hlinks links (Nat.lt_succ_self _)
      · exact ih
    · exact .inl rfl
    · exact .inl rfl

/-- An error in the search does not come from a link in the last place that is not followed. -/
theorem goFollowing_error {e : FileError}
    (h : goFollowing root followLast links address ps = .error e) :
    goFollowing root true links address ps = .error e := by
  cases followLast with
  | true => exact h
  | false =>
    rcases goFollowing_false with hsame | ⟨x, htaken⟩
    · exact hsame.symm.trans h
    · rw [htaken] at h
      cases h

/-- Idle parts lead nowhere else. -/
theorem goFollowing_idle (hat : root.at? a = some (.directory entries))
    (hps : ∀ part ∈ ps, Path.isIdle part) :
    goFollowing root followLast links a ps = .ok (.taken a) := by
  induction ps with
  | nil => exact goFollowing_nil
  | cons part ps ih =>
    obtain ⟨hpart, hrest⟩ := List.forall_mem_cons.mp hps
    rw [goFollowing_cons, hat]
    exact (if_pos hpart).trans (ih hrest)

/-- From idle parts the directory stays the same. -/
theorem Leads.eq_of_idle {x : Address} (h : Leads root followLast links address ps (.taken x))
    (hps : ∀ part ∈ ps, Path.isIdle part) : x = address := by
  generalize hplace : Place.taken x = place at h
  induction h with
  | done => exact Place.taken.inj hplace
  | idle hat hpart rest ih => exact ih (fun part h => hps part (List.mem_cons_of_mem _ h)) hplace
  | above => exact absurd (hps _ List.mem_cons_self) (by decide)
  | vacant => cases hplace
  | enter hat hpart => exact absurd (hps _ List.mem_cons_self) hpart.1
  | stay hat hpart => exact absurd (hps _ List.mem_cons_self) hpart.1
  | follow hat hpart => exact absurd (hps _ List.mem_cons_self) hpart.1

theorem Leads.exists_directory_of_idle {x : Address}
    (h : Leads root followLast links address ps (.taken x)) (hps : ∀ part ∈ ps, Path.isIdle part)
    (hne : ps ≠ []) : ∃ entries, root.at? x = some (.directory entries) := by
  obtain ⟨part, ps, rfl⟩ := List.exists_cons_of_ne_nil hne
  rw [h.eq_of_idle hps]
  exact h.exists_directory

/-! ## What a path names from outside and from inside -/

variable {text : Text} {parts : List Bytes} {followLast : Bool}

theorem pathError?_join (hbase : base.IsBase start parts) (hnone : pathError? base = none)
    (hq : q.bytes ≠ []) (hrelative : ¬q.isAbsolute) :
    pathError? (base.join q) = pathError? q ∨ pathError? (base.join q) = some .nameTooLong := by
  have hbytes : (base.join q).bytes = base.bytes ++ Path.slash :: q.bytes := by
    rw [Path.bytes_join hrelative, Path.lead,
      if_neg (not_or.mpr ⟨hbase.bytes_ne_nil, hbase.getLast?_ne⟩), List.append_assoc,
      List.singleton_append]
  obtain ⟨-, hend, -⟩ := pathError?_eq_none_iff.mp hnone
  have hslash : ¬0 = Path.slash := by decide
  have hends : 0 ∈ (base.join q).bytes ↔ 0 ∈ q.bytes := by
    simp [hbytes, hend, hslash]
  have hlength : q.bytes.length ≤ (base.join q).bytes.length := by
    rw [hbytes, List.length_append, List.length_cons]
    omega
  have hne : (base.join q).bytes ≠ [] := by simp [hbytes]
  unfold pathError?
  rw [if_neg hne, if_neg hq]
  by_cases hnull : 0 ∈ q.bytes
  · exact .inl (by rw [if_pos (hends.mpr hnull), if_pos hnull])
  · rw [if_neg fun h => hnull (hends.mp h), if_neg hnull]
    by_cases hlong : greatestPathLength < (base.join q).bytes.length
    · exact .inr (if_pos hlong)
    · exact .inl (by rw [if_neg hlong, if_neg fun h => hlong (h.trans_le hlength)])

/-- From outside a path leads to the same place as from inside, unless it is refused. -/
theorem locate_join (hbase : base.IsBase start parts)
    (hfind : disk.find? base = some (a, .directory entries)) (hq : q.bytes ≠ []) (followLast : Bool) :
    disk.locate followLast (base.join q) = (disk.enter a).locate followLast q ∨
      disk.Refuses (base.join q) := by
  by_cases habsolute : q.isAbsolute
  · left
    rw [Path.join_of_isAbsolute habsolute, locate, locate, Disk.start, Disk.start,
      if_pos habsolute, if_pos habsolute]
    rfl
  obtain ⟨hnone, hleads⟩ := locate_eq_ok_iff.mp (find?_eq_some_iff.mp hfind).1
  have hstart : Disk.start disk.current (base.join q) = Disk.start disk.current base := by
    rw [Disk.start, Disk.start, Path.isAbsolute_join_relative hbase.bytes_ne_nil habsolute]
  obtain ⟨left, hleft, hgo⟩ := goFollowing_append hleads q.parts_ne_nil
  have hlocate (followLast : Bool) (h : pathError? (base.join q) = none) :
      disk.locate followLast (base.join q) = goFollowing disk.root followLast left a q.parts := by
    rw [locate, h, hstart, hbase.parts_join habsolute]
    exact hgo followLast
  rcases pathError?_join hbase hnone hq habsolute with herror | herror
  · cases hnone' : pathError? q with
    | some e =>
      rw [hnone'] at herror
      exact .inl (by rw [locate, locate, herror, hnone'])
    | none =>
      rw [hnone'] at herror
      have hinside : (disk.enter a).locate followLast q =
          goFollowing disk.root followLast greatestLinkCount a q.parts := by
        rw [locate, hnone', Disk.start, if_neg habsolute]
        rfl
      rw [hlocate followLast herror, hinside]
      refine (goFollowing_mono hleft).imp_right fun hlinks => .inl ?_
      rw [hlocate true herror]
      exact goFollowing_error hlinks
  · exact .inr (.inr (by rw [locate, herror]))

theorem find?_of_refuses (h : disk.Refuses q) : disk.find? q = none := by
  unfold find?
  rcases h with h | h <;> rw [h]

/-- So the same is found, if what is found from inside is not refused from outside. -/
theorem find?_join_eq (hbase : base.IsBase start parts)
    (hfind : disk.find? base = some (a, .directory entries)) (hq : q.bytes ≠ [])
    (hlimits : (disk.enter a).contains q → ¬disk.Refuses (base.join q)) :
    disk.find? (base.join q) = (disk.enter a).find? q := by
  rcases locate_join hbase hfind hq true with hlocate | hrefuses
  · rw [find?, find?, hlocate]
    rfl
  · rw [find?_of_refuses hrefuses]
    by_contra hne
    have hcontains : (disk.enter a).contains q :=
      Option.isSome_iff_ne_none.mpr fun h => hne h.symm
    exact hlimits hcontains hrefuses

theorem isDirectory_of_find?_eq {p : Path} (h : disk.find? p = disk'.find? q) :
    disk.isDirectory p = disk'.isDirectory q := by
  rw [isDirectory, isDirectory, h]

/-- A base names the directory that it leads to with idle parts behind it. -/
theorem find?_of_parts_append {d : Path} {idles : List Bytes} (hbase : base.IsBase start parts)
    (hd : ¬d.isAbsolute) (hfind : disk.find? d = some (a, .directory entries))
    (hparts : d.parts = base.parts ++ idles) (hidle : ∀ part ∈ idles, Path.isIdle part) :
    disk.find? base = some (a, .directory entries) := by
  obtain ⟨hlocate, hat⟩ := find?_eq_some_iff.mp hfind
  obtain ⟨hnone, hleads⟩ := locate_eq_ok_iff.mp hlocate
  rw [Disk.start, if_neg hd] at hleads
  have hboth : pathError? base = none ∧
      Leads disk.root true greatestLinkCount disk.current base.parts (.taken a) := by
    by_cases hnil : idles = []
    · rw [hnil, List.append_nil] at hparts
      have hsame : d = base := by
        have hbytes : d.bytes = base.bytes := by
          rw [Path.bytes_eq_intercalate, hparts, ← Path.bytes_eq_intercalate]
        exact congrArg Path.mk hbytes
      exact ⟨hsame ▸ hnone, hparts ▸ hleads⟩
    · have hprefix : base.bytes <+: d.bytes := ⟨_, (Path.bytes_of_parts_append hparts hnil).symm⟩
      rw [hparts] at hleads
      obtain ⟨y, listed, left, hy, hlisted, hleft⟩ := hleads.split hnil
      cases hleft.eq_of_idle hidle
      exact ⟨pathError?_of_piece hbase.bytes_ne_nil hprefix.isInfix hnone, hy⟩
  refine find?_eq_some_iff.mpr ⟨locate_eq_ok_iff.mpr ⟨hboth.1, ?_⟩, hat⟩
  rw [Disk.start, if_neg hbase.not_isAbsolute]
  exact hboth.2

/-- What a directory has under a name is found by that name from inside. -/
theorem readBytes_inside {d : Path} {f : Bytes} {bytes : ByteArray}
    (hfind : disk.find? d = some (a, .directory entries)) (hf : IsName f)
    (hread : disk.readBytes (d.join ⟨f⟩) = .ok bytes) :
    (disk.enter a).readBytes ⟨f⟩ = .ok bytes := by
  have hne := bytes_ne_nil_of_find? hfind
  obtain ⟨x, hfile⟩ := readBytes_eq_ok_iff.mp hread
  obtain ⟨hlocate, hat⟩ := find?_eq_some_iff.mp hfile
  obtain ⟨hnone, hleads⟩ := locate_eq_ok_iff.mp hlocate
  obtain ⟨-, hleads'⟩ := locate_eq_ok_iff.mp (find?_eq_some_iff.mp hfind).1
  obtain ⟨ps, hps, hparts⟩ := Path.exists_parts_join hne hf.2.2
  have hstart : Disk.start disk.current (d.join ⟨f⟩) = Disk.start disk.current d := by
    rw [Disk.start, Disk.start, Path.isAbsolute_join hne hf.2.2]
  rw [hparts, hstart] at hleads
  -- The parts in front of the name lead to the directory.
  have hdir : Leads disk.root true greatestLinkCount (Disk.start disk.current d) ps (.taken a) := by
    obtain ⟨y, listed, -, hy, hlisted, -⟩ := hleads.split (List.cons_ne_nil _ _)
    have hsame : Leads disk.root true greatestLinkCount (Disk.start disk.current d) d.parts
        (.taken y) := by
      rcases hps with hps | hps
      · exact hps ▸ hy
      · exact hps ▸ hy.concat_nil hlisted
    have heq := hsame.goFollowing_eq.symm.trans hleads'.goFollowing_eq
    cases heq
    exact hy
  obtain ⟨left, hleft, hgo⟩ := goFollowing_append hdir (List.cons_ne_nil f [])
  have hok := hleads.goFollowing_eq
  rw [hgo] at hok
  have hinside : goFollowing disk.root true greatestLinkCount a [f] = .ok (.taken x) := by
    rcases goFollowing_mono hleft with h | h
    · exact h.symm.trans hok
    · rw [h] at hok
      cases hok
  have hparts' : (⟨f⟩ : Path).parts = [f] := List.splitOn_eq_singleton hf.2.2
  have hsuffix : f <:+ (d.join ⟨f⟩).bytes :=
    ⟨d.lead, (Path.bytes_join (Path.not_isAbsolute_of_notMem hf.2.2)).symm⟩
  have hnone' : pathError? ⟨f⟩ = none :=
    pathError?_of_piece (Path.ne_nil_of_isName hf) hsuffix.isInfix hnone
  refine readBytes_eq_ok_iff.mpr ⟨x, find?_eq_some_iff.mpr ⟨?_, hat⟩⟩
  rw [locate, hnone', Disk.start, if_neg (Path.not_isAbsolute_of_notMem hf.2.2), hparts']
  exact hinside

/-! ## Directories -/

/-- Makes a directory unless there is one. -/
def makeUnlessThere (disk : Disk) (p : Path) : Disk × Except FileError Unit :=
  match disk.makeDirectory p with
  | .ok disk => (disk, .ok ())
  | .error e => if disk.isDirectory p then (disk, .ok ()) else (disk, .error e)

/-- Makes a directory unless there is one, if nothing has failed before. -/
def makeAfter (p : Path) : Disk × Except FileError Unit → Disk × Except FileError Unit
  | (disk, .error e) => (disk, .error e)
  | (disk, .ok ()) => disk.makeUnlessThere p

variable {p : Path} {n m : Nat}

theorem makeDirectoriesWithin_succ (hp : p.bytes ≠ [])
    (h : disk.makeDirectory p ≠ .error .absent) :
    makeDirectoriesWithin (n + 1) disk p = disk.makeUnlessThere p := by
  rw [makeDirectoriesWithin, if_neg hp, makeUnlessThere]
  cases hmake : disk.makeDirectory p with
  | ok disk => rfl
  | error e =>
    cases e with
    | absent => exact absurd hmake h
    | _ => rfl

/-- If the directory above is not there, it is made first. -/
theorem makeDirectoriesWithin_succ_of_absent (hp : p.bytes ≠ [])
    (h : disk.makeDirectory p = .error .absent) :
    makeDirectoriesWithin (n + 1) disk p =
      match p.parent? with
      | none => (disk, .error .absent)
      | some parent => makeAfter p (makeDirectoriesWithin n disk parent) := by
  rw [makeDirectoriesWithin, if_neg hp, h]
  rfl

theorem locate_error {e : FileError} (h : disk.locate followLast p = .error e) :
    disk.locate true p = .error e := by
  unfold locate at h ⊢
  cases hnone : pathError? p with
  | some e' =>
    rw [hnone] at h
    exact h
  | none =>
    rw [hnone] at h
    exact goFollowing_error h

/-- Where a path is refused, no directory is made. -/
theorem makeDirectory_of_refuses (hslash : withoutSlashes p = p) (h : disk.Refuses p) :
    ∃ e, disk.makeDirectory p = .error e ∧ e ≠ .absent := by
  unfold makeDirectory create
  rw [hslash]
  cases hlocate : disk.locate false p with
  | error e =>
    refine ⟨e, rfl, ?_⟩
    rintro rfl
    rcases h with h | h <;> rw [locate_error hlocate] at h <;> cases h
  | ok place =>
    cases place with
    | taken x => exact ⟨_, rfl, nofun⟩
    | vacant x =>
      obtain ⟨herror, hleads⟩ := locate_eq_ok_iff.mp hlocate
      have hvacant := locate_eq_ok_iff.mpr ⟨herror, hleads.following⟩
      rcases h with h | h <;> rw [hvacant] at h <;> cases h

theorem makeUnlessThere_of_refuses (hslash : withoutSlashes p = p) (h : disk.Refuses p) :
    ∃ e, disk.makeUnlessThere p = (disk, .error e) := by
  obtain ⟨e, hmake, -⟩ := makeDirectory_of_refuses hslash h
  have hdir : disk.isDirectory p = false := by
    rw [isDirectory, find?_of_refuses h]
  refine ⟨e, ?_⟩
  rw [makeUnlessThere, hmake, hdir]
  rfl

/-- Where it is not refused, a directory is made from outside as it is from inside. -/
theorem makeDirectory_join (hbase : base.IsBase start parts)
    (hfind : disk.find? base = some (a, .directory entries)) (hq : q.bytes ≠ [])
    (hslash : withoutSlashes q = q) (hslash' : withoutSlashes (base.join q) = base.join q)
    (h : ¬disk.Refuses (base.join q)) :
    (disk.enter a).makeDirectory q = (disk.makeDirectory (base.join q)).map (·.enter a) := by
  have hlocate := (locate_join hbase hfind hq false).resolve_right h
  rw [makeDirectory, makeDirectory, create, create, hslash, hslash', hlocate]
  rcases (disk.enter a).locate false q with e | x | x <;> rfl

theorem pathError?_ne_absent (hp : p.bytes ≠ []) : pathError? p ≠ some .absent := by
  unfold pathError?
  rw [if_neg hp]
  split
  · nofun
  · split <;> nofun

/-- Nothing is missing on the way along idle parts. -/
theorem locate_idle_ne_absent {rest : List Bytes} {front : Path.Start}
    (hat : disk.root.at? a = some (.directory entries)) (hq : q.HasParts front rest)
    (hfront : front ≠ .root) (hrest : Path.trimEnd rest = []) (hbytes : q.bytes ≠ [])
    (followLast : Bool) :
    (disk.enter a).locate followLast q = .ok (.taken a) ∨
      ∃ e, (disk.enter a).locate followLast q = .error e ∧ e ≠ .absent := by
  have hidle : ∀ part ∈ q.parts, Path.isIdle part := by
    rw [hq.parts]
    exact Path.Start.forall_isIdle_parts_append (Path.trimEnd_eq_nil_iff.mp hrest)
  have hrelative : ¬q.isAbsolute := fun h => hfront (hq.isAbsolute_iff.mp h)
  rw [locate, Disk.start, if_neg hrelative]
  cases herror : pathError? q with
  | none => exact .inl (goFollowing_idle hat hidle)
  | some e =>
    refine .inr ⟨e, rfl, ?_⟩
    rintro rfl
    exact pathError?_ne_absent hbytes herror

theorem makeDirectory_ne_absent_of_idle {rest : List Bytes} {front : Path.Start}
    (hat : disk.root.at? a = some (.directory entries)) (hq : q.HasParts front rest)
    (hfront : front ≠ .root) (hrest : Path.trimEnd rest = []) (hbytes : q.bytes ≠ [])
    (hslash : withoutSlashes q = q) :
    (disk.enter a).makeDirectory q ≠ .error .absent := by
  rw [makeDirectory, create, hslash]
  rcases locate_idle_ne_absent hat hq hfront hrest hbytes false with h | ⟨e, h, he⟩
  · rw [h]
    intro habsent
    cases habsent
  · rw [h]
    exact fun habsent => he (Except.error.inj habsent)

/-- What came of an attempt to make something at a path from outside and from inside: the same, or
the attempt from outside failed and the path, or one above it, is refused. -/
def SameMade (a : Address) (p : Path) (outside inside : Disk × Except FileError Unit) : Prop :=
  (∃ e q, outside.2 = .error e ∧ (q = p ∨ q.IsAbove p) ∧ outside.1.Refuses q) ∨
    inside = (outside.1.enter a, outside.2)

theorem makeUnlessThere_join (hbase : base.IsBase start parts)
    (hfind : disk.find? base = some (a, .directory entries)) (hq : q.bytes ≠ [])
    (hslash : withoutSlashes q = q) (hslash' : withoutSlashes (base.join q) = base.join q) :
    SameMade a (base.join q) (disk.makeUnlessThere (base.join q))
      ((disk.enter a).makeUnlessThere q) := by
  by_cases hrefuses : disk.Refuses (base.join q)
  · obtain ⟨e, hmake⟩ := makeUnlessThere_of_refuses hslash' hrefuses
    rw [hmake]
    exact .inl ⟨e, _, rfl, .inl rfl, hrefuses⟩
  · have hdir : disk.isDirectory (base.join q) = (disk.enter a).isDirectory q :=
      isDirectory_of_find?_eq (find?_join_eq hbase hfind hq fun _ => hrefuses)
    right
    rw [makeUnlessThere, makeUnlessThere, makeDirectory_join hbase hfind hq hslash hslash' hrefuses,
      hdir]
    cases disk.makeDirectory (base.join q) with
    | ok made => rfl
    | error e =>
      dsimp only [Except.map]
      split <;> rfl

/-- From inside, the directory itself is there. -/
theorem makeDirectoriesWithin_self (hat : disk.root.at? a = some (.directory entries))
    (hq : q.bytes = [] ∨ q.bytes = [Path.dot]) (n : Nat) :
    makeDirectoriesWithin (n + 1) (disk.enter a) q = (disk.enter a, .ok ()) := by
  obtain ⟨text⟩ := q
  rcases hq with rfl | rfl
  · rfl
  · have hlocate : (disk.enter a).locate true ⟨[Path.dot]⟩ = .ok (.taken a) :=
      goFollowing_idle hat (List.forall_mem_singleton.mpr rfl)
    have hfind := find?_eq_some_iff.mpr ⟨hlocate, hat⟩
    exact makeDirectoriesWithin_of_isDirectory n (isDirectory_iff.mpr ⟨a, entries, hfind⟩) rfl

/-- What is above the path has been made from outside and from inside. -/
theorem SameMade.makeAfter {above : Path} {outside inside : Disk × Except FileError Unit}
    (h : SameMade a above outside inside) (hbase : base.IsBase start parts)
    (hfind : outside.1.find? base = some (a, .directory entries)) (hq : q.bytes ≠ [])
    (hslash : withoutSlashes q = q) (hslash' : withoutSlashes (base.join q) = base.join q)
    (hparent : (base.join q).parent? = some above) :
    SameMade a (base.join q) (Disk.makeAfter (base.join q) outside) (Disk.makeAfter q inside) := by
  obtain ⟨disk, result⟩ := outside
  rcases h with ⟨e, p, rfl, hp, hrefuses⟩ | rfl
  · exact .inl ⟨e, p, rfl, .inr (Path.isAbove_of_parent? hparent hp), hrefuses⟩
  · cases result with
    | error e => exact .inr rfl
    | ok _ => exact makeUnlessThere_join hbase hfind hq hslash hslash'

/-- Directories are made from outside as they are from inside, unless a path is refused. -/
theorem makeDirectoriesWithin_join (hbase : base.IsBase start parts)
    (hfind : disk.find? base = some (a, .directory entries)) (hq : q.bytes ≠ [])
    (hslash : withoutSlashes q = q) (hslash' : withoutSlashes (base.join q) = base.join q)
    (hn : q.bytes.length < n) (hm : (base.join q).bytes.length < m) :
    SameMade a (base.join q) (makeDirectoriesWithin m disk (base.join q))
      (makeDirectoriesWithin n (disk.enter a) q) := by
  -- What is above has a shorter path, both from outside and from inside.
  induction n generalizing m q with
  | zero => cases hn
  | succ n ih =>
    have hne := Path.bytes_join_ne_nil (p := base) hq
    have hpos := List.length_pos_iff.mpr hq
    have hpos' := List.length_pos_iff.mpr hne
    obtain ⟨m, rfl⟩ : ∃ k, m = k + 1 := ⟨m - 1, by omega⟩
    by_cases hrefuses : disk.Refuses (base.join q)
    · obtain ⟨e, hmake, hnot⟩ := makeDirectory_of_refuses hslash' hrefuses
      obtain ⟨e', hthere⟩ := makeUnlessThere_of_refuses hslash' hrefuses
      rw [makeDirectoriesWithin_succ hne (by rw [hmake]; exact fun h => hnot (Except.error.inj h)),
        hthere]
      exact .inl ⟨e', _, rfl, .inl rfl, hrefuses⟩
    have hmake := makeDirectory_join hbase hfind hq hslash hslash' hrefuses
    cases houtside : disk.makeDirectory (base.join q) with
    | ok made =>
      rw [houtside] at hmake
      rw [makeDirectoriesWithin_succ hne (by rw [houtside]; nofun),
        makeDirectoriesWithin_succ hq (by rw [hmake]; nofun)]
      exact makeUnlessThere_join hbase hfind hq hslash hslash'
    | error e =>
      rw [houtside] at hmake
      by_cases habsent : e = .absent
      · subst habsent
        rw [makeDirectoriesWithin_succ_of_absent hne houtside,
          makeDirectoriesWithin_succ_of_absent hq hmake]
        cases hbase.above hq with
        | root hparent hjoin =>
          rw [hparent, hjoin]
          exact .inr rfl
        | base hparent hr hjoin =>
          obtain ⟨n, rfl⟩ : ∃ k, n = k + 1 := ⟨n - 1, by omega⟩
          obtain ⟨m, rfl⟩ : ∃ k, m = k + 1 := ⟨m - 1, by omega⟩
          have hdir := isDirectory_iff.mpr ⟨a, entries, hfind⟩
          rw [hparent, hjoin]
          dsimp only
          rw [makeDirectoriesWithin_of_isDirectory m hdir (withoutSlashes_of_parent? hjoin),
            makeDirectoriesWithin_self (find?_eq_some_iff.mp hfind).2 hr n]
          exact makeUnlessThere_join hbase hfind hq hslash hslash'
        | join hparent hr hjoin =>
          have hlength := Path.length_parent?_lt hparent
          have hlength' := Path.length_parent?_lt hjoin
          have hmade := ih hr (withoutSlashes_of_parent? hparent) (withoutSlashes_of_parent? hjoin)
            (m := m) (by omega) (by omega)
          rw [hparent, hjoin]
          dsimp only
          obtain ⟨entries', hfind'⟩ := (makeDirectoriesWithin_spec rfl).1.find?_directory hfind
          exact hmade.makeAfter hbase hfind' hq hslash hslash' hjoin
        | idle hparts hfront hidle =>
          exact absurd hmake (makeDirectory_ne_absent_of_idle (find?_eq_some_iff.mp hfind).2 hparts
            hfront hidle hq hslash)
      · rw [makeDirectoriesWithin_succ hne (by rw [houtside]; simpa using habsent),
          makeDirectoriesWithin_succ hq (by rw [hmake]; simpa [Except.map] using habsent)]
        exact makeUnlessThere_join hbase hfind hq hslash hslash'

/-- Above a relative path that leads somewhere there is a directory, as far as it has a path. -/
theorem isDirectory_above {front : Path.Start} {rest : List Bytes} (hq : q.HasParts front rest)
    (hfront : front ≠ .root) (h : disk.contains q) (hparent : q.parent? = some p)
    (hp : p.bytes ≠ []) : disk.isDirectory p := by
  obtain ⟨⟨x, node⟩, hfind⟩ := Option.isSome_iff_exists.mp h
  obtain ⟨hnone, hleads⟩ := locate_eq_ok_iff.mp (find?_eq_some_iff.mp hfind).1
  have habove := hq.isBase_above hfront hparent hp
  have hrest : Path.trimEnd rest ≠ [] := by
    intro hnil
    rw [hq.parent?_of_idle hnil, hq.eq_dot_of_idle hfront hnil] at hparent
    cases hparent
    exact hp rfl
  obtain ⟨more, hmore, part, hpart, -⟩ := Path.exists_parts_above hrest
  have hne := List.ne_nil_of_mem hpart
  have hparts : q.parts = p.parts ++ more := by
    rw [hq.parts, habove.hasParts.parts, List.append_assoc, ← hmore]
  have hprefix : p.bytes <+: q.bytes := ⟨_, (Path.bytes_of_parts_append hparts hne).symm⟩
  rw [hparts] at hleads
  obtain ⟨y, entries, -, hy, hentries, -⟩ := hleads.split hne
  have hstart : Disk.start disk.current q = Disk.start disk.current p := by
    rw [Disk.start, Disk.start, if_neg habove.not_isAbsolute,
      if_neg fun habsolute => hfront (hq.isAbsolute_iff.mp habsolute)]
  rw [hstart] at hy
  have hnone' := pathError?_of_piece hp hprefix.isInfix hnone
  exact isDirectory_iff.mpr ⟨y, entries,
    find?_eq_some_iff.mpr ⟨locate_eq_ok_iff.mpr ⟨hnone', hy⟩, hentries⟩⟩

/-! ## Files -/

theorem writeBytes_of_refuses (bytes : ByteArray) (h : disk.Refuses p) :
    ∃ e, disk.writeBytes p bytes = .error e := by
  rcases h with h | h <;> exact ⟨_, by rw [writeBytes, h]⟩

theorem writeBytes_join (hbase : base.IsBase start parts)
    (hfind : disk.find? base = some (a, .directory entries)) (hq : q.bytes ≠ [])
    (h : ¬disk.Refuses (base.join q)) (bytes : ByteArray) :
    (disk.enter a).writeBytes q bytes = (disk.writeBytes (base.join q) bytes).map (·.enter a) := by
  have hlocate := (locate_join hbase hfind hq true).resolve_right h
  have hroot : (disk.enter a).root = disk.root := rfl
  rw [writeBytes, writeBytes, hlocate, hroot]
  rcases (disk.enter a).locate true q with e | x | x
  · rfl
  · dsimp only
    rcases disk.root.at? x with _ | bytes' | entries | target <;> rfl
  · rfl

end Disk

namespace Build

open Disk

variable {disk : Disk} {a : Address} {entries : List (Bytes × Node)} {base output : Path}
  {start : Path.Start} {parts : List Bytes}

theorem makeParent_of_parent? {parent : Path} (h : output.parent? = some parent)
    (hne : parent.bytes ≠ []) : makeParent disk output = disk.makeDirectories parent := by
  rw [makeParent, h]
  exact if_neg hne

theorem makeParent_of_empty {parent : Path} (h : output.parent? = some parent)
    (hnil : parent.bytes = []) : makeParent disk output = (disk, .ok ()) := by
  rw [makeParent, h]
  exact if_pos hnil

/-- The directories for a file are made from outside as they are from inside. -/
theorem makeParent_join (hbase : base.IsBase start parts)
    (hfind : disk.find? base = some (a, .directory entries)) (hq : output.bytes ≠ []) :
    SameMade a (base.join output) (makeParent disk (base.join output))
      (makeParent (disk.enter a) output) := by
  have hdir := isDirectory_iff.mpr ⟨a, entries, hfind⟩
  cases hbase.above hq with
  | root hparent hjoin =>
    rw [makeParent, makeParent, hparent, hjoin]
    exact .inr rfl
  | @base parent hparent hr hjoin =>
    rw [makeParent_of_parent? hjoin hbase.bytes_ne_nil,
      makeDirectories_of_isDirectory hdir (withoutSlashes_of_parent? hjoin)]
    right
    by_cases hnil : parent.bytes = []
    · exact makeParent_of_empty hparent hnil
    · rw [makeParent_of_parent? hparent hnil]
      exact makeDirectoriesWithin_self (find?_eq_some_iff.mp hfind).2 hr _
  | join hparent hr hjoin =>
    rw [makeParent_of_parent? hparent hr, makeParent_of_parent? hjoin (Path.bytes_join_ne_nil hr)]
    rcases makeDirectoriesWithin_join hbase hfind hr (withoutSlashes_of_parent? hparent)
      (withoutSlashes_of_parent? hjoin) (Nat.lt_succ_self _) (Nat.lt_succ_self _) with
      ⟨e, p, he, hp, hrefuses⟩ | hsame
    · exact .inl ⟨e, p, he, .inr (Path.isAbove_of_parent? hjoin hp), hrefuses⟩
    · exact .inr hsame
  | @idle front rest hparts hfront hidle =>
    have hparent : output.parent? = some ⟨[]⟩ := by
      rw [hparts.parent?_of_idle hidle, hparts.eq_dot_of_idle hfront hidle]
      rfl
    rw [makeParent_of_empty hparent rfl, makeParent_of_hasParent]
    · exact .inr rfl
    · intro parent hjoin hne
      rw [hbase.parent?_join_of_idle hparts hfront hidle] at hjoin
      exact isDirectory_above hbase.hasParts hbase.relative (contains_of_isDirectory hdir) hjoin hne

/-- A text is written from outside as it is from inside, unless a path is refused. -/
theorem writeText_join (hbase : base.IsBase start parts)
    (hfind : disk.find? base = some (a, .directory entries)) (hq : output.bytes ≠ [])
    (text : Text) :
    SameMade a (base.join output) (writeText disk (base.join output) text)
      (writeText (disk.enter a) output text) := by
  have hmade := makeParent_join hbase hfind hq
  unfold writeText
  cases hparent : makeParent disk (base.join output) with
  | mk between result =>
  rw [hparent] at hmade
  rcases hmade with ⟨e, p, rfl, hp, hrefuses⟩ | hsame
  · exact .inl ⟨e, p, rfl, hp, hrefuses⟩
  rw [hsame]
  cases result with
  | error e => exact .inr rfl
  | ok _ =>
    obtain ⟨entries', hfind'⟩ := (makeParent_spec hparent).1.find?_directory hfind
    dsimp only
    by_cases hrefuses : between.Refuses (base.join output)
    · obtain ⟨e, he⟩ := writeBytes_of_refuses text.utf8 hrefuses
      rw [he]
      exact .inl ⟨e, _, rfl, .inl rfl, hrefuses⟩
    · rw [writeBytes_join hbase hfind' hq hrefuses text.utf8]
      cases between.writeBytes (base.join output) text.utf8 with
      | error e => exact .inr rfl
      | ok written => exact .inr rfl

end Build

end ClassSheet
