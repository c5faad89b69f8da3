import ClassSheet.Files.Disk
import ClassSheet.Proofs.Text.Words

/-!
# The parts of joined paths

* `Path.slash_notMem_of_mem_parts`: the parts of a path hold no slash.
* `Path.exists_parts_join`: a path with a name behind it has that name for its last part.
* `Disk.withoutSlashes_of_parent?`: the path above another one does not end with a slash, unless it
  is the root.
-/

namespace ClassSheet

namespace Path

variable {p q : Path} {part name : Bytes} {parts : List Bytes}

theorem slash_notMem_of_mem_parts (h : part ∈ p.parts) : slash ∉ part := by
  intro hslash
  have := Text.eq_false_of_mem_splitOnP h slash hslash
  simp at this

theorem parts_ne_nil (p : Path) : p.parts ≠ [] := List.splitOn_ne_nil _ _

/-! ## Joined paths -/

theorem join_name (hname : slash ∉ name) :
    p.join ⟨name⟩ = if p.bytes = [] ∨ p.bytes.getLast? = some slash then ⟨p.bytes ++ name⟩
      else ⟨p.bytes ++ slash :: name⟩ := by
  rw [join, if_neg]
  intro h
  exact hname (List.mem_of_mem_head? (by simpa [isAbsolute] using h))

theorem prefix_join (hname : slash ∉ name) : p.bytes <+: (p.join ⟨name⟩).bytes := by
  rw [join_name hname]
  split <;> exact List.prefix_append _ _

theorem isAbsolute_join (hp : p.bytes ≠ []) (hname : slash ∉ name) :
    (p.join ⟨name⟩).isAbsolute = p.isAbsolute := by
  obtain ⟨rest, hrest⟩ := prefix_join (p := p) hname
  rw [isAbsolute, isAbsolute, ← hrest]
  cases hbytes : p.bytes with
  | nil => exact absurd hbytes hp
  | cons c s => rfl

/-- A slash at the end of a path is an empty part, in whose place the name is. -/
theorem exists_parts_join (hp : p.bytes ≠ []) (hname : slash ∉ name) :
    ∃ parts, (p.parts = parts ∨ p.parts = parts ++ [[]]) ∧
      (p.join ⟨name⟩).parts = parts ++ [name] := by
  have hlast : name.splitOn slash = [name] := List.splitOn_eq_singleton hname
  have happend (s t : Bytes) : (s ++ slash :: t).splitOn slash = s.splitOn slash ++ t.splitOn slash :=
    List.splitOnP_append_cons s t (by simp)
  rw [join_name hname]
  by_cases hend : p.bytes.getLast? = some slash
  · obtain ⟨s, hs⟩ := List.getLast?_eq_some_iff.mp hend
    refine ⟨s.splitOn slash, .inr ?_, ?_⟩
    · rw [Path.parts, hs, happend]
      rfl
    · rw [if_pos (.inr hend), Path.parts, hs, List.append_assoc, List.singleton_append, happend,
        hlast]
  · refine ⟨p.parts, .inl rfl, ?_⟩
    rw [if_neg (not_or.mpr ⟨hp, hend⟩), Path.parts, happend, hlast, Path.parts]

/-! ## The path above -/

theorem exists_getLast?_intercalate (hslash : ∀ part ∈ parts, slash ∉ part)
    (hlast : ∃ last, parts.getLast? = some last ∧ last ≠ []) :
    ∃ c, ([slash].intercalate parts).getLast? = some c ∧ c ≠ slash := by
  induction parts with
  | nil => simp at hlast
  | cons part parts ih =>
    cases parts with
    | nil =>
      obtain ⟨last, hpart, hne⟩ := hlast
      rw [List.getLast?_singleton, Option.some.injEq] at hpart
      subst hpart
      refine ⟨part.getLast hne, ?_, fun e => ?_⟩
      · rw [List.intercalate_singleton, List.getLast?_eq_some_getLast hne]
      · exact hslash part List.mem_cons_self (e ▸ List.getLast_mem hne)
    | cons next parts =>
      rw [List.getLast?_cons_cons] at hlast
      obtain ⟨c, hc, hne⟩ := ih (fun part h => hslash part (List.mem_cons_of_mem _ h)) hlast
      refine ⟨c, ?_, hne⟩
      rw [List.intercalate_cons_cons, List.getLast?_append, hc]
      rfl

theorem mem_of_mem_trimEnd (h : part ∈ trimEnd parts) : part ∈ parts := by
  rw [trimEnd, List.mem_reverse] at h
  exact List.mem_reverse.mp ((List.dropWhile_sublist _).subset h)

/-- What is left after the idle parts are gone ends with a part that is not idle. -/
theorem trimEnd_eq_nil_or (parts : List Bytes) :
    trimEnd parts = [] ∨ ∃ last, (trimEnd parts).getLast? = some last ∧ last ≠ [] := by
  rw [trimEnd, List.reverse_eq_nil_iff, List.getLast?_reverse]
  have hhead := List.head?_dropWhile_not isIdle parts.reverse
  cases hparts : parts.reverse.dropWhile isIdle with
  | nil => exact .inl rfl
  | cons last rest =>
    rw [hparts] at hhead
    refine .inr ⟨last, rfl, ?_⟩
    rintro rfl
    simp [isIdle] at hhead

theorem mem_parts_of_mem_split (h : part ∈ p.split.2) : part ∈ p.parts := by
  unfold split at h
  split at h
  · rename_i first parts hparts
    rw [hparts]
    exact List.mem_cons_of_mem _ (mem_of_mem_trimEnd h)
  · rename_i parts hparts
    rw [hparts]
    exact List.mem_cons_of_mem _ (mem_of_mem_trimEnd h)
  · exact mem_of_mem_trimEnd h

end Path

namespace Disk

variable {p q : Path}

theorem pathError?_eq_none_iff :
    pathError? p = none ↔
      p.bytes ≠ [] ∧ 0 ∉ p.bytes ∧ p.bytes.length ≤ greatestPathLength := by
  unfold pathError?
  by_cases hnil : p.bytes = []
  · simp [hnil]
  by_cases hend : 0 ∈ p.bytes
  · simp [hnil, hend]
  by_cases hlength : greatestPathLength < p.bytes.length
  · simp [hnil, hend, hlength]
  · simp [hnil, hend, hlength, Nat.le_of_not_lt hlength]

/-- A piece of a path that can name something can name something itself. -/
theorem pathError?_of_piece (hp : p.bytes ≠ []) (hpiece : p.bytes <:+: q.bytes)
    (h : pathError? q = none) : pathError? p = none := by
  obtain ⟨-, hend, hlength⟩ := pathError?_eq_none_iff.mp h
  refine pathError?_eq_none_iff.mpr ⟨hp, fun hmem => hend (hpiece.subset hmem), ?_⟩
  obtain ⟨front, rest, hbytes⟩ := hpiece
  rw [← hbytes, List.length_append, List.length_append] at hlength
  omega

/-- A path below which something can be named can name something itself. -/
theorem pathError?_of_join (hp : p.bytes ≠ []) {name : Bytes} (hname : Path.slash ∉ name)
    (h : pathError? (p.join ⟨name⟩) = none) : pathError? p = none :=
  pathError?_of_piece hp (Path.prefix_join hname).isInfix h

/-! ## The path above, as a directory is made there -/

theorem withoutSlashes_eq_self (h : p.bytes.getLast? ≠ some Path.slash) : withoutSlashes p = p := by
  have hdrop : (p.bytes.reverse.dropWhile (· == Path.slash)).reverse = p.bytes := by
    rw [← List.head?_reverse] at h
    cases hbytes : p.bytes.reverse with
    | nil => simpa using hbytes.symm
    | cons c rest =>
      rw [hbytes] at h
      have hc : (c == Path.slash) = false := by simpa using h
      rw [List.dropWhile_cons_of_neg (by simp [hc]), ← hbytes, List.reverse_reverse]
  rw [withoutSlashes, hdrop]
  split
  · rfl
  · rfl

/-- A path ends with its last part. -/
theorem withoutSlashes_ofSplit (start : Path.Start) (parts : List Bytes)
    (hslash : ∀ part ∈ parts, Path.slash ∉ part)
    (hlast : parts = [] ∨ ∃ last, parts.getLast? = some last ∧ last ≠ []) :
    withoutSlashes (Path.ofSplit start parts) = Path.ofSplit start parts := by
  rcases hlast with rfl | ⟨last, hlast, hne⟩
  · cases start <;> rfl
  obtain ⟨c, hc, hslash'⟩ := Path.exists_getLast?_intercalate hslash ⟨last, hlast, hne⟩
  have hend : (Path.ofSplit start parts).bytes.getLast? = some c := by
    cases start with
    | root => rw [Path.ofSplit, List.getLast?_cons, hc, Option.getD_some]
    | dot =>
      cases parts with
      | nil => cases hlast
      | cons part parts =>
        rw [Path.ofSplit, List.intercalate_cons_cons, List.getLast?_append, hc, Option.some_or]
    | none => exact hc
  refine withoutSlashes_eq_self fun hend' => hslash' ?_
  rwa [hend, Option.some.injEq] at hend'

theorem withoutSlashes_of_parent? (h : p.parent? = some q) : withoutSlashes q = q := by
  have hslash : ∀ part ∈ p.split.2, Path.slash ∉ part := fun part hpart =>
    Path.slash_notMem_of_mem_parts (Path.mem_parts_of_mem_split hpart)
  unfold Path.parent? at h
  split at h
  · cases h
    rfl
  · cases h
  · rename_i start parts _ hsplit
    rw [hsplit] at hslash
    cases h
    refine withoutSlashes_ofSplit _ _ (fun part hpart => ?_) (Path.trimEnd_eq_nil_or _)
    exact hslash part (List.dropLast_subset _ (Path.mem_of_mem_trimEnd hpart))

end Disk

end ClassSheet
