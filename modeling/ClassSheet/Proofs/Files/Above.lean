import ClassSheet.Proofs.Files.Joined
import Mathlib.Data.List.TakeWhile

/-!
# The path above, part by part

* `Path.trimEnd_append_of_idle`, `Path.trimEnd_append`: where the idle parts at the end are.
* `Path.HasParts`: how a path begins, and its parts behind that beginning.
* `Path.HasParts.parent?_eq`: the path above, in those terms.
* `Path.length_parent?_lt`: the path above is shorter.
* `Path.IsBase`: relative paths as the paths above others are written.
* `Path.exists_isBase_of_join`: what is above a name in a directory is the path of the directory.
* `Path.IsBase.above`: the paths above a path that is taken from a base.
* `Path.getLast?_split`: the last part of a path is its last part that is not idle.
-/

namespace ClassSheet.Path

variable {p q : Path} {part : Bytes} {ps qs rest idles : List Bytes} {start : Start}

/-! ## Idle parts at the end -/

theorem trimEnd_append_of_idle (h : ∀ part ∈ idles, isIdle part) :
    trimEnd (ps ++ idles) = trimEnd ps := by
  rw [trimEnd, trimEnd, List.reverse_append,
    List.dropWhile_append_of_pos fun part hpart => h part (List.mem_reverse.mp hpart)]

theorem trimEnd_eq_nil_iff : trimEnd ps = [] ↔ ∀ part ∈ ps, isIdle part := by
  simp [trimEnd, List.dropWhile_eq_nil_iff]

theorem trimEnd_append (h : trimEnd qs ≠ []) : trimEnd (ps ++ qs) = ps ++ trimEnd qs := by
  have hne : (qs.reverse.dropWhile isIdle).isEmpty = false := by
    simpa [trimEnd] using h
  rw [trimEnd, trimEnd, List.reverse_append, List.dropWhile_append, hne, if_neg Bool.false_ne_true,
    List.reverse_append, List.reverse_reverse]

theorem trimEnd_concat (h : ¬isIdle part) : trimEnd (ps ++ [part]) = ps ++ [part] := by
  have hpart : trimEnd [part] = [part] := by simp [trimEnd, h]
  rw [trimEnd_append (by simp [hpart]), hpart]

theorem exists_trimEnd_append (ps : List Bytes) :
    ∃ idles, ps = trimEnd ps ++ idles ∧ ∀ part ∈ idles, isIdle part := by
  refine ⟨(ps.reverse.takeWhile isIdle).reverse, ?_, fun part hpart => ?_⟩
  · rw [trimEnd, ← List.reverse_append, List.takeWhile_append_dropWhile, List.reverse_reverse]
  · exact List.mem_takeWhile_imp (List.mem_reverse.mp hpart)

theorem trimEnd_trimEnd (ps : List Bytes) : trimEnd (trimEnd ps) = trimEnd ps := by
  obtain ⟨idles, hps, hidles⟩ := exists_trimEnd_append ps
  calc trimEnd (trimEnd ps) = trimEnd (trimEnd ps ++ idles) := (trimEnd_append_of_idle hidles).symm
    _ = trimEnd ps := by rw [← hps]

theorem not_isIdle_of_getLast?_trimEnd (h : (trimEnd ps).getLast? = some part) : ¬isIdle part := by
  rw [trimEnd, List.getLast?_reverse] at h
  have hhead := List.head?_dropWhile_not isIdle ps.reverse
  rw [h] at hhead
  simpa using hhead

theorem ne_nil_of_not_isIdle (h : ¬isIdle part) : part ≠ [] := by
  rintro rfl
  exact h rfl

/-! ## The beginning of a path -/

/-- The part that the beginning of a path makes. -/
def Start.parts : Start → List Bytes
  | .root => [[]]
  | .dot => [[Path.dot]]
  | .none => []

/-- The path begins in this way, and the other parts follow. -/
structure HasParts (p : Path) (start : Start) (rest : List Bytes) : Prop where
  parts : p.parts = start.parts ++ rest
  root : start = .root → rest ≠ []
  none : start = .none → ∃ first tail, rest = first :: tail ∧ ¬isIdle first

theorem HasParts.split (h : p.HasParts start rest) : p.split = (start, trimEnd rest) := by
  obtain ⟨hparts, hroot, hnone⟩ := h
  cases start with
  | root =>
    obtain ⟨first, tail, rfl⟩ := List.exists_cons_of_ne_nil (hroot rfl)
    rw [Path.split, hparts]
    rfl
  | dot =>
    rw [Path.split, hparts]
    rfl
  | none =>
    obtain ⟨first, tail, rfl, hfirst⟩ := hnone rfl
    rw [Path.split, hparts]
    simp only [Start.parts, List.nil_append]
    split
    · rename_i heq
      cases heq
      exact absurd rfl hfirst
    · rename_i heq
      cases heq
      exact absurd rfl hfirst
    · rfl

theorem exists_hasParts (hp : p.bytes ≠ []) : ∃ start rest, p.HasParts start rest := by
  obtain ⟨first, tail, hparts⟩ := List.exists_cons_of_ne_nil p.parts_ne_nil
  by_cases hnil : first = []
  · subst hnil
    refine ⟨.root, tail, hparts, fun _ htail => hp ?_, nofun⟩
    rw [bytes_eq_intercalate, hparts, htail]
    rfl
  · by_cases hdot : first = [dot]
    · subst hdot
      exact ⟨.dot, tail, hparts, nofun, nofun⟩
    · exact ⟨.none, first :: tail, hparts, nofun,
        fun _ => ⟨first, tail, rfl, by simp [isIdle, hnil, hdot]⟩⟩

theorem HasParts.bytes_eq (h : p.HasParts start rest) :
    p.bytes = [slash].intercalate (start.parts ++ rest) := by
  rw [bytes_eq_intercalate, h.parts]

theorem HasParts.slash_notMem (h : p.HasParts start rest) (hpart : part ∈ start.parts ++ rest) :
    slash ∉ part :=
  slash_notMem_of_mem_parts (h.parts ▸ hpart)

theorem HasParts.isAbsolute_iff (h : p.HasParts start rest) : p.isAbsolute ↔ start = .root := by
  constructor
  · intro habsolute
    have hhead : p.bytes.head? = some slash := by simpa [isAbsolute] using habsolute
    obtain ⟨t, ht⟩ := List.head?_eq_some_iff.mp hhead
    have hparts : p.parts = [] :: t.splitOn slash := by
      rw [Path.parts, ht]
      exact List.splitOnP_append_cons [] t (by simp)
    rw [h.parts] at hparts
    cases start with
    | root => rfl
    | dot => cases hparts
    | none =>
      obtain ⟨first, tail, rfl, hfirst⟩ := h.none rfl
      cases hparts
      exact absurd rfl hfirst
  · rintro rfl
    obtain ⟨first, tail, rfl⟩ := List.exists_cons_of_ne_nil (h.root rfl)
    rw [isAbsolute, h.bytes_eq, Start.parts, List.singleton_append, List.intercalate_cons_cons]
    rfl

/-! ## The path above -/

theorem parent?_congr (h : p.split = q.split) : p.parent? = q.parent? := by
  unfold parent?
  rw [h]

theorem HasParts.parent?_of_idle (h : p.HasParts start rest) (hrest : trimEnd rest = []) :
    p.parent? = if start = .dot then some ⟨[]⟩ else Option.none := by
  unfold parent?
  rw [h.split, hrest]
  cases start <;> rfl

theorem HasParts.parent?_eq (h : p.HasParts start rest) (hrest : trimEnd rest ≠ []) :
    p.parent? = some (ofSplit start (trimEnd (trimEnd rest).dropLast)) := by
  obtain ⟨part, parts, hparts⟩ := List.exists_cons_of_ne_nil hrest
  unfold parent?
  rw [h.split, hparts]
  cases start <;> rfl

/-- A relative path that begins with a name has a part that is not idle. -/
theorem HasParts.eq_dot_of_idle (h : p.HasParts start rest) (hstart : start ≠ .root)
    (hrest : trimEnd rest = []) : start = .dot := by
  cases start with
  | root => exact absurd rfl hstart
  | dot => rfl
  | none =>
    obtain ⟨first, tail, rfl, hfirst⟩ := h.none rfl
    exact absurd (trimEnd_eq_nil_iff.mp hrest first List.mem_cons_self) hfirst

theorem bytes_ofSplit (h : start ≠ .root ∨ rest ≠ []) :
    (ofSplit start rest).bytes = [slash].intercalate (start.parts ++ rest) := by
  cases start with
  | root =>
    obtain ⟨first, tail, rfl⟩ := List.exists_cons_of_ne_nil (h.resolve_left (fun h => h rfl))
    rw [ofSplit, Start.parts, List.singleton_append, List.intercalate_cons_cons]
    rfl
  | dot => rfl
  | none => rfl

/-- What is above begins like the path, of which a part that is not idle is gone. -/
theorem exists_parts_above (hrest : trimEnd rest ≠ []) :
    ∃ more, rest = trimEnd (trimEnd rest).dropLast ++ more ∧ ∃ part ∈ more, ¬isIdle part := by
  obtain ⟨idles, hidles, -⟩ := exists_trimEnd_append rest
  obtain ⟨front, last, hfront⟩ := (List.eq_nil_or_concat (trimEnd rest)).resolve_left hrest
  rw [List.concat_eq_append] at hfront
  have hlast : ¬isIdle last := not_isIdle_of_getLast?_trimEnd (by rw [hfront, List.getLast?_concat])
  obtain ⟨idles', hidles', -⟩ := exists_trimEnd_append front
  refine ⟨idles' ++ last :: idles, ?_, last, List.mem_append_right _ List.mem_cons_self, hlast⟩
  rw [hfront, List.dropLast_concat, ← List.append_assoc, ← hidles']
  rw [hfront, List.append_assoc] at hidles
  exact hidles

theorem length_ofSplit_le (start : Start) (rest : List Bytes) :
    (ofSplit start rest).bytes.length ≤ ([slash].intercalate (start.parts ++ rest)).length + 1 := by
  by_cases h : start ≠ .root ∨ rest ≠ []
  · rw [bytes_ofSplit h]
    exact Nat.le_succ _
  · obtain ⟨hroot, hnil⟩ := not_or.mp h
    rw [not_not.mp hroot, not_not.mp hnil]
    exact Nat.le_refl _

/-- The path above is shorter. -/
theorem length_parent?_lt (h : p.parent? = some q) : q.bytes.length < p.bytes.length := by
  have hp : p.bytes ≠ [] := by
    rintro hnil
    have hparts : p.split = (.none, []) := by
      rw [Path.split, Path.parts, hnil]
      rfl
    unfold parent? at h
    rw [hparts] at h
    cases h
  have hpos := List.length_pos_iff.mpr hp
  obtain ⟨start, rest, hparts⟩ := exists_hasParts hp
  by_cases hrest : trimEnd rest = []
  · rw [hparts.parent?_of_idle hrest] at h
    split at h
    · cases h
      exact hpos
    · cases h
  · rw [hparts.parent?_eq hrest, Option.some.injEq] at h
    obtain ⟨more, hmore, part, hpart, hidle⟩ := exists_parts_above hrest
    generalize trimEnd (trimEnd rest).dropLast = above at h hmore
    rw [← h]
    by_cases hnil : start.parts ++ above = []
    · -- All of the path is gone.
      obtain ⟨hstart, rfl⟩ := List.append_eq_nil_iff.mp hnil
      cases start with
      | none => exact hpos
      | root => cases hstart
      | dot => cases hstart
    · -- With the part a slash is gone, and the part is not empty.
      have hmore' : [slash].intercalate more ≠ [] :=
        intercalate_ne_nil (fun part hpart => hparts.slash_notMem (by simp [hmore, hpart])) hpart
          (ne_nil_of_not_isIdle hidle)
      have hle := length_ofSplit_le start above
      have hlt := List.length_pos_iff.mpr hmore'
      rw [hparts.bytes_eq, hmore, ← List.append_assoc,
        intercalate_append hnil (List.ne_nil_of_mem hpart), List.length_append, List.length_cons]
      omega

theorem HasParts.parent?_isAbsolute (h : p.HasParts .root rest) (hq : p.parent? = some q) :
    q.isAbsolute := by
  by_cases hrest : trimEnd rest = []
  · rw [h.parent?_of_idle hrest] at hq
    cases hq
  · rw [h.parent?_eq hrest, Option.some.injEq] at hq
    subst hq
    rfl

/-! ## Bases -/

/-- A relative path, not empty, as the paths above others are written. -/
structure IsBase (p : Path) (start : Start) (parts : List Bytes) : Prop where
  hasParts : p.HasParts start parts
  relative : start ≠ .root
  trimmed : trimEnd parts = parts

theorem IsBase.parts_ne_nil (h : p.IsBase start rest) : start.parts ++ rest ≠ [] :=
  h.hasParts.parts ▸ p.parts_ne_nil

theorem IsBase.eq_ofSplit (h : p.IsBase start rest) : p = ofSplit start rest :=
  congrArg Path.mk (h.hasParts.bytes_eq.trans (bytes_ofSplit (.inl h.relative)).symm)

theorem IsBase.not_isAbsolute (h : p.IsBase start rest) : ¬p.isAbsolute := fun habsolute =>
  h.relative (h.hasParts.isAbsolute_iff.mp habsolute)

/-- A base is put together from the front of a relative path, unless nothing is left. -/
theorem HasParts.isBase_ofSplit {more : List Bytes} (h : p.HasParts start rest) (hstart : start ≠ .root)
    (hrest : rest = ps ++ more) (hps : trimEnd ps = ps) (hne : start.parts ++ ps ≠ []) :
    (ofSplit start ps).IsBase start ps := by
  have hslash : ∀ part ∈ start.parts ++ ps, slash ∉ part := fun part hpart =>
    h.slash_notMem (by
      rw [hrest, ← List.append_assoc]
      exact List.mem_append_left _ hpart)
  refine ⟨⟨?_, fun hroot => absurd hroot hstart, fun hnone => ?_⟩, hstart, hps⟩
  · rw [Path.parts, bytes_ofSplit (.inl hstart), List.splitOn_intercalate _ hslash hne]
  · subst hnone
    obtain ⟨first, tail, hfirst, hidle⟩ := h.none rfl
    obtain ⟨head, ps, rfl⟩ := List.exists_cons_of_ne_nil hne
    rw [hfirst] at hrest
    obtain ⟨rfl, -⟩ := List.cons.inj hrest
    exact ⟨first, ps, rfl, hidle⟩

/-- What is above a relative path is a base, unless it is empty. -/
theorem HasParts.isBase_above (h : p.HasParts start rest) (hstart : start ≠ .root)
    (hparent : p.parent? = some q) (hq : q.bytes ≠ []) :
    q.IsBase start (trimEnd (trimEnd rest).dropLast) := by
  by_cases hrest : trimEnd rest = []
  · rw [h.parent?_of_idle hrest, h.eq_dot_of_idle hstart hrest] at hparent
    cases hparent
    exact absurd rfl hq
  rw [h.parent?_eq hrest, Option.some.injEq] at hparent
  obtain ⟨more, hmore, -⟩ := exists_parts_above hrest
  have hne : start.parts ++ trimEnd (trimEnd rest).dropLast ≠ [] := by
    intro hnil
    rw [← hparent, bytes_ofSplit (.inl hstart), hnil] at hq
    exact hq rfl
  rw [← hparent]
  exact h.isBase_ofSplit hstart hmore (trimEnd_trimEnd _) hne

theorem Start.isIdle_of_mem_parts (h : part ∈ start.parts) : isIdle part := by
  cases start with
  | root => exact List.mem_singleton.mp h ▸ rfl
  | dot => exact List.mem_singleton.mp h ▸ rfl
  | none => exact absurd h List.not_mem_nil

theorem Start.forall_isIdle_parts_append (h : ∀ part ∈ idles, isIdle part) :
    ∀ part ∈ start.parts ++ idles, isIdle part :=
  List.forall_mem_append.mpr ⟨fun _ => isIdle_of_mem_parts, h⟩

/-- The last part of a base is not empty. -/
theorem IsBase.exists_getLast? (h : p.IsBase start rest) :
    ∃ last, (start.parts ++ rest).getLast? = some last ∧ last ≠ [] := by
  rcases List.eq_nil_or_concat rest with rfl | ⟨front, last, rfl⟩
  · have hdot := h.hasParts.eq_dot_of_idle h.relative rfl
    subst hdot
    exact ⟨[dot], rfl, List.cons_ne_nil _ _⟩
  · rw [List.concat_eq_append] at h ⊢
    refine ⟨last, by rw [← List.append_assoc, List.getLast?_concat], ne_nil_of_not_isIdle ?_⟩
    exact not_isIdle_of_getLast?_trimEnd (by rw [h.trimmed, List.getLast?_concat])

theorem IsBase.bytes_ne_nil (h : p.IsBase start rest) : p.bytes ≠ [] := by
  obtain ⟨last, hlast, hne⟩ := h.exists_getLast?
  rw [h.hasParts.bytes_eq]
  exact intercalate_ne_nil (fun part => h.hasParts.slash_notMem) (List.mem_of_getLast? hlast) hne

theorem IsBase.getLast?_ne (h : p.IsBase start rest) : p.bytes.getLast? ≠ some slash := by
  obtain ⟨c, hc, hne⟩ := exists_getLast?_intercalate (fun part => h.hasParts.slash_notMem)
    h.exists_getLast?
  rw [h.hasParts.bytes_eq, hc]
  exact fun e => hne (Option.some.inj e)

theorem IsBase.parts_join (h : p.IsBase start rest) (hq : ¬q.isAbsolute) :
    (p.join q).parts = p.parts ++ q.parts :=
  Path.parts_join h.bytes_ne_nil h.getLast?_ne hq

theorem IsBase.hasParts_join (h : p.IsBase start rest) (hq : ¬q.isAbsolute) :
    (p.join q).HasParts start (rest ++ q.parts) := by
  refine ⟨?_, fun hroot => absurd hroot h.relative, fun hnone => ?_⟩
  · rw [h.parts_join hq, h.hasParts.parts, List.append_assoc]
  · obtain ⟨first, tail, rfl, hfirst⟩ := h.hasParts.none hnone
    exact ⟨first, tail ++ q.parts, rfl, hfirst⟩

/-- The name stands behind the other parts, in whose place an empty part at the end may have been. -/
theorem HasParts.join_name {name : Bytes} (h : p.HasParts start rest) (hp : p.bytes ≠ [])
    (hstart : start ≠ .root) (hname : Node.IsName name) :
    ∃ front, (p.join ⟨name⟩).HasParts start (front ++ [name]) ∧ trimEnd front = trimEnd rest := by
  obtain ⟨ps, hps, hparts⟩ := exists_parts_join hp hname.2.2
  have hfront : ∃ front, ps = start.parts ++ front ∧ (rest = front ∨ rest = front ++ [[]]) := by
    rcases hps with hps | hps
    · exact ⟨rest, hps.symm.trans h.parts, .inl rfl⟩
    · have hboth := h.parts.symm.trans hps
      rcases List.eq_nil_or_concat rest with rfl | ⟨front, last, rfl⟩
      · have hdot := h.eq_dot_of_idle hstart rfl
        subst hdot
        have hlast : [] ++ [[dot]] = ps ++ [[]] := hboth
        cases (List.append_inj' hlast rfl).2
      · rw [List.concat_eq_append, ← List.append_assoc] at hboth
        obtain ⟨hfront, hlast⟩ := List.append_inj' hboth rfl
        cases hlast
        exact ⟨front, hfront.symm, .inr List.concat_eq_append⟩
  obtain ⟨front, rfl, hrest⟩ := hfront
  refine ⟨front, ⟨?_, fun hroot => absurd hroot hstart, fun hnone => ?_⟩, ?_⟩
  · rw [hparts, List.append_assoc]
  · obtain ⟨first, tail, hfirst, hidle⟩ := h.none hnone
    cases front with
    | nil =>
      rcases hrest with rfl | rfl
      · cases hfirst
      · cases hfirst
        exact absurd rfl hidle
    | cons part front =>
      have hpart : part = first := by
        rcases hrest with rfl | rfl <;> exact (List.cons.inj hfirst).1
      exact ⟨part, front ++ [name], rfl, hpart ▸ hidle⟩
  · rcases hrest with rfl | rfl
    · rfl
    · exact (trimEnd_append_of_idle (List.forall_mem_singleton.mpr rfl)).symm

/-- Above a name in a directory there is that directory, without idle parts at the end. -/
theorem exists_isBase_of_join {name : Bytes} (hp : p.bytes ≠ []) (hrelative : ¬p.isAbsolute)
    (hname : Node.IsName name) :
    ∃ base start parts idles, (p.join ⟨name⟩).parent? = some base ∧ IsBase base start parts ∧
      p.parts = base.parts ++ idles ∧ ∀ part ∈ idles, isIdle part := by
  obtain ⟨start, rest, h⟩ := exists_hasParts hp
  have hstart : start ≠ .root := fun hroot => hrelative (h.isAbsolute_iff.mpr hroot)
  obtain ⟨idles, hidles, hidle⟩ := exists_trimEnd_append rest
  have hne : start.parts ++ trimEnd rest ≠ [] := by
    intro hnil
    obtain ⟨hnone, htrim⟩ := List.append_eq_nil_iff.mp hnil
    rw [h.eq_dot_of_idle hstart htrim] at hnone
    cases hnone
  have hbase := h.isBase_ofSplit hstart hidles (trimEnd_trimEnd rest) hne
  obtain ⟨front, hjoin, hfront⟩ := h.join_name hp hstart hname
  have htrim : trimEnd (front ++ [name]) = front ++ [name] := trimEnd_concat hname.1
  refine ⟨_, start, _, idles, ?_, hbase, ?_, hidle⟩
  · rw [hjoin.parent?_eq (by simp [htrim]), htrim, List.dropLast_concat, hfront]
  · rw [hbase.hasParts.parts, List.append_assoc, ← hidles, h.parts]

/-! ## The path above a path that is taken from a base -/

variable {front : Start} {parts : List Bytes}

theorem trimEnd_append_parts (hbase : p.IsBase start rest) (hidle : ∀ part ∈ idles, isIdle part) :
    trimEnd (rest ++ idles) = rest := by
  rw [trimEnd_append_of_idle hidle, hbase.trimmed]

/-- Behind a base, what stands for the directory itself does not count. -/
theorem IsBase.parent?_join_of_idle (h : p.IsBase start rest) (hq : q.HasParts front parts)
    (hrelative : front ≠ .root) (hparts : trimEnd parts = []) :
    (p.join q).parent? = p.parent? := by
  have habsolute : ¬q.isAbsolute := fun hq' => hrelative (hq.isAbsolute_iff.mp hq')
  refine parent?_congr ?_
  rw [(h.hasParts_join habsolute).split, h.hasParts.split, h.trimmed, hq.parts,
    trimEnd_append_parts h (Start.forall_isIdle_parts_append (trimEnd_eq_nil_iff.mp hparts))]

/-- A relative path that is taken from a base has the parts of both, one behind the other. -/
theorem IsBase.join_eq_ofSplit (h : p.IsBase start rest) (hq : q.HasParts front parts)
    (hrelative : front ≠ .root) : p.join q = ofSplit start (rest ++ (front.parts ++ parts)) := by
  have habsolute : ¬q.isAbsolute := fun hq' => hrelative (hq.isAbsolute_iff.mp hq')
  have hbytes := (h.hasParts_join habsolute).bytes_eq
  rw [← bytes_ofSplit (.inl h.relative), hq.parts] at hbytes
  exact congrArg Path.mk hbytes

theorem IsBase.parent?_join_eq (h : p.IsBase start rest) (hq : q.HasParts front parts)
    (hrelative : front ≠ .root) (hparts : trimEnd parts ≠ []) :
    (p.join q).parent? =
      some (ofSplit start (trimEnd (rest ++ (front.parts ++ (trimEnd parts).dropLast)))) := by
  have habsolute : ¬q.isAbsolute := fun hq' => hrelative (hq.isAbsolute_iff.mp hq')
  have hne : front.parts ++ trimEnd parts ≠ [] := List.append_ne_nil_of_right_ne_nil _ hparts
  have htrim : trimEnd (rest ++ q.parts) = rest ++ (front.parts ++ trimEnd parts) := by
    rw [hq.parts, ← List.append_assoc, trimEnd_append hparts, List.append_assoc]
  rw [(h.hasParts_join habsolute).parent?_eq, htrim, List.dropLast_append_of_ne_nil hne,
    List.dropLast_append_of_ne_nil hparts]
  rw [htrim]
  exact List.append_ne_nil_of_right_ne_nil _ hne

/-- The path above is taken from the same base. It is the base itself if nothing else is left. -/
theorem IsBase.parent?_join (h : p.IsBase start rest) (hq : q.HasParts front parts)
    (hrelative : front ≠ .root) (hparts : trimEnd parts ≠ []) :
    ∃ r, q.parent? = some r ∧
      ((r.bytes = [] ∨ r.bytes = [dot]) ∧ (p.join q).parent? = some p ∨
        r.bytes ≠ [] ∧ (p.join q).parent? = some (p.join r)) := by
  obtain ⟨idles, hidles, hidle⟩ := exists_trimEnd_append (trimEnd parts).dropLast
  have hparent := hq.parent?_eq hparts
  have hjoin := h.parent?_join_eq hq hrelative hparts
  have habove := trimEnd_trimEnd (trimEnd parts).dropLast
  obtain ⟨more, hmore, -⟩ := exists_parts_above hparts
  refine ⟨_, hparent, ?_⟩
  generalize trimEnd (trimEnd parts).dropLast = above at hidles habove hmore ⊢
  rw [hidles] at hjoin
  rw [hjoin]
  by_cases hnil : above = []
  · subst hnil
    left
    constructor
    · cases front with
      | root => exact absurd rfl hrelative
      | dot => exact .inr rfl
      | none => exact .inl rfl
    · rw [List.nil_append, trimEnd_append_parts h (Start.forall_isIdle_parts_append hidle),
        ← h.eq_ofSplit]
  · have hbase := hq.isBase_ofSplit hrelative hmore habove (List.append_ne_nil_of_right_ne_nil _ hnil)
    have htrim : trimEnd (rest ++ (front.parts ++ (above ++ idles))) =
        rest ++ (front.parts ++ above) := by
      calc trimEnd (rest ++ (front.parts ++ (above ++ idles)))
          = trimEnd (rest ++ front.parts ++ above ++ idles) := by simp only [List.append_assoc]
        _ = trimEnd (rest ++ front.parts ++ above) := trimEnd_append_of_idle hidle
        _ = rest ++ (front.parts ++ above) := by
          rw [trimEnd_append (by rwa [habove]), habove, List.append_assoc]
    right
    rw [htrim, h.join_eq_ofSplit hbase.hasParts hrelative]
    exact ⟨hbase.bytes_ne_nil, rfl⟩

/-- How the paths above a path go with each other, as it stands and taken from a base. -/
inductive IsBase.Above (p q : Path) : Prop where
  /-- There is no path above. -/
  | root (hparent : q.parent? = none) (hjoin : (p.join q).parent? = none)
  /-- Nothing is left, or what stands for the directory itself. -/
  | base {r : Path} (hparent : q.parent? = some r) (hr : r.bytes = [] ∨ r.bytes = [dot])
    (hjoin : (p.join q).parent? = some p)
  | join {r : Path} (hparent : q.parent? = some r) (hr : r.bytes ≠ [])
    (hjoin : (p.join q).parent? = some (p.join r))
  /-- Already the path stands for the directory itself. -/
  | idle {front : Start} {parts : List Bytes} (hq : q.HasParts front parts) (hfront : front ≠ .root)
    (hparts : trimEnd parts = [])

theorem IsBase.above (h : p.IsBase start rest) (hq : q.bytes ≠ []) : IsBase.Above p q := by
  obtain ⟨front, parts, hparts⟩ := exists_hasParts hq
  by_cases hroot : front = .root
  · subst hroot
    have hjoin : p.join q = q := join_of_isAbsolute (hparts.isAbsolute_iff.mpr rfl)
    cases hparent : q.parent? with
    | none => exact .root hparent (by rw [hjoin, hparent])
    | some r =>
      have habsolute := hparts.parent?_isAbsolute hparent
      refine .join hparent (fun hnil => ?_) (by rw [hjoin, hparent, join_of_isAbsolute habsolute])
      rw [isAbsolute, hnil] at habsolute
      cases habsolute
  · by_cases hidle : trimEnd parts = []
    · exact .idle hparts hroot hidle
    · obtain ⟨r, hparent, ⟨hr, hjoin⟩ | ⟨hr, hjoin⟩⟩ := h.parent?_join hparts hroot hidle
      · exact .base hparent hr hjoin
      · exact .join hparent hr hjoin

/-! ## File names -/

theorem getLast?_trimEnd (ps : List Bytes) :
    (trimEnd ps).getLast? = (ps.filter fun part => !isIdle part).getLast? := by
  obtain ⟨idles, hidles, hidle⟩ := exists_trimEnd_append ps
  have hnone : idles.filter (fun part => !isIdle part) = [] := by
    refine List.filter_eq_nil_iff.mpr fun part hpart => ?_
    simp [hidle part hpart]
  have hfilter : ps.filter (fun part => !isIdle part) =
      (trimEnd ps).filter fun part => !isIdle part := by
    calc ps.filter (fun part => !isIdle part)
        = (trimEnd ps ++ idles).filter fun part => !isIdle part := by rw [← hidles]
      _ = _ := by rw [List.filter_append, hnone, List.append_nil]
  rw [hfilter]
  rcases List.eq_nil_or_concat (trimEnd ps) with hnil | ⟨front, last, hfront⟩
  · rw [hnil]
    rfl
  · rw [List.concat_eq_append] at hfront
    have hlast : ¬isIdle last :=
      not_isIdle_of_getLast?_trimEnd (by rw [hfront, List.getLast?_concat])
    rw [hfront, List.filter_append, List.getLast?_concat]
    simp [hlast]

/-- The last part of a path is the last one that is not idle. -/
theorem getLast?_split (p : Path) :
    p.split.2.getLast? = (p.parts.filter fun part => !isIdle part).getLast? := by
  by_cases hp : p.bytes = []
  · have hparts : p.parts = [[]] := by
      rw [Path.parts, hp]
      rfl
    rw [Path.split, hparts]
    rfl
  · obtain ⟨start, rest, hparts⟩ := exists_hasParts hp
    have hstart : start.parts.filter (fun part => !isIdle part) = [] :=
      List.filter_eq_nil_iff.mpr fun part hpart => by simp [Start.isIdle_of_mem_parts hpart]
    rw [hparts.split, hparts.parts, List.filter_append, hstart, List.nil_append]
    exact getLast?_trimEnd rest

/-- Taken from a base, a path names the same file. -/
theorem IsBase.fileName?_join (h : p.IsBase start rest) (hq : ∃ part ∈ q.parts, ¬isIdle part) :
    (p.join q).fileName? = q.fileName? := by
  by_cases habsolute : q.isAbsolute
  · rw [join_of_isAbsolute habsolute]
  obtain ⟨part, hpart, hidle⟩ := hq
  have hne : q.parts.filter (fun part => !isIdle part) ≠ [] :=
    List.ne_nil_of_mem (List.mem_filter.mpr ⟨hpart, by simp [hidle]⟩)
  rw [fileName?, fileName?, getLast?_split, getLast?_split, h.parts_join habsolute,
    List.filter_append, List.getLast?_append_of_ne_nil _ hne]

theorem IsBase.hasExtension_join (h : p.IsBase start rest) (hq : ∃ part ∈ q.parts, ¬isIdle part)
    (extension : Text) : (p.join q).hasExtension extension = q.hasExtension extension := by
  rw [hasExtension, hasExtension, h.fileName?_join hq]

end ClassSheet.Path
