import ClassSheet.Proofs.Files.Path
import ClassSheet.Proofs.Files.Tree

/-!
# Paths put together

* `Path.intercalate_append`, `Path.bytes_eq_intercalate`: a path from its parts.
* `Path.bytes_join`, `Path.parts_join`: a relative path behind another one.
* `Path.join_join`: it does not matter which of three paths are put together first.
* `Path.below`: the path of what lies under some names, one below the other.
-/

namespace ClassSheet.Path

open Node (IsName)

variable {p q r : Path} {part name : Bytes} {ps qs : List Bytes} {names names' : Address}

/-! ## Parts put together -/

theorem intercalate_append (hps : ps ≠ []) (hqs : qs ≠ []) :
    [slash].intercalate (ps ++ qs) = [slash].intercalate ps ++ slash :: [slash].intercalate qs := by
  induction ps with
  | nil => exact absurd rfl hps
  | cons part ps ih =>
    cases ps with
    | nil =>
      obtain ⟨next, qs, rfl⟩ := List.exists_cons_of_ne_nil hqs
      rw [List.singleton_append, List.intercalate_cons_cons, List.intercalate_singleton]
      simp only [List.append_assoc, List.singleton_append]
    | cons next ps =>
      rw [List.cons_append, List.cons_append, List.intercalate_cons_cons, ← List.cons_append,
        ih (List.cons_ne_nil _ _), List.intercalate_cons_cons]
      simp only [List.append_assoc]

theorem intercalate_ne_nil (hslash : ∀ part ∈ ps, slash ∉ part) (hpart : part ∈ ps) (hne : part ≠ []) :
    [slash].intercalate ps ≠ [] := by
  intro h
  have hsplit := List.splitOn_intercalate slash hslash (List.ne_nil_of_mem hpart)
  rw [h] at hsplit
  rw [← hsplit] at hpart
  exact hne (List.mem_singleton.mp hpart)

theorem bytes_eq_intercalate (p : Path) : p.bytes = [slash].intercalate p.parts :=
  (List.intercalate_splitOn slash).symm

theorem bytes_of_parts_append (h : q.parts = p.parts ++ ps) (hps : ps ≠ []) :
    q.bytes = p.bytes ++ slash :: [slash].intercalate ps := by
  rw [bytes_eq_intercalate, h, intercalate_append p.parts_ne_nil hps, ← bytes_eq_intercalate]

/-! ## A path behind another one -/

theorem join_of_isAbsolute (h : q.isAbsolute) : p.join q = q := if_pos h

/-- What stands in front of a path that is joined. -/
def lead (p : Path) : Bytes :=
  if p.bytes = [] ∨ p.bytes.getLast? = some slash then p.bytes else p.bytes ++ [slash]

theorem bytes_join (hq : ¬q.isAbsolute) : (p.join q).bytes = p.lead ++ q.bytes := by
  rw [join, if_neg hq, lead]
  split
  · rfl
  · rw [List.append_assoc, List.singleton_append]

theorem parts_join (hp : p.bytes ≠ []) (hlast : p.bytes.getLast? ≠ some slash) (hq : ¬q.isAbsolute) :
    (p.join q).parts = p.parts ++ q.parts := by
  rw [join, if_neg hq, if_neg (not_or.mpr ⟨hp, hlast⟩)]
  exact List.splitOnP_append_cons _ _ (by simp)

theorem lead_ne_nil (hp : p.bytes ≠ []) : p.lead ≠ [] := by
  rw [lead]
  split
  · exact hp
  · exact List.append_ne_nil_of_left_ne_nil hp _

theorem head?_lead (hp : p.bytes ≠ []) : p.lead.head? = p.bytes.head? := by
  rw [lead]
  split
  · rfl
  · rw [List.head?_append_of_ne_nil _ hp]

theorem isAbsolute_join_relative (hp : p.bytes ≠ []) (hq : ¬q.isAbsolute) :
    (p.join q).isAbsolute = p.isAbsolute := by
  rw [isAbsolute, isAbsolute, bytes_join hq, List.head?_append_of_ne_nil _ (lead_ne_nil hp),
    head?_lead hp]

theorem bytes_join_ne_nil (hq : q.bytes ≠ []) : (p.join q).bytes ≠ [] := by
  by_cases habsolute : q.isAbsolute
  · rwa [join_of_isAbsolute habsolute]
  · rw [bytes_join habsolute]
    exact List.append_ne_nil_of_right_ne_nil _ hq

/-- The end of a joined path is that of its second part. -/
theorem lead_join_relative (hq : q.bytes ≠ []) (hrel : ¬q.isAbsolute) :
    (p.join q).lead = p.lead ++ q.lead := by
  have hjoin : (p.join q).lead =
      if p.lead ++ q.bytes = [] ∨ (p.lead ++ q.bytes).getLast? = some slash then p.lead ++ q.bytes
      else p.lead ++ q.bytes ++ [slash] := by
    rw [lead, bytes_join hrel]
  have hlead : q.lead = if q.bytes = [] ∨ q.bytes.getLast? = some slash then q.bytes
      else q.bytes ++ [slash] := rfl
  rw [hjoin, hlead, List.getLast?_append_of_ne_nil _ hq]
  by_cases hlast : q.bytes.getLast? = some slash
  · rw [if_pos (.inr hlast), if_pos (.inr hlast)]
  · rw [if_neg (not_or.mpr ⟨List.append_ne_nil_of_right_ne_nil _ hq, hlast⟩),
      if_neg (not_or.mpr ⟨hq, hlast⟩), List.append_assoc]

/-- Two paths behind a third one, the last of them first or last. -/
theorem join_join (hq : q.bytes ≠ []) (r : Path) : (p.join q).join r = p.join (q.join r) := by
  by_cases hr : r.isAbsolute
  · rw [join_of_isAbsolute hr, join_of_isAbsolute hr, join_of_isAbsolute hr]
  by_cases habsolute : q.isAbsolute
  · have hjoin : (q.join r).isAbsolute := by rwa [isAbsolute_join_relative hq hr]
    rw [join_of_isAbsolute habsolute, join_of_isAbsolute hjoin]
  · have hjoin : ¬(q.join r).isAbsolute := by rwa [isAbsolute_join_relative hq hr]
    have hbytes : ((p.join q).join r).bytes = (p.join (q.join r)).bytes := by
      rw [bytes_join hr, bytes_join hjoin, bytes_join hr, lead_join_relative hq habsolute,
        List.append_assoc]
    exact congrArg Path.mk hbytes

/-! ## Names one below the other -/

theorem not_isAbsolute_of_notMem (h : slash ∉ name) : ¬(⟨name⟩ : Path).isAbsolute := fun habsolute =>
  h (List.mem_of_mem_head? (by simpa [isAbsolute] using habsolute))

theorem ne_nil_of_isName (h : IsName name) : name ≠ [] := by
  rintro rfl
  exact h.1 rfl

theorem bytes_join_name_ne_nil (h : IsName name) : (p.join ⟨name⟩).bytes ≠ [] :=
  bytes_join_ne_nil (ne_nil_of_isName h)

/-- The path of what lies under the names, one below the other. -/
def below (p : Path) (names : Address) : Path := names.foldl (fun p name => p.join ⟨name⟩) p

@[simp]
theorem below_nil (p : Path) : p.below [] = p := rfl

@[simp]
theorem below_cons (p : Path) (name : Bytes) (names : Address) :
    p.below (name :: names) = (p.join ⟨name⟩).below names := rfl

theorem bytes_below (hnames : ∀ name ∈ names, IsName name) (hne : names ≠ []) :
    (p.below names).bytes = p.lead ++ [slash].intercalate names := by
  induction names generalizing p with
  | nil => exact absurd rfl hne
  | cons name names ih =>
    obtain ⟨hname, hrest⟩ := List.forall_mem_cons.mp hnames
    have hrelative := not_isAbsolute_of_notMem hname.2.2
    cases names with
    | nil => rw [below_cons, below_nil, bytes_join hrelative, List.intercalate_singleton]
    | cons next names =>
      -- The path of a name does not end with a slash.
      have hlead : (⟨name⟩ : Path).lead = name ++ [slash] := by
        rw [lead, if_neg]
        rintro (hnil | hslash)
        · exact ne_nil_of_isName hname hnil
        · exact hname.2.2 (List.mem_of_getLast? hslash)
      rw [below_cons, ih hrest (List.cons_ne_nil _ _),
        lead_join_relative (ne_nil_of_isName hname) hrelative, hlead, List.intercalate_cons_cons]
      simp only [List.append_assoc]

theorem length_bytes_le_lead (p : Path) : p.bytes.length ≤ p.lead.length := by
  rw [lead]
  split
  · exact Nat.le_refl _
  · simp

theorem below_ne_self (hnames : ∀ name ∈ names, IsName name) (hne : names ≠ []) :
    p.below names ≠ p := by
  intro h
  obtain ⟨name, hname⟩ := List.exists_mem_of_ne_nil names hne
  have hrest := intercalate_ne_nil (fun name hmem => (hnames name hmem).2.2) hname
    (ne_nil_of_isName (hnames name hname))
  have hlength := congrArg List.length (bytes_below (p := p) hnames hne)
  rw [h, List.length_append] at hlength
  have := p.length_bytes_le_lead
  have := List.length_pos_iff.mpr hrest
  omega

/-- Different names one below the other lead along different paths. -/
theorem below_injective (hnames : ∀ name ∈ names, IsName name)
    (hnames' : ∀ name ∈ names', IsName name) (h : p.below names = p.below names') :
    names = names' := by
  by_cases hne : names = []
  · subst hne
    by_contra hne'
    exact below_ne_self hnames' (Ne.symm hne') h.symm
  by_cases hne' : names' = []
  · subst hne'
    exact absurd h (below_ne_self hnames hne)
  have hbytes := congrArg Path.bytes h
  rw [bytes_below hnames hne, bytes_below hnames' hne', List.append_cancel_left_eq] at hbytes
  have hsplit := congrArg (List.splitOn slash) hbytes
  rwa [List.splitOn_intercalate _ (fun name hmem => (hnames name hmem).2.2) hne,
    List.splitOn_intercalate _ (fun name hmem => (hnames' name hmem).2.2) hne'] at hsplit

end ClassSheet.Path
