import ClassSheet.Text.Basic
import Mathlib.Data.List.Infix
import Mathlib.Data.List.Range

/-!
# The places at which texts occur

* `Text.places`: at how many places in a text one of some given texts begins.
* `places_append_mark`: where all given texts end with a mark that they have nowhere else, they are
  found by what precedes the marks of the text.
* `countP_tails_append_cons`: of the endings of a text, at most one begins with a mark that neither
  it nor the text has behind it.
-/

namespace ClassSheet.Text

/-- At how many places in a text one of the given texts begins. -/
def places (parts : List Text) (s : Text) : Nat :=
  (List.range s.length).countP fun i => parts.any (·.isPrefixOf (s.drop i))

variable {mark c : Char} {parts : List Text} {s rest : Text}

theorem places_cons (parts : List Text) (c : Char) (s : Text) :
    places parts (c :: s) =
      places parts s + if parts.any (·.isPrefixOf (c :: s)) then 1 else 0 := by
  unfold places
  rw [List.length_cons, List.range_succ_eq_map, List.countP_cons, List.countP_map]
  rfl

/-! ## Texts that end with a mark -/

/-- Behind texts without the mark, only the same text has the mark behind it. -/
theorem eq_of_append_mark_prefix {p t : Text} (hp : mark ∉ p) (ht : mark ∉ t)
    (h : p ++ [mark] <+: t ++ mark :: rest) : p = t := by
  obtain ⟨u, hu⟩ := h
  rw [List.append_assoc, List.singleton_append] at hu
  have hcut := cut?_eq_some_iff.mpr ⟨hp, hu.symm⟩
  rw [cut?_eq_some_iff.mpr ⟨ht, rfl⟩] at hcut
  cases hcut
  rfl

theorem any_isPrefixOf_append_mark {t : Text} (hparts : ∀ p ∈ parts, mark ∉ p) (ht : mark ∉ t)
    (rest : Text) :
    (parts.map (· ++ [mark])).any (·.isPrefixOf (t ++ mark :: rest)) = decide (t ∈ parts) := by
  rw [Bool.eq_iff_iff, List.any_map, List.any_eq_true, decide_eq_true_eq]
  simp only [Function.comp_apply, List.isPrefixOf_iff_prefix]
  constructor
  · rintro ⟨p, hp, h⟩
    rwa [← eq_of_append_mark_prefix (hparts p hp) ht h]
  · intro h
    exact ⟨t, h, rest, by rw [List.append_assoc, List.singleton_append]⟩

/-- A text without the mark has none of the texts that end with it. -/
theorem places_eq_zero (hs : mark ∉ s) : places (parts.map (· ++ [mark])) s = 0 := by
  rw [places, List.countP_eq_zero]
  intro i _ h
  rw [List.any_map, List.any_eq_true] at h
  obtain ⟨p, -, hp⟩ := h
  rw [Function.comp_apply, List.isPrefixOf_iff_prefix] at hp
  have hmem : mark ∈ p ++ [mark] := List.mem_append_right _ List.mem_cons_self
  exact hs (List.mem_of_mem_drop (hp.mem hmem))

/-- Texts that end with a mark, and have it nowhere else, occur up to the first mark of a text as
often as what precedes that mark ends with one of them, its own mark left out. -/
theorem places_append_mark (hparts : ∀ p ∈ parts, mark ∉ p) (hs : mark ∉ s) (rest : Text) :
    places (parts.map (· ++ [mark])) (s ++ mark :: rest) =
      s.tails.countP (· ∈ parts) + places (parts.map (· ++ [mark])) rest := by
  induction s with
  | nil =>
    have hany := any_isPrefixOf_append_mark hparts hs rest
    rw [List.nil_append] at hany ⊢
    rw [places_cons, hany]
    simp [Nat.add_comm]
  | cons c s ih =>
    have hany := any_isPrefixOf_append_mark hparts hs rest
    rw [List.mem_cons, not_or] at hs
    rw [List.cons_append] at hany ⊢
    rw [places_cons, hany, ih hs.2, List.tails_cons, List.countP_cons]
    omega

/-! ## Texts that begin with a mark -/

theorem countP_tails_eq_zero (hparts : ∀ p ∈ parts, mark ∈ p) (hs : mark ∉ s) :
    s.tails.countP (· ∈ parts) = 0 := by
  rw [List.countP_eq_zero]
  intro t ht h
  rw [decide_eq_true_eq] at h
  exact hs (((List.mem_tails t s).mp ht).mem (hparts t h))

/-- An ending that reaches over a mark has the mark. -/
theorem mem_or_suffix {t : Text} (h : t <:+ s ++ mark :: rest) : mark ∈ t ∨ t <:+ rest := by
  have hmark : mark :: rest <:+ s ++ mark :: rest := List.suffix_append _ _
  rcases List.suffix_or_suffix_of_suffix h hmark with h | h
  · rcases List.suffix_cons_iff.mp h with rfl | h
    · exact .inl List.mem_cons_self
    · exact .inr h
  · exact .inl (h.mem List.mem_cons_self)

/-- A text ends with one of the texts that begin with a mark, and have it nowhere else, iff what
follows its last mark is the rest of one of them; and then it does so once. -/
theorem countP_tails_append_cons (hparts : ∀ p ∈ parts, ∃ q, p = mark :: q ∧ mark ∉ q)
    (hrest : mark ∉ rest) (s : Text) :
    (s ++ mark :: rest).tails.countP (· ∈ parts) = if mark :: rest ∈ parts then 1 else 0 := by
  have hmem : ∀ p ∈ parts, mark ∈ p := by
    intro p hp
    obtain ⟨q, rfl, -⟩ := hparts p hp
    exact List.mem_cons_self
  induction s with
  | nil =>
    rw [List.nil_append, List.tails_cons, List.countP_cons, countP_tails_eq_zero hmem hrest]
    simp
  | cons c s ih =>
    have hnot : ¬c :: (s ++ mark :: rest) ∈ parts := by
      intro h
      obtain ⟨q, hq, hmark⟩ := hparts _ h
      rw [List.cons.injEq] at hq
      rw [← hq.2] at hmark
      exact hmark (List.mem_append_right _ List.mem_cons_self)
    rw [List.cons_append, List.tails_cons, List.countP_cons, ih]
    simp [hnot]

end ClassSheet.Text
