import Mathlib.Data.List.Induction
import Mathlib.Data.List.Nodup
import Mathlib.Data.Set.Card

/-!
# Lists without repeats

`List.eraseDups` keeps an item where it occurs first. Every law here follows from what one more
item at the end adds (`eraseDups_concat`).

* `firstOccurrences`: the items at the places before which they do not occur.
* `eraseDups_eq_firstOccurrences`, `nodup_eraseDups`: what `eraseDups` leaves.
* `filter_eraseDups`, `eraseDups_append_cons_of_mem`: what can be left out before.
* `filterMap_filter_of_none`: what can be left out before something is made of the items.
* `eraseDups_append_eq`: what stays of two lists, one behind the other.
* `length_filter_eraseDups`, `length_filterMap_eraseDups`: how many different items there are.
* `filter_key_filterMap`: in a list without repeats, only the item of a key brings something under
  that key.
-/

namespace ClassSheet

variable {α β : Type} [BEq α] [LawfulBEq α]

/-- The items of a list that do not occur among the items before them. -/
def firstOccurrences (xs : List α) : List α :=
  (xs.zipIdx.filter fun p => p.1 ∉ xs.take p.2).map Prod.fst

/-- One more item at the end stays iff it did not occur. -/
theorem eraseDups_concat (xs : List α) (x : α) :
    (xs ++ [x]).eraseDups = xs.eraseDups ++ if x ∈ xs then [] else [x] := by
  rw [List.eraseDups_append]
  by_cases hx : x ∈ xs
  · simp [List.removeAll, hx]
  · simp [List.removeAll, hx, List.eraseDups_cons]

theorem firstOccurrences_concat (xs : List α) (x : α) :
    firstOccurrences (xs ++ [x]) = firstOccurrences xs ++ if x ∈ xs then [] else [x] := by
  unfold firstOccurrences
  have hbefore : ∀ p ∈ xs.zipIdx, (xs ++ [x]).take p.2 = xs.take p.2 := by
    intro p hp
    have hlt := List.snd_lt_of_mem_zipIdx hp
    rw [List.take_append_of_le_length (by omega)]
  rw [List.zipIdx_append, List.filter_append, List.map_append]
  congr 1
  · rw [List.filter_congr fun p hp => by rw [hbefore p hp]]
  · by_cases hx : x ∈ xs <;> simp [hx]

theorem eraseDups_eq_firstOccurrences (xs : List α) : xs.eraseDups = firstOccurrences xs := by
  induction xs using List.reverseRecOn with
  | nil => rfl
  | append_singleton xs x ih => rw [eraseDups_concat, firstOccurrences_concat, ih]

theorem nodup_eraseDups (xs : List α) : xs.eraseDups.Nodup := by
  induction xs using List.reverseRecOn with
  | nil => exact List.nodup_nil
  | append_singleton xs x ih =>
    rw [eraseDups_concat]
    by_cases hx : x ∈ xs
    · simpa [hx] using ih
    · rw [if_neg hx, List.nodup_append]
      refine ⟨ih, List.nodup_singleton x, ?_⟩
      intro y hy x' hx'
      rw [List.mem_singleton] at hx'
      rw [List.mem_eraseDups] at hy
      intro he
      exact hx (by rwa [← hx', ← he])

theorem eraseDups_eq_self {xs : List α} (h : xs.Nodup) : xs.eraseDups = xs := by
  induction xs using List.reverseRecOn with
  | nil => rfl
  | append_singleton xs x ih =>
    rw [← List.concat_eq_append, List.nodup_concat] at h
    rw [eraseDups_concat, ih h.2, if_neg h.1]

theorem eraseDups_eraseDups (xs : List α) : xs.eraseDups.eraseDups = xs.eraseDups :=
  eraseDups_eq_self (nodup_eraseDups xs)

/-- An item that occurs before can be left out. -/
theorem eraseDups_append_cons_of_mem {xs : List α} {x : α} (h : x ∈ xs) (ys : List α) :
    (xs ++ x :: ys).eraseDups = (xs ++ ys).eraseDups := by
  have hremove : (x :: ys).removeAll xs = ys.removeAll xs := by
    rw [List.cons_removeAll, if_neg (by simpa using h)]
  rw [List.eraseDups_append, List.eraseDups_append, hremove]

/-- Behind other items those stay that do not occur among them, each where it occurs first. -/
theorem eraseDups_append_eq (xs ys : List α) :
    (xs ++ ys).eraseDups = xs.eraseDups ++ (ys.filter (· ∉ xs)).eraseDups := by
  rw [List.eraseDups_append, List.removeAll]
  congr 2
  exact List.filter_congr fun y _ => by simp

theorem filter_eraseDups (p : α → Bool) (xs : List α) :
    xs.eraseDups.filter p = (xs.filter p).eraseDups := by
  induction xs using List.reverseRecOn with
  | nil => rfl
  | append_singleton xs x ih =>
    rw [eraseDups_concat, List.filter_append, List.filter_append, ih]
    by_cases hp : p x
    · rw [List.filter_cons_of_pos hp, List.filter_nil, eraseDups_concat]
      by_cases hx : x ∈ xs <;> simp [hx, hp]
    · by_cases hx : x ∈ xs <;> simp [hx, hp]

/-- As many items stay as there are different ones. -/
theorem length_filter_eraseDups (p : α → Bool) (xs : List α) :
    (xs.eraseDups.filter p).length = {x | x ∈ xs ∧ p x}.ncard := by
  classical
  have hset : {x | x ∈ xs ∧ p x} = ↑(xs.eraseDups.filter p).toFinset := by
    ext x
    simp
  rw [hset, Set.ncard_coe_finset,
    List.toFinset_card_of_nodup ((nodup_eraseDups xs).filter p)]

theorem length_filterMap_eraseDups (f : α → Option β) (xs : List α) :
    (xs.eraseDups.filterMap f).length = {x | x ∈ xs ∧ (f x).isSome}.ncard := by
  rw [List.length_filterMap_eq_countP, List.countP_eq_length_filter, length_filter_eraseDups]

omit [BEq α] [LawfulBEq α] in
/-- What brings nothing can be left out. -/
theorem filterMap_filter_of_none {p : α → Bool} {f : α → Option β}
    (h : ∀ x, ¬p x → f x = none) (xs : List α) : (xs.filter p).filterMap f = xs.filterMap f := by
  rw [List.filterMap_filter]
  refine List.filterMap_congr fun x _ => ?_
  by_cases hx : p x
  · rw [if_pos hx]
  · rw [if_neg hx, h x hx]

/-- In a list without repeats, only the item of a key brings something under that key. -/
theorem filter_key_filterMap {f : α → Option β} {key : β → α}
    (hkey : ∀ a b, f a = some b → key b = a) {xs : List α} (hxs : xs.Nodup) (a : α) :
    (xs.filterMap f).filter (key · == a) = if a ∈ xs then (f a).toList else [] := by
  induction xs with
  | nil => rfl
  | cons x xs ih =>
    rw [List.nodup_cons] at hxs
    rw [List.filterMap_cons]
    cases hfx : f x with
    | none =>
      rw [ih hxs.2]
      by_cases hax : a = x
      · subst hax
        simp [hxs.1, hfx]
      · simp [hax]
    | some b =>
      have hb := hkey x b hfx
      by_cases hax : a = x
      · subst hax
        simp [hb, ih hxs.2, hxs.1, hfx]
      · have hxa : ¬x = a := fun e => hax e.symm
        simp [hb, ih hxs.2, hax, hxa]

end ClassSheet
