import ClassSheet.Proofs.Theme.Match
import Mathlib.Data.List.Infix

/-!
# How the two policies are related

The exact policy goes through the index, the substring policy through the tokens in their order.
What the exact policy means by a body is a token whose name begins the body, so the substring policy
stops at that token at the latest.

* `NamesAtMostOne`: at most one token has a name that occurs in the body.
* `resolve?_substring_at_or_before`: the substring policy means the token that the exact policy
  means, or an earlier one.
* `resolve?_substring_of_exact`: it means the same token if no other name occurs in the body.
* `resolve?_exact_of_direction?`: and if then the body has a side, the exact policy means that token
  as well.
-/

namespace ClassSheet.Theme

variable {theme : Theme} {policy : Policy} {body : Text} {d : DesignToken}

/-- At most one token has a name that occurs in the body. -/
def NamesAtMostOne (theme : Theme) (body : Text) : Prop :=
  ∀ d ∈ theme.tokens, ∀ d' ∈ theme.tokens, d.name <:+: body → d'.name <:+: body → d = d'

instance (theme : Theme) (body : Text) : Decidable (theme.NamesAtMostOne body) :=
  inferInstanceAs (Decidable (∀ d ∈ theme.tokens, ∀ d' ∈ theme.tokens,
    d.name <:+: body → d'.name <:+: body → d = d'))

/-- Two policies mean the same token by a body in which no other name occurs, if both mean one. -/
theorem NamesAtMostOne.eq_of_resolve? (hone : theme.NamesAtMostOne body) {policy' : Policy}
    {d' : DesignToken} (h : theme.resolve? policy body = some d)
    (h' : theme.resolve? policy' body = some d') : d = d' :=
  hone d (mem_of_resolve? h) d' (mem_of_resolve? h') (name_infix_of_resolve? h)
    (name_infix_of_resolve? h')

/-- The substring policy stops at the token that the exact policy means, at the latest. -/
theorem resolve?_substring_at_or_before (h : theme.resolve? .exact body = some d) :
    ∃ (d' : DesignToken) (i j : Nat), theme.resolve? .substring body = some d' ∧ i ≤ j ∧
      theme.tokens[i]? = some d' ∧ theme.tokens[j]? = some d := by
  obtain ⟨j, hj, hd⟩ := List.getElem_of_mem (mem_of_resolve? h)
  have hcontains := Text.contains_iff.mpr (name_infix_of_resolve? h)
  cases hfind : theme.resolve? .substring body with
  | none =>
    rw [resolve?_substring] at hfind
    exact absurd hcontains (List.find?_eq_none.mp hfind d (mem_of_resolve? h))
  | some d' =>
    rw [resolve?_substring, List.find?_eq_some_iff_getElem] at hfind
    obtain ⟨-, i, hi, hd', hbefore⟩ := hfind
    refine ⟨d', i, j, rfl, ?_, by simp [hi, hd'], by simp [hj, hd]⟩
    by_contra hlt
    have hnot := hbefore j (by omega)
    rw [hd, hcontains] at hnot
    cases hnot

theorem resolve?_substring_of_exact (hone : theme.NamesAtMostOne body)
    (h : theme.resolve? .exact body = some d) : theme.resolve? .substring body = some d := by
  obtain ⟨d', _, _, hd', -⟩ := resolve?_substring_at_or_before h
  rw [hd', hone.eq_of_resolve? hd' h]

/-- A body with a side of the token that it means is in the index. What the index has for it has a
name that occurs in it, and so is the same token. -/
theorem resolve?_exact_of_direction? (hone : theme.NamesAtMostOne body)
    (h : theme.resolve? policy body = some d) {direction : Direction}
    (hdirection : d.direction? body = some direction) : theme.resolve? .exact body = some d := by
  obtain ⟨s, hs, hbody, -⟩ := DesignToken.direction?_eq_some_iff.mp hdirection
  obtain ⟨e, he⟩ := Option.isSome_iff_exists.mp (isSome_lookup? (mem_of_resolve? h) hs)
  rw [← hbody] at he
  have hexact := resolve?_exact_of_lookup? he
  rw [hexact, hone.eq_of_resolve? hexact h]

end ClassSheet.Theme
