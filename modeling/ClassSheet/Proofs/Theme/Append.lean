import ClassSheet.Proofs.Theme.Order
import Mathlib.Data.List.Infix

/-!
# One more token at the end of a theme

A token that is declared behind all others has its own name, even where an earlier token composes
it, and the keys that it composes if nothing was found under them before. All else is found as
before.

* `side_unique`: a body ends with one of the four sides at most.
* `resolve?_exact_eq_some_iff`: what the exact policy means by a body, without a search through the
  sides.
* `YieldsTo`: the bodies that a theme leaves to a token behind its own.
* `lookup?_concat`: what is found in the longer theme.
* `resolve?_substring_concat`, `resolve?_exact_concat_of_not_yieldsTo`,
  `resolve?_exact_concat_of_yieldsTo`: what bodies mean in the longer theme.
-/

namespace ClassSheet.Theme

/-! ## The exact policy without a search -/

theorem side_unique {body side side' : Text} (hside : side ∈ sideSuffixes)
    (hside' : side' ∈ sideSuffixes) (h : side <:+ body) (h' : side' <:+ body) : side = side' := by
  have hnested : ∀ s ∈ sideSuffixes, ∀ s' ∈ sideSuffixes, s <:+ s' → s = s' := by decide
  rcases List.suffix_or_suffix_of_suffix h h' with h | h
  · exact hnested side hside side' hside' h
  · exact (hnested side' hside' side hside h).symm

/-- Under the exact policy a body means the token that is found under it; and if none is found, the
token whose name it is without a side. -/
theorem resolve?_exact_eq_some_iff {theme : Theme} {body : Text} {d : DesignToken} :
    theme.resolve? .exact body = some d ↔
      (∃ s, theme.lookup? body = some ⟨d, s⟩) ∨
        theme.lookup? body = none ∧ d ∈ theme.tokens ∧
          ∃ side ∈ sideSuffixes, body = d.name ++ side := by
  constructor
  · intro h
    cases hlookup : theme.lookup? body with
    | none => exact .inr ⟨rfl, exists_side_of_resolve?_exact hlookup h⟩
    | some e =>
      rw [resolve?_exact_of_lookup? hlookup] at h
      cases h
      exact .inl ⟨e.suffix, rfl⟩
  · rintro (⟨s, h⟩ | ⟨hnone, hd, side, hside, rfl⟩)
    · exact resolve?_exact_of_lookup? h
    · rw [resolve?, resolveExact?, hnone, Option.map_none, Option.none_or]
      have hfound : (Text.before? side (d.name ++ side)).bind theme.get? = some d := by
        rw [Text.before?_eq_some_iff.mpr rfl, Option.bind_some]
        exact get?_eq_some_iff.mpr ⟨hd, rfl⟩
      cases hfind : sideSuffixes.findSome? fun side' =>
          (Text.before? side' (d.name ++ side)).bind theme.get? with
      | none =>
        rw [List.findSome?_eq_none_iff.mp hfind side hside] at hfound
        cases hfound
      | some d' =>
        -- The search stops at the first side that the body ends with, and there is only one.
        obtain ⟨side', hside', h'⟩ := List.exists_of_findSome?_eq_some hfind
        obtain ⟨base, hbase, -⟩ := Option.bind_eq_some_iff.mp h'
        have hsuffix : side' <:+ d.name ++ side := ⟨base, (Text.before?_eq_some_iff.mp hbase).symm⟩
        have hsame := side_unique hside' hside hsuffix (List.suffix_append d.name side)
        rw [hsame, hfound] at h'
        exact h'.symm

/-! ## The longer theme -/

/-- The theme leaves a body to a token that is declared behind its own ones: the body is the name of
that token, or nothing is found under it and it is that name with a declared suffix. -/
def YieldsTo (theme : Theme) (d : DesignToken) (body : Text) : Prop :=
  body = d.name ∨ theme.lookup? body = none ∧ ∃ s ∈ d.suffixes, body = d.name ++ s

instance (theme : Theme) (d : DesignToken) (body : Text) : Decidable (theme.YieldsTo d body) :=
  inferInstanceAs
    (Decidable (body = d.name ∨ theme.lookup? body = none ∧ ∃ s ∈ d.suffixes, body = d.name ++ s))

theorem yieldsTo_iff_composes {theme : Theme} {d : DesignToken} {body : Text} :
    theme.YieldsTo d body ↔
      body = d.name ∨ theme.lookup? body = none ∧ ∃ s, d.Composes body s := by
  constructor
  · rintro (h | ⟨hnone, s, hs, rfl⟩)
    · exact .inl h
    · by_cases hne : s = []
      · exact .inl (by rw [hne, List.append_nil])
      · exact .inr ⟨hnone, s, hs, hne, rfl⟩
  · rintro (h | ⟨hnone, s, hs, -, hbody⟩)
    · exact .inl h
    · exact .inr ⟨hnone, s, hs, hbody⟩

/-- Declaring the empty suffix makes no difference. -/
theorem yieldsTo_normalize {theme : Theme} {d : DesignToken} {body : Text} :
    theme.YieldsTo d.normalize body ↔ theme.YieldsTo d body := by
  simp only [yieldsTo_iff_composes, DesignToken.name_normalize, DesignToken.composes_normalize]

theorem tokens_of_ofTokens_concat {given : List DesignToken} {d : DesignToken}
    {theme longer : Theme} (h : ofTokens given = .ok theme)
    (hlonger : ofTokens (given ++ [d]) = .ok longer) :
    longer.tokens = theme.tokens ++ [d.normalize] := by
  rw [tokens_of_ofTokens h, tokens_of_ofTokens hlonger, List.map_append, List.map_singleton]

section Concat

variable {theme longer : Theme} {d e : DesignToken} {body : Text}
  (htokens : longer.tokens = theme.tokens ++ [d])

include htokens

theorem name_ne_of_concat (he : e ∈ theme.tokens) : e.name ≠ d.name := by
  have hnodup := longer.accepted.nodup_names
  rw [htokens, List.map_append, List.nodup_append] at hnodup
  exact hnodup.2.2 _ (List.mem_map_of_mem he) _ (by simp)

/-- The last token is found under its name, and under the keys that it composes if nothing else is
found there. -/
theorem lookup?_concat (key : Text) :
    longer.lookup? key =
      if d.name = key then some ⟨d, []⟩ else (theme.lookup? key).or (d.composed? key) := by
  have hd : d ∈ longer.tokens := by simp [htokens]
  split
  · rename_i hname
    rw [← hname]
    exact lookup?_name hd
  · rename_i hname
    rw [lookup?_eq, lookup?_eq, htokens, List.find?_append, List.findSome?_append]
    simp [hname, Option.or_assoc]

theorem resolve?_substring_concat (h : theme.resolve? .substring body = some e) :
    longer.resolve? .substring body = some e := by
  rw [resolve?_substring] at h ⊢
  rw [htokens, List.find?_append, h, Option.some_or]

/-- What is not left to the last token is found as before, and so is the token of a body with an
undeclared side. -/
theorem resolve?_exact_concat_of_not_yieldsTo (hkeeps : ¬theme.YieldsTo d body)
    (h : theme.resolve? .exact body = some e) : longer.resolve? .exact body = some e := by
  rw [yieldsTo_iff_composes, not_or] at hkeeps
  obtain ⟨hname, hcomposes⟩ := hkeeps
  rw [resolve?_exact_eq_some_iff] at h ⊢
  rw [lookup?_concat htokens, if_neg fun he => hname he.symm]
  rcases h with ⟨s, h⟩ | ⟨hnone, he, hside⟩
  · exact .inl ⟨s, by rw [h, Option.some_or]⟩
  · refine .inr ⟨?_, by simp [htokens, he], hside⟩
    rw [hnone, Option.none_or, DesignToken.composed?_eq_none_iff]
    exact fun s hs => hcomposes ⟨hnone, s, hs⟩

theorem resolve?_exact_concat_of_yieldsTo (hyields : theme.YieldsTo d body) :
    longer.resolve? .exact body = some d := by
  rw [resolve?_exact_eq_some_iff, lookup?_concat htokens]
  rcases yieldsTo_iff_composes.mp hyields with rfl | ⟨hnone, s, hs, hne, hbody⟩
  · exact .inl ⟨[], by rw [if_pos rfl]⟩
  · refine .inl ⟨s, ?_⟩
    have hname : d.name ≠ body := by simpa [hbody] using hne
    rw [if_neg hname, hnone, Option.none_or]
    exact DesignToken.composed?_eq_some_iff.mpr ⟨rfl, hs, hne, hbody⟩

end Concat

end ClassSheet.Theme
