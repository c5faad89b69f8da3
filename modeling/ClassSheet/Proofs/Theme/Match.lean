import ClassSheet.Proofs.Theme.Lookup

/-!
# What a body means, and the side that it names

Two mechanisms decide about the body of a structured class: the index, with the four sides as a
fallback, finds the token, and the token compares the body with its own suffixes. They are
independent of each other, and they agree.

* `resolve?_exact_of_lookup?`, `exists_side_of_resolve?_exact`: the two ways in which a body means
  a token under the exact policy.
* `mem_of_resolve?`, `name_infix_of_resolve?`: whatever the policy, a body means a token of the
  theme whose name occurs in it.
* `resolve?_name`: a token that some body means is also what its own name means.
* `lookup?_of_direction?`: under the exact policy only bodies in the index have a direction.
* `lookup?_direction?_agree`: under the exact policy the index and the suffixes of the tokens
  agree on every body.
-/

namespace ClassSheet.Theme

variable {theme : Theme} {policy : Policy} {body : Text} {d : DesignToken}

/-! ## The exact policy -/

theorem resolve?_exact_of_lookup? {e : Entry} (h : theme.lookup? body = some e) :
    theme.resolve? .exact body = some e.token := by
  simp [resolve?, resolveExact?, h]

/-- A body that the index does not know means the token whose name it is without a side. -/
theorem exists_side_of_resolve?_exact (hnone : theme.lookup? body = none)
    (h : theme.resolve? .exact body = some d) :
    d ∈ theme.tokens ∧ ∃ side ∈ sideSuffixes, body = d.name ++ side := by
  unfold resolve? resolveExact? at h
  rw [hnone, Option.map_none, Option.none_or] at h
  obtain ⟨side, hside, h⟩ := List.exists_of_findSome?_eq_some h
  obtain ⟨base, hbase, hget⟩ := Option.bind_eq_some_iff.mp h
  obtain ⟨hd, rfl⟩ := get?_eq_some_iff.mp hget
  exact ⟨hd, side, hside, Text.before?_eq_some_iff.mp hbase⟩

/-- Under the exact policy a body begins with the name of the token that it means. -/
theorem name_prefix_of_resolve?_exact (h : theme.resolve? .exact body = some d) :
    d ∈ theme.tokens ∧ ∃ s, body = d.name ++ s := by
  cases hlookup : theme.lookup? body with
  | none =>
    obtain ⟨hd, side, -, hbody⟩ := exists_side_of_resolve?_exact hlookup h
    exact ⟨hd, side, hbody⟩
  | some e =>
    rw [resolve?_exact_of_lookup? hlookup] at h
    cases h
    obtain ⟨hd, -, hbody⟩ := of_lookup?_eq_some hlookup
    exact ⟨hd, e.suffix, hbody⟩

/-! ## Both policies -/

theorem resolve?_substring (theme : Theme) (body : Text) :
    theme.resolve? .substring body = theme.tokens.find? fun d => Text.contains d.name body := rfl

theorem mem_of_resolve? (h : theme.resolve? policy body = some d) : d ∈ theme.tokens := by
  cases policy with
  | exact => exact (name_prefix_of_resolve?_exact h).1
  | substring => exact List.mem_of_find?_eq_some h

/-- Whatever the policy, the name of the token that a body means occurs in the body. -/
theorem name_infix_of_resolve? (h : theme.resolve? policy body = some d) : d.name <:+: body := by
  cases policy with
  | exact =>
    obtain ⟨-, s, rfl⟩ := name_prefix_of_resolve?_exact h
    exact (List.prefix_append d.name s).isInfix
  | substring =>
    rw [resolve?_substring] at h
    have hcontains := List.find?_some h
    exact Text.contains_iff.mp hcontains

/-- A token that some body means is also what its own name means. Under the substring policy an
earlier token whose name occurs in that name would occur in the body as well. -/
theorem resolve?_name (h : theme.resolve? policy body = some d) :
    theme.resolve? policy d.name = some d := by
  cases policy with
  | exact => exact resolve?_exact_of_lookup? (lookup?_name (mem_of_resolve? h))
  | substring =>
    have hinfix := name_infix_of_resolve? h
    obtain ⟨-, before, after, htokens, hbefore⟩ := List.find?_eq_some_iff_append.mp h
    refine List.find?_eq_some_iff_append.mpr ⟨?_, before, after, htokens, ?_⟩
    · exact Text.contains_iff.mpr List.infix_rfl
    · intro d' hd'
      have hbody := hbefore d' hd'
      rw [Bool.not_eq_true', Bool.eq_false_iff, ne_eq, Text.contains_iff] at hbody ⊢
      exact fun hname => hbody (hname.trans hinfix)

/-! ## Agreement of the index with the suffixes -/

theorem direction?_of_lookup? {e : Entry} (h : theme.lookup? body = some e) :
    e.token.direction? body = some (.ofSuffix e.suffix) := by
  obtain ⟨-, hs, hbody⟩ := of_lookup?_eq_some h
  exact DesignToken.direction?_eq_some_iff.mpr ⟨e.suffix, hs, hbody, rfl⟩

theorem direction?_of_lookup?_eq_none (h : theme.lookup? body = none) (hd : d ∈ theme.tokens) :
    d.direction? body = none :=
  DesignToken.direction?_eq_none_iff.mpr (lookup?_eq_none_iff.mp h d hd)

/-- Under the exact policy a body with a direction is in the index. The fallback to the four sides
never yields one. -/
theorem lookup?_of_direction? {direction : Direction} (h : theme.resolve? .exact body = some d)
    (hdirection : d.direction? body = some direction) :
    ∃ s, theme.lookup? body = some ⟨d, s⟩ ∧ direction = .ofSuffix s := by
  cases hlookup : theme.lookup? body with
  | none =>
    have hnone := direction?_of_lookup?_eq_none hlookup (mem_of_resolve? h)
    rw [hnone] at hdirection
    cases hdirection
  | some e =>
    rw [resolve?_exact_of_lookup? hlookup] at h
    cases h
    rw [direction?_of_lookup? hlookup] at hdirection
    cases hdirection
    exact ⟨e.suffix, rfl, rfl⟩

/-- Under the exact policy the index and the suffixes of the tokens agree. A body in the index
means the token of its entry, which finds in it the suffix of that entry. A body that means a token
without being in the index is the name of that token with a side that it does not declare. And a
body is in the index iff some token of the theme finds a direction in it. -/
theorem lookup?_direction?_agree (theme : Theme) (body : Text) :
    (∀ d s, theme.lookup? body = some ⟨d, s⟩ →
      theme.resolve? .exact body = some d ∧
      ∃ direction, d.direction? body = some direction ∧ direction.suffix = s ∧
        (direction = .all ↔ s = [])) ∧
    (∀ d, theme.lookup? body = none → theme.resolve? .exact body = some d →
      (∃ side ∈ sideSuffixes, body = d.name ++ side ∧ side ∉ d.suffixes) ∧
      d.direction? body = none) ∧
    ((theme.lookup? body).isSome ↔ ∃ d ∈ theme.tokens, (d.direction? body).isSome) := by
  refine ⟨?_, ?_, ?_⟩
  · intro d s h
    refine ⟨resolve?_exact_of_lookup? h, .ofSuffix s, direction?_of_lookup? h, ?_, ?_⟩
    · exact Direction.suffix_ofSuffix s
    · exact Direction.ofSuffix_eq_all_iff
  · intro d hnone h
    obtain ⟨hd, side, hside, hbody⟩ := exists_side_of_resolve?_exact hnone h
    refine ⟨⟨side, hside, hbody, ?_⟩, direction?_of_lookup?_eq_none hnone hd⟩
    intro hdeclared
    exact lookup?_eq_none_iff.mp hnone d hd side hdeclared hbody
  · constructor
    · intro h
      obtain ⟨e, he⟩ := Option.isSome_iff_exists.mp h
      refine ⟨e.token, (of_lookup?_eq_some he).1, ?_⟩
      rw [direction?_of_lookup? he]
      rfl
    · rintro ⟨d, hd, h⟩
      obtain ⟨direction, hdirection⟩ := Option.isSome_iff_exists.mp h
      obtain ⟨s, hs, rfl, -⟩ := DesignToken.direction?_eq_some_iff.mp hdirection
      exact isSome_lookup? hd hs

/-- Two names that overlap: `a-b-c` is both `a` with `-b-c` and `a-b` with `-c`. The third token
declares no side at all. -/
def overlapping : Theme :=
  .ofNormal
    [{ name := "a".toList, property := "gap".toList, kind := .range, value := .text "1".toList,
       directions := [[], "-b-c".toList] },
     { name := "a-b".toList, property := "gap".toList, kind := .range, value := .text "2".toList,
       directions := [[], "-c".toList] },
     .color "line".toList "border-color".toList "black".toList]
    rfl

/-- The first of the two tokens has the body; and a side of the third token is resolved without a
direction. -/
theorem lookup?_direction?_agree_overlapping :
    (∃ d, overlapping.lookup? "a-b-c".toList = some ⟨d, "-b-c".toList⟩ ∧
      overlapping.resolve? .exact "a-b-c".toList = some d ∧
      ∃ direction, d.direction? "a-b-c".toList = some direction ∧
        direction.suffix = "-b-c".toList) ∧
    (∃ d, overlapping.lookup? "line-top".toList = none ∧
      overlapping.resolve? .exact "line-top".toList = some d ∧
      d.direction? "line-top".toList = none) := by
  obtain ⟨hfound, -, -⟩ := lookup?_direction?_agree overlapping "a-b-c".toList
  obtain ⟨-, hside, -⟩ := lookup?_direction?_agree overlapping "line-top".toList
  constructor
  · have h : overlapping.lookup? "a-b-c".toList =
        some ⟨overlapping.tokens[0], "-b-c".toList⟩ := by decide
    obtain ⟨hresolve, direction, hdirection, hsuffix, -⟩ := hfound _ _ h
    exact ⟨_, h, hresolve, direction, hdirection, hsuffix⟩
  · have hnone : overlapping.lookup? "line-top".toList = none := by decide
    have h : overlapping.resolve? .exact "line-top".toList = some overlapping.tokens[2] := by
      decide
    exact ⟨_, hnone, h, (hside _ hnone h).2⟩

end ClassSheet.Theme
