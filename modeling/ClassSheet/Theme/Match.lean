import ClassSheet.Theme.Basic

/-!
# Which token a class means

The body of a structured class means a design token of the theme, under one of two policies. Then
the body is compared with the suffixes of that token.

* `Policy.exact`: the body is a name the token may be used under; or it is the name of a token
  followed by one of the four sides, whether the token declares that side or not.
* `Policy.substring`: the first token whose name occurs in the body. With `margin` declared before
  `margin-inline`, the body `margin-inline` means `margin`.
* `Theme.resolve?`: the token that a body means.
* `DesignToken.direction?`: the side of a body, if the token declares it.
-/

namespace ClassSheet

/-- How bodies of structured classes are matched with tokens. -/
inductive Policy where
  | exact
  | substring
  deriving DecidableEq, Repr

/-- The word for a policy. -/
def Policy.word : Policy → Text
  | .exact => "exact".toList
  | .substring => "substring".toList

/-- The suffixes of the four sides. -/
def sideSuffixes : List Text :=
  ["-top".toList, "-right".toList, "-bottom".toList, "-left".toList]

/-- The part of a property that a class applies to. -/
inductive Direction where
  /-- Everything. -/
  | all
  /-- What a declared suffix names. -/
  | side (suffix : Text)
  deriving DecidableEq, Repr

namespace Direction

/-- The direction that a suffix names. -/
def ofSuffix (suffix : Text) : Direction := if suffix = [] then .all else .side suffix

/-- What is appended to the name of the property. -/
def suffix : Direction → Text
  | .all => []
  | .side suffix => suffix

@[simp]
theorem suffix_ofSuffix (s : Text) : (ofSuffix s).suffix = s := by
  unfold ofSuffix
  split
  · rename_i h
    rw [h]
    rfl
  · rfl

theorem ofSuffix_eq_all_iff {s : Text} : ofSuffix s = .all ↔ s = [] := by
  unfold ofSuffix
  split <;> simp_all

end Direction

/-- The direction of a body that is the token's name followed by one of its suffixes. -/
def DesignToken.direction? (d : DesignToken) (body : Text) : Option Direction :=
  (Text.after? d.name body).bind fun rest =>
    (d.suffixes.find? (· = rest)).map Direction.ofSuffix

theorem DesignToken.direction?_eq_some_iff {d : DesignToken} {body : Text}
    {direction : Direction} :
    d.direction? body = some direction ↔
      ∃ s ∈ d.suffixes, body = d.name ++ s ∧ direction = .ofSuffix s := by
  unfold direction?
  constructor
  · intro h
    obtain ⟨rest, hrest, h⟩ := Option.bind_eq_some_iff.mp h
    obtain ⟨s, hfind, rfl⟩ := Option.map_eq_some_iff.mp h
    have hs : s = rest := by simpa using List.find?_some hfind
    subst hs
    exact ⟨s, List.mem_of_find?_eq_some hfind, Text.after?_eq_some_iff.mp hrest, rfl⟩
  · rintro ⟨s, hs, rfl, rfl⟩
    rw [Text.after?_append, Option.bind_some, Option.map_eq_some_iff]
    cases hfind : d.suffixes.find? (· = s) with
    | none => simpa using List.find?_eq_none.mp hfind s hs
    | some s' =>
      have hs' : s' = s := by simpa using List.find?_some hfind
      exact ⟨s', rfl, by rw [hs']⟩

theorem DesignToken.direction?_eq_none_iff {d : DesignToken} {body : Text} :
    d.direction? body = none ↔ ∀ s ∈ d.suffixes, body ≠ d.name ++ s := by
  rw [Option.eq_none_iff_forall_ne_some]
  constructor
  · intro h s hs hbody
    exact h _ (direction?_eq_some_iff.mpr ⟨s, hs, hbody, rfl⟩)
  · intro h direction hd
    obtain ⟨s, hs, hbody, -⟩ := direction?_eq_some_iff.mp hd
    exact h s hs hbody

namespace Theme

/-- The token that may be used under the body, or whose name is the body without a side. -/
def resolveExact? (theme : Theme) (body : Text) : Option DesignToken :=
  ((theme.lookup? body).map Entry.token).or
    (sideSuffixes.findSome? fun side => (Text.before? side body).bind theme.get?)

/-- The first token whose name occurs in the body. -/
def resolveSubstring? (theme : Theme) (body : Text) : Option DesignToken :=
  theme.tokens.find? fun d => Text.contains d.name body

/-- The token that the body of a structured class means. -/
def resolve? (theme : Theme) (policy : Policy) (body : Text) : Option DesignToken :=
  match policy with
  | .exact => theme.resolveExact? body
  | .substring => theme.resolveSubstring? body

end Theme

end ClassSheet
