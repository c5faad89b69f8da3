import ClassSheet.DesignToken
import Std.Data.TreeMap

/-!
# Themes

A theme is an ordered collection of design tokens with distinct names, together with an index of
the names its tokens may be used under: each name alone, and followed by each declared suffix.

* `ThemeError`: why a list of tokens is no theme.
* `Theme.Index`: the index. A name alone always wins over a name with a suffix; of two names with
  suffixes the first in the order of the tokens wins.
* `Theme`: the tokens and their index, with the facts that hold of every theme.
* `Theme.ofTokens`: checks a list of tokens, one after the other.
* `Theme.get?`, `Theme.lookup?`: the token of a name, and of a name with or without a suffix.
-/

namespace ClassSheet

/-- Why a list of design tokens is no theme. -/
inductive ThemeError where
  /-- Two tokens have this name. -/
  | duplicateName (name : Text)
  /-- The token at this index has an empty name. -/
  | emptyName (index : Nat)
  /-- The token of this name has an empty property. -/
  | emptyProperty (name : Text)
  deriving DecidableEq, Repr

/-- The message for the user. -/
def ThemeError.message : ThemeError → Text
  | .duplicateName name => "duplicate property name '".toList ++ name ++ "'".toList
  | .emptyName index =>
    "property definition at index ".toList ++ Text.ofNat index ++ " has an empty name".toList
  | .emptyProperty name => "property '".toList ++ name ++ "' has no CSS property".toList

namespace Theme

/-- A token together with the suffix it is used with. -/
structure Entry where
  token : DesignToken
  suffix : Text
  deriving DecidableEq, Repr

/-- From names, with or without a suffix, to tokens. -/
abbrev Index := Std.TreeMap Text Entry

namespace Index

/-- Enters a token under its name alone, over anything entered before. -/
def insertName (index : Index) (d : DesignToken) : Index :=
  index.insert d.name ⟨d, []⟩

/-- Enters a token under its name with each of its suffixes, where nothing is entered yet. -/
def insertSuffixes (index : Index) (d : DesignToken) : Index :=
  (d.suffixes.filter (· != [])).foldl
    (fun index suffix => index.insertIfNew (d.name ++ suffix) ⟨d, suffix⟩) index

/-- Enters all names alone, and then all names with suffixes. -/
def ofTokens (tokens : List DesignToken) : Index :=
  tokens.foldl insertSuffixes (tokens.foldl insertName ∅)

end Index

/-- Checks the tokens behind the first `index` ones, whose names are `seen`, and declares the
empty suffix of each. For each token the checks are: a name, a property, a new name. -/
def accept (seen : List Text) (index : Nat) :
    List DesignToken → Except ThemeError (List DesignToken)
  | [] => .ok []
  | d :: tokens =>
    if d.name = [] then .error (.emptyName index)
    else if d.property = [] then .error (.emptyProperty d.name)
    else if d.name ∈ seen then .error (.duplicateName d.name)
    else (accept (d.name :: seen) (index + 1) tokens).map (d.normalize :: ·)

/-- What holds of the tokens of a theme, the names in `seen` being taken. -/
structure Accepted (seen : List Text) (tokens : List DesignToken) : Prop where
  name_ne_nil : ∀ d ∈ tokens, d.name ≠ []
  property_ne_nil : ∀ d ∈ tokens, d.property ≠ []
  name_notMem : ∀ d ∈ tokens, d.name ∉ seen
  nodup_names : (tokens.map (·.name)).Nodup
  normalize_eq : ∀ d ∈ tokens, d.normalize = d

/-- Tokens are accepted iff the first one passes all checks and the others are accepted behind it. -/
theorem accept_cons_eq_ok_iff {seen : List Text} {index : Nat} {d : DesignToken}
    {tokens accepted : List DesignToken} :
    accept seen index (d :: tokens) = .ok accepted ↔
      d.name ≠ [] ∧ d.property ≠ [] ∧ d.name ∉ seen ∧
        ∃ rest, accept (d.name :: seen) (index + 1) tokens = .ok rest ∧
          accepted = d.normalize :: rest := by
  rw [accept]
  by_cases hname : d.name = []
  · simp [hname]
  by_cases hproperty : d.property = []
  · simp [hname, hproperty]
  by_cases hseen : d.name ∈ seen
  · simp [hname, hproperty, hseen]
  cases accept (d.name :: seen) (index + 1) tokens <;>
    simp [hname, hproperty, hseen, Except.map, eq_comm]

theorem accepted_of_accept {seen : List Text} {index : Nat} {tokens accepted : List DesignToken}
    (h : accept seen index tokens = .ok accepted) : Accepted seen accepted := by
  induction tokens generalizing seen index accepted with
  | nil => cases h; exact ⟨by simp, by simp, by simp, by simp, by simp⟩
  | cons d tokens ih =>
    obtain ⟨hname, hproperty, hseen, rest, hrest, rfl⟩ := accept_cons_eq_ok_iff.mp h
    have a := ih hrest
    refine ⟨?_, ?_, ?_, ?_, ?_⟩
    · simpa [hname] using a.name_ne_nil
    · simpa [hproperty] using a.property_ne_nil
    · simpa [hseen] using fun d hd h => a.name_notMem d hd (List.mem_cons_of_mem _ h)
    · refine List.nodup_cons.mpr ⟨?_, a.nodup_names⟩
      simp only [DesignToken.name_normalize, List.mem_map, not_exists, not_and]
      exact fun d' hd' e => a.name_notMem d' hd' (e ▸ List.mem_cons_self)
    · simpa using a.normalize_eq

end Theme

/-- An ordered collection of design tokens and its index. -/
structure Theme where
  tokens : List DesignToken
  index : Theme.Index
  accepted : Theme.Accepted [] tokens
  index_eq : index = Theme.Index.ofTokens tokens

namespace Theme

/-- The theme of tokens that were accepted. -/
def ofAccepted (tokens : List DesignToken) (h : Accepted [] tokens) : Theme :=
  ⟨tokens, .ofTokens tokens, h, rfl⟩

/-- The theme of a list of tokens, or the first problem in it. -/
def ofTokens (tokens : List DesignToken) : Except ThemeError Theme :=
  match h : accept [] 0 tokens with
  | .ok tokens => .ok (.ofAccepted tokens (accepted_of_accept h))
  | .error e => .error e

/-- The token that may be used under a name, and the suffix that is part of the name. -/
def lookup? (theme : Theme) (fullName : Text) : Option Entry :=
  theme.index[fullName]?

/-- The token of a name. Its entry is the one without a suffix. -/
def get? (theme : Theme) (name : Text) : Option DesignToken :=
  ((theme.lookup? name).filter (·.suffix == [])).map (·.token)

end Theme

end ClassSheet
