import ClassSheet.Theme.Match
import Mathlib.Data.List.Nodup

/-!
# The index of a theme as a search through its tokens

The index is filled in two passes, and later look-ups see only what is left in it. Here every
look-up is an equation about the tokens themselves, in the order of their declaration.

* `DesignToken.composed?`: the entry of a token under its name with a suffix that is not empty.
* `DesignToken.Composes`: a key is the name of the token followed by such a suffix.
* `getElem?_foldl_insertName`, `getElem?_foldl_insertSuffixes`: what a pass leaves under a key.
* `lookup?_eq`: a look-up finds the token of that name, and else the first token that composes it.
* `lookup?_eq_none_iff`: a look-up finds nothing iff no token composes the key.
* `get?_eq_find?`: the token of a name, as a search by name.
* `tokens_of_ofTokens`: the tokens of a theme, in terms of the given ones.
* `lookup?_finds_first`: what look-ups find, in terms of the tokens in their order alone.
-/

namespace ClassSheet

namespace DesignToken

/-- The entry of a token under its name followed by a declared suffix that is not empty. -/
def composed? (d : DesignToken) (key : Text) : Option Theme.Entry :=
  ((d.suffixes.filter (· != [])).find? (d.name ++ · = key)).map (Theme.Entry.mk d)

theorem composed?_eq_some_iff {d : DesignToken} {key : Text} {e : Theme.Entry} :
    d.composed? key = some e ↔
      e.token = d ∧ e.suffix ∈ d.suffixes ∧ e.suffix ≠ [] ∧ key = d.name ++ e.suffix := by
  obtain ⟨d', suffix⟩ := e
  unfold composed?
  constructor
  · intro h
    obtain ⟨s, hs, he⟩ := Option.map_eq_some_iff.mp h
    cases he
    have hmem := List.mem_filter.mp (List.mem_of_find?_eq_some hs)
    have hkey := List.find?_some hs
    simp only [decide_eq_true_eq] at hkey
    exact ⟨rfl, hmem.1, by simpa using hmem.2, hkey.symm⟩
  · rintro ⟨rfl, hmem, hne, rfl⟩
    cases hfind : (d'.suffixes.filter (· != [])).find? (d'.name ++ · = d'.name ++ suffix) with
    | none =>
      have := List.find?_eq_none.mp hfind suffix (List.mem_filter.mpr ⟨hmem, by simpa using hne⟩)
      simp at this
    | some s =>
      -- Two suffixes behind the same name are equal, so it does not matter which was found first.
      have hkey := List.find?_some hfind
      simp only [List.append_cancel_left_eq, decide_eq_true_eq] at hkey
      rw [hkey]
      rfl

/-- The key is the name of the token followed by a declared suffix that is not empty. -/
def Composes (d : DesignToken) (key suffix : Text) : Prop :=
  suffix ∈ d.suffixes ∧ suffix ≠ [] ∧ key = d.name ++ suffix

instance (d : DesignToken) (key suffix : Text) : Decidable (d.Composes key suffix) :=
  inferInstanceAs (Decidable (_ ∧ _))

theorem composed?_eq_none_iff {d : DesignToken} {key : Text} :
    d.composed? key = none ↔ ∀ s, ¬d.Composes key s := by
  rw [Option.eq_none_iff_forall_ne_some]
  constructor
  · rintro h s ⟨hmem, hne, hkey⟩
    exact h ⟨d, s⟩ (composed?_eq_some_iff.mpr ⟨rfl, hmem, hne, hkey⟩)
  · intro h e he
    obtain ⟨-, hmem, hne, hkey⟩ := composed?_eq_some_iff.mp he
    exact h e.suffix ⟨hmem, hne, hkey⟩

/-- A normalized token may be used without a suffix. -/
theorem nil_mem_suffixes {d : DesignToken} (h : d.normalize = d) : [] ∈ d.suffixes := by
  unfold suffixes
  split
  · simp
  · rename_i hne
    by_cases hmem : [] ∈ d.directions
    · exact hmem
    · have := congrArg directions h
      simp [normalize, hne, hmem] at this

end DesignToken

namespace Theme

/-! ## The two passes that fill the index -/

namespace Index

theorem getElem?_insertName (index : Index) (d : DesignToken) (key : Text) :
    (index.insertName d)[key]? = if d.name = key then some ⟨d, []⟩ else index[key]? := by
  unfold insertName
  rw [Std.TreeMap.getElem?_insert]
  simp only [Std.LawfulEqCmp.compare_eq_iff_eq]

/-- What the first pass leaves under a key: as the names are distinct, the token of that name. -/
theorem getElem?_foldl_insertName (index : Index) {tokens : List DesignToken}
    (h : (tokens.map (·.name)).Nodup) (key : Text) :
    (tokens.foldl insertName index)[key]? =
      ((tokens.find? (·.name = key)).map (Entry.mk · [])).or index[key]? := by
  induction tokens generalizing index with
  | nil => simp
  | cons d tokens ih =>
    rw [List.map_cons, List.nodup_cons] at h
    rw [List.foldl_cons, ih _ h.2, getElem?_insertName, List.find?_cons]
    by_cases hd : d.name = key
    · have hnone : tokens.find? (·.name = key) = none := by
        rw [List.find?_eq_none]
        intro d' hd' he
        simp only [decide_eq_true_eq] at he
        exact h.1 (List.mem_map.mpr ⟨d', hd', he.trans hd.symm⟩)
      simp [hd, hnone]
    · simp [hd]

theorem getElem?_insertIfNew (index : Index) (name : Text) (e : Entry) (key : Text) :
    (index.insertIfNew name e)[key]? = index[key]?.or (if name = key then some e else none) := by
  rw [Std.TreeMap.getElem?_insertIfNew]
  simp only [Std.LawfulEqCmp.compare_eq_iff_eq]
  by_cases hname : name = key
  · subst hname
    by_cases hmem : name ∈ index
    · simp [hmem]
    · simp [hmem]
  · simp [hname]

theorem getElem?_insertSuffixes (index : Index) (d : DesignToken) (key : Text) :
    (index.insertSuffixes d)[key]? = index[key]?.or (d.composed? key) := by
  unfold insertSuffixes DesignToken.composed?
  induction d.suffixes.filter (· != []) generalizing index with
  | nil => simp
  | cons s suffixes ih =>
    rw [List.foldl_cons, ih, getElem?_insertIfNew, List.find?_cons, Option.or_assoc]
    by_cases hs : d.name ++ s = key
    · simp [hs]
    · simp [hs]

/-- What the second pass adds under a key: the entry of the first token that composes it. -/
theorem getElem?_foldl_insertSuffixes (index : Index) (tokens : List DesignToken) (key : Text) :
    (tokens.foldl insertSuffixes index)[key]? =
      index[key]?.or (tokens.findSome? (·.composed? key)) := by
  induction tokens generalizing index with
  | nil => simp
  | cons d tokens ih =>
    rw [List.foldl_cons, ih, getElem?_insertSuffixes, List.findSome?_cons, Option.or_assoc]
    cases d.composed? key <;> rfl

end Index

/-! ## Look-ups -/

/-- The theme of tokens that pass all checks as they are. -/
def ofNormal (tokens : List DesignToken) (h : accept [] 0 tokens = .ok tokens) : Theme :=
  .ofAccepted tokens (accepted_of_accept h)

/-- A look-up finds the token of that name, and else the first token that composes the key. -/
theorem lookup?_eq (theme : Theme) (key : Text) :
    theme.lookup? key =
      ((theme.tokens.find? (·.name = key)).map (Entry.mk · [])).or
        (theme.tokens.findSome? (·.composed? key)) := by
  unfold lookup?
  rw [theme.index_eq, Index.ofTokens, Index.getElem?_foldl_insertSuffixes,
    Index.getElem?_foldl_insertName _ theme.accepted.nodup_names]
  simp

/-- The names of a theme's tokens are distinct. -/
theorem eq_of_name_eq {theme : Theme} {d d' : DesignToken} (hd : d ∈ theme.tokens)
    (hd' : d' ∈ theme.tokens) (h : d.name = d'.name) : d = d' :=
  List.inj_on_of_nodup_map theme.accepted.nodup_names hd hd' h

theorem nil_mem_suffixes {theme : Theme} {d : DesignToken} (hd : d ∈ theme.tokens) :
    [] ∈ d.suffixes :=
  DesignToken.nil_mem_suffixes (theme.accepted.normalize_eq d hd)

theorem find?_name_eq_some_iff {theme : Theme} {name : Text} {d : DesignToken} :
    theme.tokens.find? (·.name = name) = some d ↔ d ∈ theme.tokens ∧ d.name = name := by
  constructor
  · intro h
    exact ⟨List.mem_of_find?_eq_some h, by simpa using List.find?_some h⟩
  · rintro ⟨hd, rfl⟩
    cases h : theme.tokens.find? (·.name = d.name) with
    | none => simpa using List.find?_eq_none.mp h d hd
    | some d' =>
      have hname : d'.name = d.name := by simpa using List.find?_some h
      rw [eq_of_name_eq (List.mem_of_find?_eq_some h) hd hname]

/-- A token is found under its name, whatever other tokens compose it. -/
theorem lookup?_name {theme : Theme} {d : DesignToken} (hd : d ∈ theme.tokens) :
    theme.lookup? d.name = some ⟨d, []⟩ := by
  rw [lookup?_eq, find?_name_eq_some_iff.mpr ⟨hd, rfl⟩]
  rfl

/-- What a look-up finds is a token of the theme, with a suffix that it declares. -/
theorem of_lookup?_eq_some {theme : Theme} {key : Text} {e : Entry}
    (h : theme.lookup? key = some e) :
    e.token ∈ theme.tokens ∧ e.suffix ∈ e.token.suffixes ∧ key = e.token.name ++ e.suffix := by
  rw [lookup?_eq] at h
  rcases Option.or_eq_some_iff.mp h with h | ⟨-, h⟩
  · obtain ⟨d, hfind, rfl⟩ := Option.map_eq_some_iff.mp h
    obtain ⟨hd, rfl⟩ := find?_name_eq_some_iff.mp hfind
    exact ⟨hd, nil_mem_suffixes hd, by simp⟩
  · obtain ⟨d, hd, hcomposed⟩ := List.exists_of_findSome?_eq_some h
    obtain ⟨rfl, hs, -, hkey⟩ := DesignToken.composed?_eq_some_iff.mp hcomposed
    exact ⟨hd, hs, hkey⟩

/-- Every name with a declared suffix is found, though maybe as that of another token. -/
theorem isSome_lookup? {theme : Theme} {d : DesignToken} {s : Text} (hd : d ∈ theme.tokens)
    (hs : s ∈ d.suffixes) : (theme.lookup? (d.name ++ s)).isSome := by
  by_cases hne : s = []
  · subst hne
    rw [List.append_nil, lookup?_name hd]
    rfl
  · rw [lookup?_eq, Option.isSome_or]
    have hcomposed : d.composed? (d.name ++ s) = some ⟨d, s⟩ :=
      DesignToken.composed?_eq_some_iff.mpr ⟨rfl, hs, hne, rfl⟩
    have : (theme.tokens.findSome? (·.composed? (d.name ++ s))).isSome := by
      rw [List.findSome?_isSome_iff]
      exact ⟨d, hd, by rw [hcomposed]; rfl⟩
    simp [this]

theorem lookup?_eq_none_iff {theme : Theme} {key : Text} :
    theme.lookup? key = none ↔
      ∀ d ∈ theme.tokens, ∀ s ∈ d.suffixes, key ≠ d.name ++ s := by
  constructor
  · rintro h d hd s hs rfl
    have := isSome_lookup? hd hs
    rw [h] at this
    cases this
  · intro h
    rw [Option.eq_none_iff_forall_ne_some]
    intro e he
    obtain ⟨hd, hs, hkey⟩ := of_lookup?_eq_some he
    exact h _ hd _ hs hkey

/-- The token of a name, as a search by name. -/
theorem get?_eq_find? (theme : Theme) (name : Text) :
    theme.get? name = theme.tokens.find? (·.name = name) := by
  unfold get?
  rw [lookup?_eq]
  cases hfind : theme.tokens.find? (·.name = name) with
  | some d => rfl
  | none =>
    cases hcomposed : theme.tokens.findSome? (·.composed? name) with
    | none => rfl
    | some e =>
      obtain ⟨d, -, he⟩ := List.exists_of_findSome?_eq_some hcomposed
      obtain ⟨-, -, hne, -⟩ := DesignToken.composed?_eq_some_iff.mp he
      simp [hne]

theorem get?_eq_some_iff {theme : Theme} {name : Text} {d : DesignToken} :
    theme.get? name = some d ↔ d ∈ theme.tokens ∧ d.name = name := by
  rw [get?_eq_find?, find?_name_eq_some_iff]

/-! ## What look-ups find -/

theorem eq_map_normalize_of_accept {seen : List Text} {index : Nat}
    {tokens accepted : List DesignToken} (h : accept seen index tokens = .ok accepted) :
    accepted = tokens.map DesignToken.normalize := by
  induction tokens generalizing seen index accepted with
  | nil => cases h; rfl
  | cons d tokens ih =>
    obtain ⟨-, -, -, rest, hrest, rfl⟩ := accept_cons_eq_ok_iff.mp h
    rw [List.map_cons, ih hrest]

/-- The tokens of a theme are the given ones in their order, with the empty suffix declared. -/
theorem tokens_of_ofTokens {tokens : List DesignToken} {theme : Theme}
    (h : ofTokens tokens = .ok theme) : theme.tokens = tokens.map DesignToken.normalize := by
  unfold ofTokens at h
  split at h
  · rename_i haccept
    cases h
    exact eq_map_normalize_of_accept haccept
  · cases h

/-- Under a key that is no name only composed entries are found. -/
theorem lookup?_eq_findSome? {theme : Theme} {key : Text}
    (h : ∀ d ∈ theme.tokens, d.name ≠ key) :
    theme.lookup? key = theme.tokens.findSome? (·.composed? key) := by
  have hnone : theme.tokens.find? (·.name = key) = none := by
    rw [List.find?_eq_none]
    simpa using h
  rw [lookup?_eq, hnone, Option.map_none, Option.none_or]

/-- The first token that composes a key is the one whose entry the search through all gives. -/
theorem findSome?_composed?_eq_some_iff {tokens : List DesignToken} {key : Text} {d : DesignToken}
    {s : Text} :
    tokens.findSome? (·.composed? key) = some ⟨d, s⟩ ↔
      d.Composes key s ∧ ∃ before after, tokens = before ++ d :: after ∧
        ∀ d' ∈ before, ∀ s', ¬d'.Composes key s' := by
  rw [List.findSome?_eq_some_iff]
  constructor
  · rintro ⟨before, d', after, rfl, hd, hbefore⟩
    obtain ⟨rfl, hmem, hne, hkey⟩ := DesignToken.composed?_eq_some_iff.mp hd
    exact ⟨⟨hmem, hne, hkey⟩, before, after, rfl, fun d' hd' =>
      DesignToken.composed?_eq_none_iff.mp (hbefore d' hd')⟩
  · rintro ⟨⟨hmem, hne, hkey⟩, before, after, rfl, hbefore⟩
    exact ⟨before, d, after, rfl, DesignToken.composed?_eq_some_iff.mpr ⟨rfl, hmem, hne, hkey⟩,
      fun d' hd' => DesignToken.composed?_eq_none_iff.mpr (hbefore d' hd')⟩

/-- Look-ups find what a search through the tokens in the order of their declaration finds: the
token of which the key is the name, without a suffix, wherever it stands; and if there is none, the
first token that composes the key, with the suffix by which it does so. The token of a name is
found iff there is one, and all tokens are found under their own names. -/
theorem lookup?_finds_first (theme : Theme) (key : Text) :
    (∀ given, ofTokens given = .ok theme → theme.tokens = given.map DesignToken.normalize) ∧
    (∀ d ∈ theme.tokens, d.name = key → theme.lookup? key = some ⟨d, []⟩) ∧
    ((∀ d ∈ theme.tokens, d.name ≠ key) →
      (∀ d s, theme.lookup? key = some ⟨d, s⟩ ↔
        d.Composes key s ∧ ∃ before after, theme.tokens = before ++ d :: after ∧
          ∀ d' ∈ before, ∀ s', ¬d'.Composes key s') ∧
      (theme.lookup? key = none ↔ ∀ d ∈ theme.tokens, ∀ s, ¬d.Composes key s)) ∧
    (∀ d, theme.get? key = some d ↔ d ∈ theme.tokens ∧ d.name = key) ∧
    ∀ d ∈ theme.tokens, theme.get? d.name = some d ∧ theme.lookup? d.name = some ⟨d, []⟩ := by
  refine ⟨fun given => tokens_of_ofTokens, ?_, ?_, fun d => get?_eq_some_iff, ?_⟩
  · rintro d hd rfl
    exact lookup?_name hd
  · intro h
    rw [lookup?_eq_findSome? h]
    refine ⟨fun d s => findSome?_composed?_eq_some_iff, ?_⟩
    simp only [List.findSome?_eq_none_iff, DesignToken.composed?_eq_none_iff]
  · intro d hd
    exact ⟨get?_eq_some_iff.mpr ⟨hd, rfl⟩, lookup?_name hd⟩

/-- Names and composed keys that collide: the second token has as its name what the first one
composes, and both compose `a-b-c`. -/
def colliding : List DesignToken :=
  [{ name := "a".toList, property := "gap".toList, kind := .range, value := .text "1".toList,
     directions := ["-b".toList, "-b-c".toList] },
   { name := "a-b".toList, property := "gap".toList, kind := .range, value := .text "2".toList,
     directions := ["-c".toList, "-c".toList] }]

/-- The name goes to the second token, and what both compose to the first one. -/
theorem lookup?_finds_first_colliding :
    ∃ theme, ofTokens colliding = .ok theme ∧
      theme.lookup? "a-b".toList = some ⟨colliding[1].normalize, []⟩ ∧
      theme.lookup? "a-b-c".toList = some ⟨colliding[0].normalize, "-b-c".toList⟩ ∧
      theme.get? "a-b-c".toList = none := by
  let theme : Theme := .ofNormal (colliding.map DesignToken.normalize) rfl
  have h : ofTokens colliding = .ok theme := rfl
  obtain ⟨htokens, hname, -⟩ := lookup?_finds_first theme "a-b".toList
  obtain ⟨-, -, hfirst, hget, -⟩ := lookup?_finds_first theme "a-b-c".toList
  have hnone : ∀ d ∈ theme.tokens, d.name ≠ "a-b-c".toList := by decide
  refine ⟨theme, h, ?_, ?_, ?_⟩
  · exact hname _ (by rw [htokens colliding h]; decide) (by decide)
  · refine ((hfirst hnone).1 _ _).mpr ⟨by decide, [], [colliding[1].normalize], rfl, ?_⟩
    simp
  · rw [Option.eq_none_iff_forall_ne_some]
    intro d hd
    obtain ⟨hmem, hkey⟩ := (hget d).mp hd
    exact hnone d hmem hkey

end Theme

end ClassSheet
