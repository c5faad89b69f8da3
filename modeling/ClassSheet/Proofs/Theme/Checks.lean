import ClassSheet.Proofs.Outcome
import ClassSheet.Proofs.Theme.Order

/-!
# The checks on a list of tokens

A list of tokens is checked from the first to the last, and each token is changed only when it has
passed. So a list that is no theme has a first token with a flaw, and the error is what the first
failing check says about that token.

* `Flaw`: the first check that fails at an index, and what it says.
* `Flaw.accept_eq`, `accept_eq_of_sound`: one step of the checks, at a token with a flaw and at one
  without.
* `accept_eq_error_iff`, `ofTokens_eq_error_iff`: all steps report the first flaw.
* `ofTokens_tokens`: the tokens of a theme make that theme again.
* `ofTokens_reports_first_flaw`: which lists make a theme, what is said about the others, and what
  the theme is made of.
-/

namespace ClassSheet

theorem DesignToken.normalize_eq (d : DesignToken) :
    d.normalize =
      { d with
        directions :=
          if d.directions ≠ [] ∧ [] ∉ d.directions then [] :: d.directions else d.directions } := by
  unfold normalize
  by_cases h : d.directions = [] ∨ [] ∈ d.directions
  · have hnot : ¬(d.directions ≠ [] ∧ [] ∉ d.directions) := by tauto
    rw [if_pos h, if_neg hnot]
  · have hboth : d.directions ≠ [] ∧ [] ∉ d.directions := by tauto
    rw [if_neg h, if_pos hboth]

namespace Theme

/-- What the first failing check says about the token at an index: it has no name, it has no
property, or an earlier token has its name. -/
inductive Flaw (tokens : List DesignToken) (index : Nat) : ThemeError → Prop
  | emptyName {d : DesignToken} (hd : tokens[index]? = some d) (hname : d.name = []) :
      Flaw tokens index (.emptyName index)
  | emptyProperty {d : DesignToken} (hd : tokens[index]? = some d) (hname : d.name ≠ [])
      (hproperty : d.property = []) : Flaw tokens index (.emptyProperty d.name)
  | duplicateName {d d' : DesignToken} (hd : tokens[index]? = some d) (hname : d.name ≠ [])
      (hproperty : d.property ≠ []) (hd' : d' ∈ tokens.take index) (hsame : d'.name = d.name) :
      Flaw tokens index (.duplicateName d.name)

variable {before after tokens : List DesignToken} {d : DesignToken} {index : Nat}
  {e e' : ThemeError}

theorem Flaw.lt_length (h : Flaw tokens index e) : index < tokens.length := by
  cases h with
  | emptyName hd _ => exact (List.getElem?_eq_some_iff.mp hd).1
  | emptyProperty hd _ _ => exact (List.getElem?_eq_some_iff.mp hd).1
  | duplicateName hd _ _ _ _ => exact (List.getElem?_eq_some_iff.mp hd).1

/-- The flaws of the token that stands behind the tokens `before`. -/
theorem flaw_length_iff :
    Flaw (before ++ d :: after) before.length e ↔
      (d.name = [] ∧ e = .emptyName before.length) ∨
        (d.name ≠ [] ∧ d.property = [] ∧ e = .emptyProperty d.name) ∨
        (d.name ≠ [] ∧ d.property ≠ [] ∧ d.name ∈ before.map (·.name) ∧
          e = .duplicateName d.name) := by
  have hat : (before ++ d :: after)[before.length]? = some d := by simp
  constructor
  · intro h
    cases h with
    | emptyName hd hname =>
      cases hat.symm.trans hd
      exact .inl ⟨hname, rfl⟩
    | emptyProperty hd hname hproperty =>
      cases hat.symm.trans hd
      exact .inr (.inl ⟨hname, hproperty, rfl⟩)
    | duplicateName hd hname hproperty hd' hsame =>
      cases hat.symm.trans hd
      rw [List.take_left] at hd'
      exact .inr (.inr ⟨hname, hproperty, List.mem_map.mpr ⟨_, hd', hsame⟩, rfl⟩)
  · rintro (⟨hname, rfl⟩ | ⟨hname, hproperty, rfl⟩ | ⟨hname, hproperty, hmem, rfl⟩)
    · exact .emptyName hat hname
    · exact .emptyProperty hat hname hproperty
    · obtain ⟨d', hd', hsame⟩ := List.mem_map.mp hmem
      exact .duplicateName hat hname hproperty (by rwa [List.take_left]) hsame

/-! ## One step -/

/-- The names that are taken when the tokens `before` have passed, the last one first. -/
def taken (before : List DesignToken) : List Text := (before.map (·.name)).reverse

theorem mem_taken {name : Text} : name ∈ taken before ↔ name ∈ before.map (·.name) :=
  List.mem_reverse

theorem taken_concat (before : List DesignToken) (d : DesignToken) :
    taken (before ++ [d]) = d.name :: taken before := by
  simp [taken]

theorem Flaw.accept_eq (h : Flaw (before ++ d :: after) before.length e) :
    accept (taken before) before.length (d :: after) = .error e := by
  unfold accept
  rcases flaw_length_iff.mp h with
    ⟨hname, rfl⟩ | ⟨hname, hproperty, rfl⟩ | ⟨hname, hproperty, hmem, rfl⟩
  · rw [if_pos hname]
  · rw [if_neg hname, if_pos hproperty]
  · rw [if_neg hname, if_neg hproperty, if_pos (mem_taken.mpr hmem)]

theorem accept_eq_of_sound (h : ∀ e, ¬Flaw (before ++ d :: after) before.length e) :
    accept (taken before) before.length (d :: after) =
      (accept (taken (before ++ [d])) (before ++ [d]).length after).map (d.normalize :: ·) := by
  have hname : d.name ≠ [] := fun hname => h _ (flaw_length_iff.mpr (.inl ⟨hname, rfl⟩))
  have hproperty : d.property ≠ [] := fun hproperty =>
    h _ (flaw_length_iff.mpr (.inr (.inl ⟨hname, hproperty, rfl⟩)))
  have hnew : d.name ∉ taken before := fun hmem =>
    h _ (flaw_length_iff.mpr (.inr (.inr ⟨hname, hproperty, mem_taken.mp hmem, rfl⟩)))
  rw [accept, if_neg hname, if_neg hproperty, if_neg hnew, taken_concat, List.length_append]
  rfl

/-- Of the flaws of one token the first is found. -/
theorem Flaw.unique (h : Flaw (before ++ d :: after) before.length e)
    (h' : Flaw (before ++ d :: after) before.length e') : e = e' :=
  Except.error.inj (h.accept_eq.symm.trans h'.accept_eq)

/-! ## All steps -/

/-- The checks behind the tokens `before` report the first flaw from there on. -/
theorem accept_eq_error_iff (before after : List DesignToken) :
    accept (taken before) before.length after = .error e ↔
      ∃ index, before.length ≤ index ∧ Flaw (before ++ after) index e ∧
        ∀ i, before.length ≤ i → i < index → ∀ e', ¬Flaw (before ++ after) i e' := by
  induction after generalizing before with
  | nil =>
    simp only [accept, reduceCtorEq, List.append_nil, false_iff]
    rintro ⟨index, hle, hflaw, -⟩
    have hlt := hflaw.lt_length
    omega
  | cons d after ih =>
    by_cases hhere : ∃ e, Flaw (before ++ d :: after) before.length e
    · -- The token at hand has a flaw, and no later one is looked at.
      obtain ⟨e', he'⟩ := hhere
      rw [he'.accept_eq, Except.error.injEq]
      constructor
      · rintro rfl
        exact ⟨before.length, Nat.le_refl _, he', fun i hle hlt => by omega⟩
      · rintro ⟨index, hle, hflaw, hfirst⟩
        obtain rfl | hlt := Nat.eq_or_lt_of_le hle
        · exact he'.unique hflaw
        · exact absurd he' (hfirst _ (Nat.le_refl _) hlt e')
    · -- It has none, so the first flaw comes later.
      have hsound : ∀ e, ¬Flaw (before ++ d :: after) before.length e := not_exists.mp hhere
      have hlist : before ++ d :: after = before ++ [d] ++ after := by simp
      have hlength : (before ++ [d]).length = before.length + 1 := by simp
      rw [accept_eq_of_sound hsound, map_eq_error_iff, ih, ← hlist, hlength]
      refine exists_congr fun index => ⟨?_, ?_⟩
      · rintro ⟨hle, hflaw, hfirst⟩
        refine ⟨by omega, hflaw, fun i hi hlt => ?_⟩
        obtain rfl | hi := Nat.eq_or_lt_of_le hi
        · exact hsound
        · exact hfirst i hi hlt
      · rintro ⟨hle, hflaw, hfirst⟩
        refine ⟨?_, hflaw, fun i hi hlt => hfirst i (by omega) hlt⟩
        obtain rfl | hlt := Nat.eq_or_lt_of_le hle
        · exact absurd hflaw (hsound e)
        · exact hlt

theorem ofTokens_eq_error_iff :
    ofTokens tokens = .error e ↔
      ∃ index, Flaw tokens index e ∧ ∀ i < index, ∀ e', ¬Flaw tokens i e' := by
  have haccept : ofTokens tokens = .error e ↔ accept (taken []) 0 tokens = .error e := by
    unfold ofTokens
    split <;> rename_i h <;> simp [taken, h]
  rw [haccept]
  simpa using accept_eq_error_iff (e := e) [] tokens

/-! ## The theme of accepted tokens -/

/-- A theme has nothing besides its tokens, as they determine the index. -/
theorem eq_of_tokens_eq {theme theme' : Theme} (h : theme.tokens = theme'.tokens) :
    theme = theme' := by
  obtain ⟨tokens, index, _, hindex⟩ := theme
  obtain ⟨tokens', index', _, hindex'⟩ := theme'
  cases h
  cases hindex.trans hindex'.symm
  rfl

/-- The tokens of a theme make that theme again. -/
theorem ofTokens_tokens (theme : Theme) : ofTokens theme.tokens = .ok theme := by
  have haccepted := theme.accepted
  obtain ⟨again, hagain⟩ := exists_ofTokens_iff.mpr
    ⟨fun d hd => ⟨haccepted.name_ne_nil d hd, haccepted.property_ne_nil d hd⟩,
      haccepted.nodup_names⟩
  have htokens : again.tokens = theme.tokens := by
    rw [tokens_of_ofTokens hagain, List.map_congr_left haccepted.normalize_eq, List.map_id']
  rw [hagain, eq_of_tokens_eq htokens]

/-- A list of tokens makes a theme iff all names and properties are there and the names are
distinct. Otherwise the error is the first flaw: that of the least index at which a check fails,
and there that of the first failing check. The tokens of the theme are the given ones in their
order, in which declared suffixes that lack the empty one have it put in front; all of them may be
used without a suffix, and they make the same theme again. -/
theorem ofTokens_reports_first_flaw (tokens : List DesignToken) :
    ((∃ theme, ofTokens tokens = .ok theme) ↔
      (∀ d ∈ tokens, d.name ≠ [] ∧ d.property ≠ []) ∧ (tokens.map (·.name)).Nodup) ∧
    (∀ e, ofTokens tokens = .error e ↔
      ∃ index, Flaw tokens index e ∧ ∀ i < index, ∀ e', ¬Flaw tokens i e') ∧
    ∀ theme, ofTokens tokens = .ok theme →
      theme.tokens = tokens.map (fun d =>
        { d with
          directions :=
            if d.directions ≠ [] ∧ [] ∉ d.directions then [] :: d.directions
            else d.directions }) ∧
      (∀ d ∈ theme.tokens, [] ∈ d.suffixes) ∧
      ofTokens theme.tokens = .ok theme := by
  refine ⟨exists_ofTokens_iff, fun e => ofTokens_eq_error_iff, fun theme h => ⟨?_, ?_, ?_⟩⟩
  · rw [tokens_of_ofTokens h]
    exact List.map_congr_left fun d _ => d.normalize_eq
  · exact fun d hd => nil_mem_suffixes hd
  · exact ofTokens_tokens theme

/-- The second token has the name of the first one and no property, and the third one has no
name. -/
def flawed : List DesignToken :=
  [.withDirections (.range "gap".toList "gap".toList (.ofRatio false 1 1)) ["-top".toList],
   .range "gap".toList [] (.ofRatio false 2 1),
   .color [] "color".toList "black".toList]

/-- Of three flaws the missing property is reported, and the first token alone makes a theme. -/
theorem ofTokens_reports_first_flaw_flawed :
    ofTokens flawed = .error (.emptyProperty "gap".toList) ∧
    ∃ theme, ofTokens (flawed.take 1) = .ok theme ∧
      theme.tokens.map (·.directions) = [[[], "-top".toList]] ∧
      ofTokens theme.tokens = .ok theme := by
  obtain ⟨-, herror, -⟩ := ofTokens_reports_first_flaw flawed
  obtain ⟨hiff, -, hmade⟩ := ofTokens_reports_first_flaw (flawed.take 1)
  constructor
  · have hsecond : flawed[1]? = some (.range "gap".toList [] (.ofRatio false 2 1)) := rfl
    refine (herror _).mpr ⟨1, .emptyProperty hsecond (by decide) rfl, fun i hi e' hflaw => ?_⟩
    obtain rfl : i = 0 := by omega
    cases hflaw with
    | emptyName hd hname => cases hd; cases hname
    | emptyProperty hd _ hproperty => cases hd; cases hproperty
    | duplicateName _ _ _ hd' _ => cases hd'
  · obtain ⟨theme, h⟩ := hiff.mpr (by decide)
    obtain ⟨htokens, -, hagain⟩ := hmade theme h
    exact ⟨theme, h, by rw [htokens]; rfl, hagain⟩

end Theme

end ClassSheet
