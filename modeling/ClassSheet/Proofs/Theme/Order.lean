import ClassSheet.Proofs.Theme.Match

/-!
# The order in which tokens are declared

A theme is a list of tokens, and where several tokens compose the same key the first of them is
found. Where no key is composed by two tokens, the order decides about nothing.

* `exists_ofTokens_iff`: which lists of tokens make a theme, whatever their order.
* `Unambiguous`: a key that is no name is composed by at most one token.
* `lookup?_eq_some_iff`: what look-ups find then, without any mention of the order.
* `lookup?_eq_of_perm`, `resolve?_exact_eq_of_perm`: in another order the same is found.
-/

namespace ClassSheet

theorem DesignToken.composes_normalize {d : DesignToken} {key s : Text} :
    d.normalize.Composes key s ↔ d.Composes key s := by
  by_cases h : d.directions = [] ∨ [] ∈ d.directions
  · have hd : d.normalize = d := by simp [normalize, h]
    rw [hd]
  · -- The suffix that is added is empty, and composes nothing.
    have hd : d.normalize = { d with directions := [] :: d.directions } := by simp [normalize, h]
    have hne : d.directions ≠ [] := fun he => h (.inl he)
    rw [hd]
    simp only [Composes, suffixes, hne, ↓reduceIte, reduceCtorEq, List.mem_cons]
    tauto

namespace Theme

variable {tokens : List DesignToken} {theme theme' : Theme}

/-! ## Which lists of tokens make a theme -/

theorem exists_accept_iff (tokens : List DesignToken) (seen : List Text) (index : Nat) :
    (∃ accepted, accept seen index tokens = .ok accepted) ↔
      (∀ d ∈ tokens, d.name ≠ [] ∧ d.property ≠ [] ∧ d.name ∉ seen) ∧
        (tokens.map (·.name)).Nodup := by
  induction tokens generalizing seen index with
  | nil => simp [accept]
  | cons d tokens ih =>
    have hstep : (∃ accepted, accept seen index (d :: tokens) = .ok accepted) ↔
        (d.name ≠ [] ∧ d.property ≠ [] ∧ d.name ∉ seen) ∧
          ∃ accepted, accept (d.name :: seen) (index + 1) tokens = .ok accepted := by
      simp only [accept_cons_eq_ok_iff]
      constructor
      · rintro ⟨_, hname, hproperty, hseen, rest, hrest, -⟩
        exact ⟨⟨hname, hproperty, hseen⟩, rest, hrest⟩
      · rintro ⟨⟨hname, hproperty, hseen⟩, rest, hrest⟩
        exact ⟨_, hname, hproperty, hseen, rest, hrest, rfl⟩
    rw [hstep, ih, List.forall_mem_cons, List.map_cons, List.nodup_cons]
    simp only [List.mem_cons, not_or, List.mem_map, not_exists, not_and]
    constructor
    · rintro ⟨hd, hrest, hnodup⟩
      refine ⟨⟨hd, fun d' hd' => ?_⟩, fun d' hd' => ?_, hnodup⟩
      · exact ⟨(hrest d' hd').1, (hrest d' hd').2.1, (hrest d' hd').2.2.2⟩
      · exact (hrest d' hd').2.2.1
    · rintro ⟨⟨hd, hrest⟩, hnew, hnodup⟩
      refine ⟨hd, fun d' hd' => ?_, hnodup⟩
      exact ⟨(hrest d' hd').1, (hrest d' hd').2.1, hnew d' hd', (hrest d' hd').2.2⟩

/-- A list of tokens makes a theme iff no name and no property is empty and no name is used
twice. -/
theorem exists_ofTokens_iff :
    (∃ theme, ofTokens tokens = .ok theme) ↔
      (∀ d ∈ tokens, d.name ≠ [] ∧ d.property ≠ []) ∧ (tokens.map (·.name)).Nodup := by
  have haccept := exists_accept_iff tokens [] 0
  simp only [List.not_mem_nil, not_false_eq_true, and_true] at haccept
  rw [← haccept]
  unfold ofTokens
  split
  · rename_i h
    simp [h]
  · rename_i h
    simp [h]

theorem exists_ofTokens_iff_of_perm {tokens' : List DesignToken} (h : tokens.Perm tokens') :
    (∃ theme, ofTokens tokens = .ok theme) ↔ ∃ theme, ofTokens tokens' = .ok theme := by
  rw [exists_ofTokens_iff, exists_ofTokens_iff, (h.map _).nodup_iff]
  simp only [h.mem_iff]

/-! ## Keys that are composed once -/

/-- A key that a token composes, and that is no name, is composed by no other token. -/
def Unambiguous (tokens : List DesignToken) : Prop :=
  ∀ d ∈ tokens, ∀ s ∈ d.suffixes, s ≠ [] → (∀ e ∈ tokens, e.name ≠ d.name ++ s) →
    ∀ d' ∈ tokens, ∀ s' ∈ d'.suffixes, d'.Composes (d.name ++ s) s' → d' = d

instance (tokens : List DesignToken) : Decidable (Unambiguous tokens) :=
  inferInstanceAs (Decidable (∀ d ∈ tokens, ∀ s ∈ d.suffixes, s ≠ [] →
    (∀ e ∈ tokens, e.name ≠ d.name ++ s) →
      ∀ d' ∈ tokens, ∀ s' ∈ d'.suffixes, d'.Composes (d.name ++ s) s' → d' = d))

theorem Unambiguous.eq_of_composes (h : Unambiguous tokens) {d d' : DesignToken} {key s s' : Text}
    (hd : d ∈ tokens) (hd' : d' ∈ tokens) (hkey : ∀ e ∈ tokens, e.name ≠ key)
    (hs : d.Composes key s) (hs' : d'.Composes key s') : d' = d := by
  obtain ⟨hmem, hne, rfl⟩ := hs
  exact h d hd s hmem hne hkey d' hd' s' hs'.1 hs'

/-- Declaring the empty suffix composes no new keys. -/
theorem Unambiguous.map_normalize (h : Unambiguous tokens) :
    Unambiguous (tokens.map DesignToken.normalize) := by
  intro d hd s hmem hne hkey d' hd' s' _ hs'
  obtain ⟨d, hdmem, rfl⟩ := List.mem_map.mp hd
  obtain ⟨d', hdmem', rfl⟩ := List.mem_map.mp hd'
  have hnew : ∀ e ∈ tokens, e.name ≠ d.normalize.name ++ s := by
    intro e he
    rw [← DesignToken.name_normalize e]
    exact hkey _ (List.mem_map_of_mem he)
  have hs : d.Composes (d.normalize.name ++ s) s :=
    DesignToken.composes_normalize.mp ⟨hmem, hne, rfl⟩
  rw [h.eq_of_composes hdmem hdmem' hnew hs (DesignToken.composes_normalize.mp hs')]

/-! ## Look-ups in any order -/

/-- What look-ups find where no key is composed twice: the token of that name, and else the one
token that composes the key. -/
theorem lookup?_eq_some_iff (h : Unambiguous theme.tokens) {key : Text} {e : Entry} :
    theme.lookup? key = some e ↔ e.token ∈ theme.tokens ∧
      (e.token.name = key ∧ e.suffix = [] ∨
        (∀ d ∈ theme.tokens, d.name ≠ key) ∧ e.token.Composes key e.suffix) := by
  constructor
  · intro he
    obtain ⟨hmem, hsuffix, hkey⟩ := of_lookup?_eq_some he
    refine ⟨hmem, ?_⟩
    by_cases hname : ∃ d ∈ theme.tokens, d.name = key
    · obtain ⟨d, hd, rfl⟩ := hname
      rw [lookup?_name hd] at he
      cases he
      exact .inl ⟨rfl, rfl⟩
    · have hnone : ∀ d ∈ theme.tokens, d.name ≠ key := by simpa using hname
      refine .inr ⟨hnone, hsuffix, fun hnil => hnone _ hmem ?_, hkey⟩
      rw [hkey, hnil, List.append_nil]
  · obtain ⟨d, s⟩ := e
    rintro ⟨hd, ⟨rfl, rfl⟩ | ⟨hnone, hs⟩⟩
    · exact lookup?_name hd
    · rw [lookup?_eq_findSome? hnone]
      cases hfind : theme.tokens.findSome? (·.composed? key) with
      | none =>
        have hd' := List.findSome?_eq_none_iff.mp hfind d hd
        exact absurd hs (DesignToken.composed?_eq_none_iff.mp hd' s)
      | some e =>
        obtain ⟨d', hd', he⟩ := List.exists_of_findSome?_eq_some hfind
        obtain ⟨rfl, hs'⟩ := DesignToken.composed?_eq_some_iff.mp he
        obtain rfl := h.eq_of_composes hd hd' hnone hs hs'
        -- Behind the same name the suffix is the same as well.
        have hsuffix : s = e.suffix := List.append_cancel_left (hs.2.2.symm.trans hs'.2.2)
        rw [hsuffix]

section Perm

variable (hperm : theme.tokens.Perm theme'.tokens)

include hperm

theorem Unambiguous.of_perm (h : Unambiguous theme.tokens) : Unambiguous theme'.tokens := by
  unfold Unambiguous at h ⊢
  simpa only [hperm.mem_iff] using h

theorem lookup?_eq_of_perm (h : Unambiguous theme.tokens) (key : Text) :
    theme.lookup? key = theme'.lookup? key := by
  refine Option.ext fun e => ?_
  rw [lookup?_eq_some_iff h, lookup?_eq_some_iff (h.of_perm hperm)]
  simp only [hperm.mem_iff]

theorem get?_eq_of_perm (name : Text) : theme.get? name = theme'.get? name := by
  refine Option.ext fun d => ?_
  rw [get?_eq_some_iff, get?_eq_some_iff, hperm.mem_iff]

/-- In another order the same tokens are meant, if no key is composed twice. -/
theorem resolve?_exact_eq_of_perm (h : Unambiguous theme.tokens) (body : Text) :
    theme.resolve? .exact body = theme'.resolve? .exact body := by
  have hget : theme.get? = theme'.get? := funext (get?_eq_of_perm hperm)
  simp only [resolve?, resolveExact?, lookup?_eq_of_perm hperm h, hget]

end Perm

end Theme

end ClassSheet
