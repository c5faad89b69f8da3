import ClassSheet.Proofs.Sheet.Spelling
import ClassSheet.Proofs.Theme.Order
import ClassSheet.Proofs.Theme.Policies

/-!
# Stylesheets as far as tokens are meant

Declarations and rules see the theme and the policy only through the token that a class means. Two
styles that mean the same tokens have the same stylesheets; so what is known about the tokens under
another order, or under the other policy, holds of whole stylesheets.

* `Theme.substringStyle`: the style of a theme and a unit under the substring policy.
* `declarationOf?_eq_of_token?_eq`, `rule?_eq_of_token?_eq`, `sheet_eq_of_token?_eq`: styles that
  mean the same tokens.
* `order_of_tokens_irrelevant`: under the exact policy the order of the tokens decides about
  nothing, where no key is composed by two of them.
* `policies_related`: what the substring policy keeps of the exact policy.
-/

namespace ClassSheet

open Utility (ofName?)

/-- The style of a theme and a unit under the substring policy. -/
def Theme.substringStyle (theme : Theme) (unit : Text) : Style :=
  ⟨theme, { unit, policy := .substring }⟩

namespace Style

variable {style style' : Style} {name : Text} {names : List Text}

/-! ## Styles that mean the same tokens -/

section Agreement

variable (hunit : style.options.unit = style'.options.unit)

include hunit

theorem declarationOf?_eq_of_token?_eq
    (h : ∀ c, ofName? name = some (.structured c) → style.token? c = style'.token? c) :
    style.declarationOf? name = style'.declarationOf? name := by
  refine Option.ext fun decl => ?_
  rw [declarationOf?_eq_some_iff, declarationOf?_eq_some_iff]
  simp only [unitOf, hunit]
  constructor
  · rintro ⟨c, d, hname, htoken, rfl⟩
    exact ⟨c, d, hname, (h c hname).symm.trans htoken, rfl⟩
  · rintro ⟨c, d, hname, htoken, rfl⟩
    exact ⟨c, d, hname, (h c hname).trans htoken, rfl⟩

theorem HasRule.of_token?_eq {rule : Rule} (hrule : style.HasRule name rule)
    (h : ∀ c d, ofName? name = some (.structured c) → style.token? c = some d →
      style'.token? c = some d) : style'.HasRule name rule := by
  cases hrule with
  | range hname htoken hkind hvalid hdirection =>
    exact .range hname (h _ _ hname htoken) hkind hvalid hdirection
  | color hname htoken hkind => exact .color hname (h _ _ hname htoken) hkind
  | enumerated hname hdeclaration =>
    rw [hunit]
    exact .enumerated hname hdeclaration

theorem rule?_eq_of_token?_eq
    (h : ∀ c, ofName? name = some (.structured c) → style.token? c = style'.token? c) :
    style.rule? name = style'.rule? name := by
  refine Option.ext fun rule => ?_
  rw [rule?_eq_some_iff, rule?_eq_some_iff]
  constructor
  · intro hrule
    exact hrule.of_token?_eq hunit fun c d hname htoken => (h c hname).symm.trans htoken
  · intro hrule
    exact hrule.of_token?_eq hunit.symm fun c d hname htoken => (h c hname).trans htoken

/-- A stylesheet depends on its theme and policy only through the tokens that its structured classes
mean. -/
theorem sheet_eq_of_token?_eq
    (h : ∀ name ∈ names, ∀ c, ofName? name = some (.structured c) →
      style.token? c = style'.token? c) : style.sheet names = style'.sheet names := by
  have hrule : ∀ name ∈ names.eraseDups, style.rule? name = style'.rule? name :=
    fun name hname => rule?_eq_of_token?_eq hunit (h name (List.mem_eraseDups.mp hname))
  have hdeclarations : style.declarations names = style'.declarations names :=
    List.filterMap_congr fun name hname =>
      declarationOf?_eq_of_token?_eq hunit (h name (List.mem_eraseDups.mp hname))
  have hrules : style.rules names = style'.rules names := List.filterMap_congr hrule
  have hskipped : style.skipped names = style'.skipped names :=
    List.filter_congr fun name hname => by rw [hrule name hname]
  rw [sheet_eq, sheet_eq, hdeclarations, hrules, hskipped]

end Agreement

/-! ## The order of the tokens -/

/-- A list of tokens makes a theme iff it does so in any other order. If no key that is no name is
composed by two of the tokens, then under the exact policy both themes mean the same token by every
body, in the same direction, and have the same stylesheets, counts and skipped classes included. -/
theorem order_of_tokens_irrelevant (given given' : List DesignToken) (hperm : given.Perm given') :
    ((∃ theme, Theme.ofTokens given = .ok theme) ↔ ∃ theme', Theme.ofTokens given' = .ok theme') ∧
    ∀ theme theme', Theme.ofTokens given = .ok theme → Theme.ofTokens given' = .ok theme' →
      Theme.Unambiguous given →
      (∀ body, theme.resolve? .exact body = theme'.resolve? .exact body ∧
        (theme.resolve? .exact body).bind (·.direction? body) =
          (theme'.resolve? .exact body).bind (·.direction? body)) ∧
      ∀ unit names, (theme.exactStyle unit).sheet names = (theme'.exactStyle unit).sheet names := by
  refine ⟨Theme.exists_ofTokens_iff_of_perm hperm, ?_⟩
  intro theme theme' h h' hone
  have htokens : theme.tokens.Perm theme'.tokens := by
    rw [Theme.tokens_of_ofTokens h, Theme.tokens_of_ofTokens h']
    exact hperm.map _
  have honce : Theme.Unambiguous theme.tokens := by
    rw [Theme.tokens_of_ofTokens h]
    exact hone.map_normalize
  have hresolve := Theme.resolve?_exact_eq_of_perm htokens honce
  refine ⟨fun body => ⟨hresolve body, by rw [hresolve body]⟩, fun unit names => ?_⟩
  exact sheet_eq_of_token?_eq rfl fun name _ c _ => hresolve c.body

/-- A name that is what another token composes, and two tokens that compose different keys. -/
def reordered : List DesignToken :=
  [.withDirections (.range "gap".toList "gap".toList (.ofRatio false 1 1))
     ["-top".toList, "-left".toList],
   .range "gap-top".toList "row-gap".toList (.ofRatio false 2 1),
   .withDirections (.color "ink".toList "color".toList "black".toList) ["-top".toList]]

/-- The three tokens in two orders: the name goes to its token in both. -/
theorem order_of_tokens_irrelevant_reversed :
    reordered.Perm reordered.reverse ∧ Theme.Unambiguous reordered ∧
    ∃ theme theme', Theme.ofTokens reordered = .ok theme ∧
      Theme.ofTokens reordered.reverse = .ok theme' ∧
      theme.resolve? .exact "gap-top".toList = theme'.resolve? .exact "gap-top".toList ∧
      (theme.exactStyle "px".toList).sheet ["oo-gap-top_2".toList, "oo-ink-top".toList] =
        (theme'.exactStyle "px".toList).sheet ["oo-gap-top_2".toList, "oo-ink-top".toList] := by
  have hperm : reordered.Perm reordered.reverse := (List.reverse_perm reordered).symm
  have hone : Theme.Unambiguous reordered := by decide +kernel
  obtain ⟨hboth, hsame⟩ := order_of_tokens_irrelevant reordered reordered.reverse hperm
  have haccepted : ∃ theme, Theme.ofTokens reordered = .ok theme :=
    Theme.exists_ofTokens_iff.mpr (by decide +kernel)
  obtain ⟨theme, h⟩ := haccepted
  obtain ⟨theme', h'⟩ := hboth.mp ⟨theme, h⟩
  obtain ⟨hresolve, hsheet⟩ := hsame theme theme' h h' hone
  exact ⟨hperm, hone, theme, theme', h, h', (hresolve _).1, hsheet _ _⟩

/-! ## The two policies -/

variable {theme : Theme} {c : StructuredClass}

/-- A class has the rule of a range token iff that is its rule as a class that means one. -/
theorem rule?_eq_range_iff (hname : ofName? name = some (.structured c))
    {property token : Text} {multiplier? : Option Text} :
    style.rule? name = some (.range name property token multiplier?) ↔
      style.rangeRule? c = some (.range name property token multiplier?) := by
  rw [rule?_eq_some_iff_route hname, or_iff_left]
  intro hcolor
  obtain ⟨_, -, -, hrule⟩ := colorRule?_eq_some_iff.mp hcolor
  cases hrule

/-- Where no other name occurs in the body, the rules of range tokens are the same. -/
theorem rangeRule?_exact_eq_substring (unit : Text) (hone : theme.NamesAtMostOne c.body) :
    (theme.exactStyle unit).rangeRule? c = (theme.substringStyle unit).rangeRule? c := by
  refine Option.ext fun rule => ?_
  unfold rangeRule?
  rw [Option.bind_eq_some_iff, Option.bind_eq_some_iff]
  constructor
  · rintro ⟨d, htoken, hrule⟩
    exact ⟨d, Theme.resolve?_substring_of_exact hone htoken, hrule⟩
  · rintro ⟨d, htoken, hrule⟩
    obtain ⟨-, -, direction, hdirection, -⟩ := rangeRuleOf?_eq_some_iff.mp hrule
    exact ⟨d, Theme.resolve?_exact_of_direction? hone htoken hdirection, hrule⟩

/-- What the exact policy means by a body is a token whose name begins the body, and the substring
policy means that token or an earlier one. If the name of at most one token occurs in the body, then
what the exact policy means by it the substring policy means as well; classes with that body have
the same rules of range tokens under both; and every rule and every declaration that such a class
has under the exact policy it has under the substring policy. -/
theorem policies_related (theme : Theme) (body : Text) :
    (∀ d, theme.resolve? .exact body = some d → d.name <+: body ∧
      ∃ (d' : DesignToken) (i j : Nat), theme.resolve? .substring body = some d' ∧ i ≤ j ∧
        theme.tokens[i]? = some d' ∧ theme.tokens[j]? = some d) ∧
    (theme.NamesAtMostOne body →
      (∀ d, theme.resolve? .exact body = some d → theme.resolve? .substring body = some d) ∧
      ∀ unit name c, ofName? name = some (.structured c) → c.body = body →
        (theme.exactStyle unit).rangeRule? c = (theme.substringStyle unit).rangeRule? c ∧
        (∀ property token multiplier?,
          (theme.exactStyle unit).rule? name = some (.range name property token multiplier?) ↔
          (theme.substringStyle unit).rule? name = some (.range name property token multiplier?)) ∧
        (∀ rule, (theme.exactStyle unit).rule? name = some rule →
          (theme.substringStyle unit).rule? name = some rule) ∧
        ∀ decl, (theme.exactStyle unit).declarationOf? name = some decl →
          (theme.substringStyle unit).declarationOf? name = some decl) := by
  refine ⟨fun d h => ⟨?_, Theme.resolve?_substring_at_or_before h⟩, fun hone => ⟨?_, ?_⟩⟩
  · obtain ⟨-, s, rfl⟩ := Theme.name_prefix_of_resolve?_exact h
    exact List.prefix_append d.name s
  · exact fun d => Theme.resolve?_substring_of_exact hone
  · rintro unit name c hname rfl
    have hrange := rangeRule?_exact_eq_substring unit hone
    have htoken : ∀ c' d, ofName? name = some (.structured c') →
        (theme.exactStyle unit).token? c' = some d →
          (theme.substringStyle unit).token? c' = some d := by
      intro c' d hname' h
      rw [hname] at hname'
      cases hname'
      exact Theme.resolve?_substring_of_exact hone h
    refine ⟨hrange, fun property token multiplier? => ?_, fun rule h => ?_, fun decl h => ?_⟩
    · rw [rule?_eq_range_iff hname, rule?_eq_range_iff hname, hrange]
    · have hunit : (theme.exactStyle unit).options.unit =
          (theme.substringStyle unit).options.unit := rfl
      rw [rule?_eq_some_iff] at h ⊢
      exact h.of_token?_eq hunit htoken
    · obtain ⟨c', d, hname', h', rfl⟩ := declarationOf?_eq_some_iff.mp h
      exact declarationOf?_eq_some_iff.mpr ⟨c', d, hname', htoken c' d hname' h', rfl⟩

/-- Of two names that both occur in a body the substring policy takes the first. By the side of the
first token, in which the second name does not occur, both policies mean the same. -/
theorem policies_related_shadowing :
    let theme := shadowing.theme
    (theme.resolve? .exact "row-gap".toList = some theme.tokens[1] ∧
      theme.tokens[1].name <+: "row-gap".toList ∧
      ∃ (d' : DesignToken) (i j : Nat), theme.resolve? .substring "row-gap".toList = some d' ∧
        i ≤ j ∧ theme.tokens[i]? = some d' ∧ theme.tokens[j]? = some theme.tokens[1]) ∧
    theme.NamesAtMostOne "gap-top".toList ∧
    theme.resolve? .substring "gap-top".toList = some theme.tokens[0] ∧
    (theme.substringStyle "px".toList).rule? "oo-gap-top_2".toList =
      some (.range "oo-gap-top_2".toList "gap-top".toList "gap".toList (some "2".toList)) := by
  intro theme
  obtain ⟨hbefore, -⟩ := policies_related theme "row-gap".toList
  obtain ⟨-, hsame⟩ := policies_related theme "gap-top".toList
  have hrow : theme.resolve? .exact "row-gap".toList = some theme.tokens[1] := by decide +kernel
  have hone : theme.NamesAtMostOne "gap-top".toList := by decide +kernel
  have hgap : theme.resolve? .exact "gap-top".toList = some theme.tokens[0] := by decide +kernel
  obtain ⟨hresolve, hclass⟩ := hsame hone
  obtain ⟨-, -, hrule, -⟩ := hclass "px".toList "oo-gap-top_2".toList
    ⟨"oo-gap-top_2".toList, "gap-top".toList, some "2".toList⟩ (by decide +kernel) rfl
  exact ⟨⟨hrow, hbefore _ hrow⟩, hone, hresolve _ hgap, hrule _ (by decide +kernel)⟩

end Style

end ClassSheet
