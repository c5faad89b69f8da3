import ClassSheet.Proofs.Sheet.Variables

/-!
# How the classes of design tokens are spelled

Under the exact policy, a class has the rule of a range token iff its name is spelled as a mark, a
body that the index has for that token, and possibly a multiplier. The multiplier begins at the
first underscore. So an underscore in the name of a token can never be part of a body, and no class
means such a token.

* `Theme.exactStyle`: the style of a theme and a unit under the exact policy.
* `range_rule_iff_spelled`: the spelling of classes with the rule of a range token, and its text.
* `token_usable_by_name`: the class that is spelled as the bare name of a token.
* `not_usable_of_underscore`: a theme may have a token that its name cannot be used for.
-/

namespace ClassSheet

open Utility (ofName?)

/-- The style of a theme and a unit under the exact policy. -/
def Theme.exactStyle (theme : Theme) (unit : Text) : Style := ⟨theme, { unit, policy := .exact }⟩

namespace Style

variable {theme : Theme} {unit name : Text} {d : DesignToken}

/-! ## Range tokens -/

/-- The text of the rule of a range token. -/
theorem write_range (name property side token m : Text) :
    (Rule.range name (property ++ side) token (if m = [] then none else some m)).write =
      ".".toList ++ name ++ " \x7b".toList ++ property ++ side ++ ":calc(var(--oo-".toList ++
        token ++ ")".toList ++ (if m = [] then [] else " * ".toList ++ m) ++ ");\x7d".toList := by
  unfold Rule.write Rule.variableName structuredMark
  by_cases hm : m = []
  · simp only [hm, ↓reduceIte, Rule.factor, List.append_assoc]
    rfl
  · simp only [hm, ↓reduceIte, Rule.factor, List.append_assoc]
    rfl

/-- A class means a range token and has a rule iff its name is spelled as the mark, a body without
underscores that the index has for a range token, and a tail in which the run that is kept is empty
or the text of a finite number. The text of the rule is then made of the name, the property with the
side of the index, the name of the token, and that run. -/
theorem range_rule_iff_spelled (theme : Theme) (unit name text : Text) :
    (∃ c d rule, ofName? name = some (.structured c) ∧ (theme.exactStyle unit).token? c = some d ∧
        d.kind = .range ∧ (theme.exactStyle unit).rule? name = some rule ∧ rule.write = text) ↔
      ∃ body tail m d side, name = "oo-".toList ++ (body ++ tail) ∧ '_' ∉ body ∧
        theme.lookup? body = some ⟨d, side⟩ ∧ d.kind = .range ∧ StructuredClass.Tail tail m ∧
        (m = [] ∨ ∃ x, Number.ofText? m = some x ∧ x.isFinite) ∧
        text = ".".toList ++ name ++ " \x7b".toList ++ d.property ++ side ++
          ":calc(var(--oo-".toList ++ d.name ++ ")".toList ++
          (if m = [] then [] else " * ".toList ++ m) ++ ");\x7d".toList := by
  constructor
  · rintro ⟨c, d, rule, hname, htoken, hkind, hrule, rfl⟩
    obtain ⟨body, tail, m, hspelled, hbody, htail, rfl⟩ :=
      Utility.ofName?_eq_structured_iff_tail.mp hname
    rw [rule?_of_range hname htoken hkind, rangeRuleOf?_eq_some_iff] at hrule
    obtain ⟨-, hvalid, direction, hdirection, rfl⟩ := hrule
    obtain ⟨side, hlookup, rfl⟩ := Theme.lookup?_of_direction? htoken hdirection
    have hm := StructuredClass.hasValidMultiplier_run_iff.mp hvalid
    refine ⟨body, tail, m, d, side, hspelled, hbody, hlookup, hkind, htail, hm, ?_⟩
    rw [Direction.suffix_ofSuffix, write_range]
  · rintro ⟨body, tail, m, d, side, hspelled, hbody, hlookup, hkind, htail, hm, rfl⟩
    have hname := Utility.ofName?_eq_structured_iff_tail.mpr
      ⟨body, tail, m, hspelled, hbody, htail, rfl⟩
    have htoken : (theme.exactStyle unit).token?
        ⟨name, body, if m = [] then none else some m⟩ = some d :=
      Theme.resolve?_exact_of_lookup? hlookup
    have hvalid : StructuredClass.hasValidMultiplier
        ⟨name, body, if m = [] then none else some m⟩ :=
      StructuredClass.hasValidMultiplier_run_iff.mpr hm
    have hrule := rule?_eq_some_iff.mpr
      (HasRule.range hname htoken hkind hvalid (Theme.direction?_of_lookup? hlookup))
    refine ⟨_, d, _, hname, htoken, hkind, hrule, ?_⟩
    rw [Direction.suffix_ofSuffix, write_range]

/-! ## Bare names -/

/-- The rule of the bare class of a token. -/
def bareRule (d : DesignToken) : Rule :=
  match d.kind with
  | .range => .range (Rule.variableName d.name) d.property d.name none
  | .color => .color (Rule.variableName d.name) d.property d.name

/-- A token is meant by the class spelled as its bare name, if that has no underscore. -/
theorem token?_bare (unit : Text) (hd : d ∈ theme.tokens) (hname : '_' ∉ d.name) :
    ofName? (Rule.variableName d.name) =
        some (.structured ⟨Rule.variableName d.name, d.name, none⟩) ∧
      (theme.exactStyle unit).token? ⟨Rule.variableName d.name, d.name, none⟩ = some d :=
  ⟨Utility.ofName?_mark_append hname, Theme.resolve?_exact_of_lookup? (Theme.lookup?_name hd)⟩

theorem rule?_bare (hd : d ∈ theme.tokens) (hname : '_' ∉ d.name) :
    (theme.exactStyle unit).rule? (Rule.variableName d.name) = some (bareRule d) := by
  obtain ⟨hbare, htoken⟩ := token?_bare unit hd hname
  rw [rule?_eq_some_iff]
  cases hkind : d.kind with
  | range =>
    have hdirection := Theme.direction?_of_lookup? (Theme.lookup?_name hd)
    have hrule := HasRule.range hbare htoken hkind rfl hdirection
    rw [Direction.suffix_ofSuffix, List.append_nil] at hrule
    simpa only [bareRule, hkind] using hrule
  | color => simpa only [bareRule, hkind] using HasRule.color hbare htoken hkind

theorem bareRule_refers (d : DesignToken) :
    Rule.variable? (bareRule d) = some (Rule.variableName d.name) := by
  unfold bareRule
  split <;> rfl

/-- A token whose name has an underscore is meant by no class, under either policy: the name would
occur in a body, and bodies have none. -/
theorem resolve?_ne_of_underscore {policy : Policy} {c : StructuredClass} (hname : '_' ∈ d.name)
    (hc : ofName? name = some (.structured c)) : theme.resolve? policy c.body ≠ some d := by
  intro h
  obtain ⟨rest, -, rfl⟩ := Utility.ofName?_eq_structured_iff.mp hc
  have hbody := (Theme.name_infix_of_resolve? h).mem hname
  exact StructuredClass.underscore_notMem_body name rest hbody

/-- A token whose name has no underscore is usable by its name: under the exact policy the class
spelled as that bare name means it, declares its value, and has a rule that refers to this
declaration. A token whose name has an underscore is meant by no class at all. -/
theorem token_usable_by_name (theme : Theme) (unit : Text) (d : DesignToken)
    (hd : d ∈ theme.tokens) :
    ('_' ∉ d.name →
      (∃ c, ofName? ("oo-".toList ++ d.name) = some (.structured c) ∧ c.body = d.name ∧
        c.multiplier? = none ∧ (theme.exactStyle unit).token? c = some d) ∧
      (∃ decl, (theme.exactStyle unit).declarationOf? ("oo-".toList ++ d.name) = some decl ∧
        decl.write = "--oo-".toList ++ d.name ++ ": ".toList ++ d.value.write ++
          (if d.isRange then unit else []) ++ ";".toList) ∧
      (∃ rule, (theme.exactStyle unit).rule? ("oo-".toList ++ d.name) = some rule ∧
        rule.variable? = some ("oo-".toList ++ d.name) ∧
        rule.write = ".oo-".toList ++ d.name ++ " \x7b".toList ++ d.property ++
          (match d.kind with
          | .range => ":calc(var(--oo-".toList ++ d.name ++ "));\x7d".toList
          | .color => ":var(--oo-".toList ++ d.name ++ ");\x7d".toList))) ∧
    ('_' ∈ d.name → ∀ policy name c, ofName? name = some (.structured c) →
      theme.resolve? policy c.body ≠ some d) := by
  refine ⟨fun hname => ⟨?_, ?_, ?_⟩, fun hname policy name c => resolve?_ne_of_underscore hname⟩
  · obtain ⟨hbare, htoken⟩ := token?_bare unit hd hname
    exact ⟨_, hbare, rfl, rfl, htoken⟩
  · obtain ⟨hbare, htoken⟩ := token?_bare unit hd hname
    refine ⟨_, declarationOf?_of_structured hbare htoken, ?_⟩
    simp only [Declaration.write, unitOf, Theme.exactStyle, List.append_assoc]
    rfl
  · refine ⟨bareRule d, rule?_bare hd hname, bareRule_refers d, ?_⟩
    unfold bareRule Rule.write Rule.variableName structuredMark Rule.factor
    cases d.kind with
    | range =>
      simp only [List.append_assoc, List.nil_append]
      rfl
    | color =>
      simp only [List.append_assoc]
      rfl

/-- A theme with an underscore in the name of a token. -/
def underscored : Theme :=
  .ofNormal
    [.range "gap_small".toList "gap".toList (.ofRatio false 1 1),
     .color "ink".toList "color".toList "black".toList]
    (by decide +kernel)

/-- The second token is usable by its name. The first one is not meant by the class of its name
under the substring policy either. -/
theorem token_usable_by_name_ink :
    '_' ∉ underscored.tokens[1].name ∧ '_' ∈ underscored.tokens[0].name ∧
    (∃ rule, (underscored.exactStyle "px".toList).rule? "oo-ink".toList = some rule ∧
      rule.write = ".oo-ink \x7bcolor:var(--oo-ink);\x7d".toList) ∧
    underscored.resolve? .substring "gap".toList ≠ some underscored.tokens[0] := by
  have hink : '_' ∉ underscored.tokens[1].name := by decide
  have hsmall : '_' ∈ underscored.tokens[0].name := by decide
  refine ⟨hink, hsmall, ?_, ?_⟩
  · obtain ⟨-, -, rule, hrule, -, hwrite⟩ :=
      (token_usable_by_name underscored "px".toList _ (by decide +kernel)).1 hink
    exact ⟨rule, hrule, hwrite⟩
  · exact (token_usable_by_name underscored "px".toList _ (by decide +kernel)).2 hsmall .substring
      "oo-gap_small".toList ⟨"oo-gap_small".toList, "gap".toList, some "small".toList⟩
      (by decide +kernel)

/-- A token with an underscore in its name is accepted, but the class spelled as that name is read
as another body with a multiplier: it means nothing, declares nothing, and has no rule. -/
theorem not_usable_of_underscore :
    let style := underscored.exactStyle "rem".toList
    underscored.tokens.head?.map DesignToken.name = some "gap_small".toList ∧
      ofName? "oo-gap_small".toList =
        some (.structured ⟨"oo-gap_small".toList, "gap".toList, some "small".toList⟩) ∧
      underscored.resolve? .exact "gap".toList = none ∧
      style.declarationOf? "oo-gap_small".toList = none ∧
      style.rule? "oo-gap_small".toList = none := by
  decide +kernel

end Style

end ClassSheet
