import ClassSheet.Sheet.Basic
import ClassSheet.Proofs.Utility

/-!
# The rules that class names have

* `Style.HasRule`: what has to hold for a class name to have a rule, one case for each kind.
* `Style.rule?_eq_some_iff`: a class name has the rules that this says.
* `Style.rangeRule?_eq_some_iff`, `Style.colorRule?_eq_some_iff`: what has to hold for a class to
  have the rule of a range token, and that of a color token.
* `Style.rule?_eq_some_iff_route`: by its name a structured class has one of these.
* `Rule.name`, `Rule.gap`, `Rule.inside`: the parts of a rule's text around its opening brace.
* `Rule.write_eq`: the text of a rule is made of them.
-/

namespace ClassSheet

open Utility (ofName?)

namespace Style

variable {style : Style} {name : Text} {rule : Rule}

/-- What has to hold for a class name to have a rule. A class that means a range token needs a valid
multiplier and a side that the token declares; one that means a color token needs nothing else. -/
inductive HasRule (style : Style) (name : Text) : Rule → Prop
  | range {c : StructuredClass} {d : DesignToken} {direction : Direction}
      (hname : ofName? name = some (.structured c)) (htoken : style.token? c = some d)
      (hkind : d.kind = .range) (hvalid : c.hasValidMultiplier)
      (hdirection : d.direction? c.body = some direction) :
      HasRule style name (.range name (d.property ++ direction.suffix) d.name c.multiplier?)
  | color {c : StructuredClass} {d : DesignToken}
      (hname : ofName? name = some (.structured c)) (htoken : style.token? c = some d)
      (hkind : d.kind = .color) : HasRule style name (.color name d.property d.name)
  | enumerated {c : EnumeratedClass} {property value : Text}
      (hname : ofName? name = some (.enumerated c))
      (hdeclaration : c.declaration? = some (property, value)) :
      HasRule style name (.enumerated name property value
        (if isWholeNumber value then style.options.unit else []))

theorem rangeRuleOf?_eq_some_iff {d : DesignToken} {c : StructuredClass} :
    rangeRuleOf? d c = some rule ↔
      d.kind = .range ∧ c.hasValidMultiplier ∧ ∃ direction, d.direction? c.body = some direction ∧
        rule = .range c.name (d.property ++ direction.suffix) d.name c.multiplier? := by
  unfold rangeRuleOf?
  by_cases h : d.kind = .range ∧ c.hasValidMultiplier
  · have hboth : (d.isRange && c.hasValidMultiplier) = true := by simp [DesignToken.isRange, h]
    rw [if_pos hboth, Option.map_eq_some_iff]
    simp only [h, true_and, eq_comm]
  · have hboth : ¬(d.isRange && c.hasValidMultiplier) = true := by
      simpa [DesignToken.isRange] using h
    rw [if_neg hboth]
    simp only [reduceCtorEq, false_iff]
    exact fun hrule => h ⟨hrule.1, hrule.2.1⟩

/-- A class that means a range token has the rule of that token, if it has one. -/
theorem rule?_of_range {c : StructuredClass} {d : DesignToken}
    (hname : ofName? name = some (.structured c)) (htoken : style.token? c = some d)
    (hkind : d.kind = .range) : style.rule? name = rangeRuleOf? d c := by
  unfold rule?
  rw [hname]
  dsimp only
  rw [htoken, Option.bind_some, hkind]

/-- A class name has the rules that `HasRule` says. -/
theorem rule?_eq_some_iff : style.rule? name = some rule ↔ style.HasRule name rule := by
  constructor
  · intro h
    unfold rule? at h
    split at h
    · cases h
    · rename_i c hname
      have hc : c.name = name := Utility.name_of_ofName? hname
      obtain ⟨d, htoken, h⟩ := Option.bind_eq_some_iff.mp h
      split at h
      · obtain ⟨hkind, hvalid, direction, hdirection, rfl⟩ := rangeRuleOf?_eq_some_iff.mp h
        rw [hc]
        exact .range hname htoken hkind hvalid hdirection
      · rename_i hkind
        cases h
        rw [colorRuleOf, hc]
        exact .color hname htoken hkind
    · rename_i c hname
      have hc : c.name = name := Utility.name_of_ofName? hname
      obtain ⟨⟨property, value⟩, hdeclaration, rfl⟩ := Option.map_eq_some_iff.mp h
      rw [hc]
      exact .enumerated hname hdeclaration
  · intro h
    cases h with
    | @range c d direction hname htoken hkind hvalid hdirection =>
      have hc : c.name = name := Utility.name_of_ofName? hname
      rw [rule?_of_range hname htoken hkind, rangeRuleOf?_eq_some_iff]
      exact ⟨hkind, hvalid, direction, hdirection, by rw [hc]⟩
    | @color c d hname htoken hkind =>
      have hc : c.name = name := Utility.name_of_ofName? hname
      unfold rule?
      rw [hname]
      dsimp only
      rw [htoken, Option.bind_some, hkind]
      dsimp only
      rw [colorRuleOf, hc]
    | @enumerated c property value hname hdeclaration =>
      have hc : c.name = name := Utility.name_of_ofName? hname
      unfold rule?
      rw [hname]
      dsimp only
      rw [enumeratedRule?, hdeclaration, Option.map_some, hc]

/-! ## Rules by the kind of the token -/

section Kinds

variable {c : StructuredClass}

theorem rangeRule?_eq_some_iff :
    style.rangeRule? c = some rule ↔
      ∃ d, style.token? c = some d ∧ d.kind = .range ∧ c.hasValidMultiplier ∧
        ∃ direction, d.direction? c.body = some direction ∧
          rule = .range c.name (d.property ++ direction.suffix) d.name c.multiplier? := by
  rw [rangeRule?, Option.bind_eq_some_iff]
  simp only [rangeRuleOf?_eq_some_iff]

theorem colorRule?_eq_some_iff :
    style.colorRule? c = some rule ↔
      ∃ d, style.token? c = some d ∧ d.kind = .color ∧ rule = .color c.name d.property d.name := by
  unfold colorRule?
  rw [Option.bind_eq_some_iff]
  refine exists_congr fun d => and_congr_right fun _ => ?_
  by_cases hkind : d.kind = .color
  · simp only [hkind, ↓reduceIte, Option.some.injEq, colorRuleOf, true_and, eq_comm]
  · simp [hkind]

/-- By its name a class has the rule that it has as that of a range token or of a color token. -/
theorem rule?_eq_some_iff_route (hname : ofName? name = some (.structured c)) :
    style.rule? name = some rule ↔
      style.rangeRule? c = some rule ∨ style.colorRule? c = some rule := by
  have hc : c.name = name := Utility.name_of_ofName? hname
  rw [rule?_eq_some_iff, rangeRule?_eq_some_iff, colorRule?_eq_some_iff, hc]
  constructor
  · intro h
    cases h with
    | range hname' htoken hkind hvalid hdirection =>
      cases hname.symm.trans hname'
      exact .inl ⟨_, htoken, hkind, hvalid, _, hdirection, rfl⟩
    | color hname' htoken hkind =>
      cases hname.symm.trans hname'
      exact .inr ⟨_, htoken, hkind, rfl⟩
    | enumerated hname' _ => cases hname.symm.trans hname'
  · rintro (⟨d, htoken, hkind, hvalid, direction, hdirection, rfl⟩ | ⟨d, htoken, hkind, rfl⟩)
    · exact .range hname htoken hkind hvalid hdirection
    · exact .color hname htoken hkind

end Kinds

end Style

/-! ## The text of a rule -/

namespace Rule

/-- The class name that a rule is for. -/
def name : Rule → Text
  | .range name .. => name
  | .color name .. => name
  | .enumerated name .. => name

/-- What stands between the class name and the opening brace. -/
def gap : Rule → Text
  | .range .. => [' ']
  | .color .. => [' ']
  | .enumerated .. => []

/-- What follows the opening brace. -/
def inside : Rule → Text
  | .range _ property token multiplier? =>
    property ++ ":calc(var(--".toList ++ variableName token ++ ")".toList ++
      factor multiplier? ++ ");\x7d".toList
  | .color _ property token =>
    property ++ ":var(--".toList ++ variableName token ++ ");\x7d".toList
  | .enumerated _ property value unit =>
    property ++ ":".toList ++ value ++ unit ++ "\x7d".toList

theorem write_eq (rule : Rule) :
    rule.write = '.' :: (rule.name ++ rule.gap) ++ '{' :: rule.inside := by
  unfold write inside
  cases rule <;>
    · simp only [name, gap, List.append_assoc, List.cons_append, List.nil_append]
      rfl

end Rule

theorem Style.name_of_rule? {style : Style} {name : Text} {rule : Rule}
    (h : style.rule? name = some rule) : rule.name = name := by
  cases Style.rule?_eq_some_iff.mp h <;> rfl

end ClassSheet
