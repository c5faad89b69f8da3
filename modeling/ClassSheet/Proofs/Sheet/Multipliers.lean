import ClassSheet.Proofs.Sheet.Spelling

/-!
# Multipliers that are no numbers

A multiplier is looked at only where it is used, which is in the rule of a range token. So a class
whose multiplier is no number never has such a rule, while a class that means a color token has its
rule whatever stands behind the first underscore.

* `StructuredClass.IllFormed`: the class has a multiplier that is not the text of a finite number.
* `rangeRule?_eq_none_of_illFormed`, `rule?_eq_none_of_illFormed`: what such a class never has.
* `mem_skipped_iff`: a class name is skipped iff it is among the class names, that of a utility
  class, and without a rule.
* `illFormed_has_rule_iff_color`: which classes of this kind have a rule and which are skipped.
* `illFormed_color_has_rule`: a class of this kind that has a rule.
-/

namespace ClassSheet

open Utility (ofName?)

/-- The class has a multiplier, which is not the text of a finite number. -/
def StructuredClass.IllFormed (c : StructuredClass) : Prop :=
  ∃ m, c.multiplier? = some m ∧ ∀ x, Number.ofText? m = some x → ¬x.isFinite

theorem StructuredClass.IllFormed.not_hasValidMultiplier {c : StructuredClass} (h : c.IllFormed) :
    ¬c.hasValidMultiplier := by
  obtain ⟨m, hm, hnone⟩ := h
  intro hvalid
  obtain ⟨x, hx, hfinite⟩ := hasValidMultiplier_iff.mp hvalid m hm
  exact hnone x hx hfinite

namespace Style

variable {style : Style} {name : Text} {names : List Text} {c : StructuredClass} {d : DesignToken}

theorem rangeRule?_eq_none_of_illFormed (h : c.IllFormed) : style.rangeRule? c = none := by
  rw [Option.eq_none_iff_forall_ne_some]
  intro rule hrule
  obtain ⟨_, -, -, hvalid, -⟩ := rangeRule?_eq_some_iff.mp hrule
  exact h.not_hasValidMultiplier hvalid

/-- Without a color token there is no other rule that the class could have. -/
theorem rule?_eq_none_of_illFormed (hname : ofName? name = some (.structured c)) (h : c.IllFormed)
    (hcolor : ∀ d, style.token? c = some d → d.kind ≠ .color) : style.rule? name = none := by
  rw [Option.eq_none_iff_forall_ne_some]
  intro rule hrule
  rcases (rule?_eq_some_iff_route hname).mp hrule with hrange | hcolored
  · rw [rangeRule?_eq_none_of_illFormed h] at hrange
    cases hrange
  · obtain ⟨d, htoken, hkind, -⟩ := colorRule?_eq_some_iff.mp hcolored
    exact hcolor d htoken hkind

theorem mem_skipped_iff :
    name ∈ (style.sheet names).skipped ↔
      name ∈ names ∧ (ofName? name).isSome ∧ style.rule? name = none := by
  rw [sheet_eq]
  simp only [skipped, List.mem_filter, List.mem_eraseDups, Bool.and_eq_true,
    Option.isNone_iff_eq_none]
  tauto

/-- A class whose multiplier is no number never has the rule of a range token. Unless it means a
color token it has no rule at all and is skipped, whatever else is among the class names. If it
means a color token, it has the rule of that token, as though there were no multiplier, and is not
skipped. -/
theorem illFormed_has_rule_iff_color (style : Style) (name : Text) (c : StructuredClass)
    (hname : ofName? name = some (.structured c)) (h : c.IllFormed) :
    style.rangeRule? c = none ∧
    ((∀ d, style.token? c = some d → d.kind ≠ .color) →
      style.rule? name = none ∧ style.colorRule? c = none ∧
        ∀ names, name ∈ names → name ∈ (style.sheet names).skipped) ∧
    ∀ d, style.token? c = some d → d.kind = .color →
      style.rule? name = some (.color name d.property d.name) ∧
        style.colorRule? c = some (.color name d.property d.name) ∧
        ∀ names, name ∉ (style.sheet names).skipped := by
  refine ⟨rangeRule?_eq_none_of_illFormed h, fun hcolor => ?_, fun d htoken hkind => ?_⟩
  · have hrule := rule?_eq_none_of_illFormed hname h hcolor
    refine ⟨hrule, ?_, fun names hmem => mem_skipped_iff.mpr ⟨hmem, by rw [hname]; rfl, hrule⟩⟩
    rw [Option.eq_none_iff_forall_ne_some]
    intro rule hrule
    obtain ⟨d, htoken, hkind, -⟩ := colorRule?_eq_some_iff.mp hrule
    exact hcolor d htoken hkind
  · have hc : c.name = name := Utility.name_of_ofName? hname
    have hrule : style.rule? name = some (.color name d.property d.name) :=
      rule?_eq_some_iff.mpr (.color hname htoken hkind)
    refine ⟨hrule, colorRule?_eq_some_iff.mpr ⟨d, htoken, hkind, by rw [hc]⟩, fun names hmem => ?_⟩
    rw [(mem_skipped_iff.mp hmem).2.2] at hrule
    cases hrule

/-- A range token and a color token. -/
def inked : Style where
  theme := .ofNormal
    [.range "gap".toList "gap".toList (.ofRatio false 1 1),
     .color "ink".toList "color".toList "black".toList]
    (by decide +kernel)
  options := {}

theorem illFormed_big (name body : Text) :
    StructuredClass.IllFormed ⟨name, body, some "big".toList⟩ :=
  ⟨"big".toList, rfl, by decide +kernel⟩

/-- With the same multiplier a class of the range token is skipped, and one of the color token is
not. -/
theorem illFormed_has_rule_iff_color_inked :
    let names := ["oo-gap_big".toList, "oo-ink_big".toList]
    ofName? "oo-gap_big".toList =
        some (.structured ⟨"oo-gap_big".toList, "gap".toList, some "big".toList⟩) ∧
      inked.rule? "oo-gap_big".toList = none ∧
      "oo-gap_big".toList ∈ (inked.sheet names).skipped ∧
      inked.rule? "oo-ink_big".toList =
        some (.color "oo-ink_big".toList "color".toList "ink".toList) ∧
      "oo-ink_big".toList ∉ (inked.sheet names).skipped := by
  intro names
  have hgap : ofName? "oo-gap_big".toList =
      some (.structured ⟨"oo-gap_big".toList, "gap".toList, some "big".toList⟩) := by decide +kernel
  have hink : ofName? "oo-ink_big".toList =
      some (.structured ⟨"oo-ink_big".toList, "ink".toList, some "big".toList⟩) := by decide +kernel
  obtain ⟨-, hnone, -⟩ := illFormed_has_rule_iff_color inked _ _ hgap (illFormed_big _ _)
  obtain ⟨-, -, hcolor⟩ := illFormed_has_rule_iff_color inked _ _ hink (illFormed_big _ _)
  have hgaptoken : inked.token? ⟨"oo-gap_big".toList, "gap".toList, some "big".toList⟩ =
      some inked.theme.tokens[0] := by decide +kernel
  have hinktoken : inked.token? ⟨"oo-ink_big".toList, "ink".toList, some "big".toList⟩ =
      some inked.theme.tokens[1] := by decide +kernel
  obtain ⟨hgaprule, -, hskipped⟩ := hnone fun d hd => by
    rw [hgaptoken] at hd
    cases hd
    decide
  obtain ⟨hinkrule, -, hkept⟩ := hcolor _ hinktoken rfl
  exact ⟨hgap, hgaprule, hskipped names (by decide), hinkrule, hkept names⟩

/-- A class with a multiplier that is no number has a rule, and is not skipped. -/
theorem illFormed_color_has_rule :
    ∃ c, ofName? "oo-ink_big".toList = some (.structured c) ∧ c.IllFormed ∧
      inked.rule? "oo-ink_big".toList =
        some (.color "oo-ink_big".toList "color".toList "ink".toList) ∧
      inked.colorRule? c = inked.rule? "oo-ink_big".toList ∧
      (inked.sheet ["oo-ink_big".toList]).skipped = [] := by
  refine ⟨⟨"oo-ink_big".toList, "ink".toList, some "big".toList⟩, ?_, illFormed_big _ _, ?_⟩
  · decide +kernel
  · decide +kernel

end Style

end ClassSheet
