import ClassSheet.Proofs.Sheet.Accounting

/-!
# What the values of tokens decide

A token enters the rules of a stylesheet with its name, its property, its kind and its suffixes.
Its value stands in the root block alone, and its bounds stand nowhere.

* `DesignToken.form`: what a token is besides its value and its bounds.
* `Theme.SameForms`: position by position, the tokens of two themes have the same forms.
* `Theme.SameForms.resolve?`: in both themes a body means tokens of the same form.
* `Style.values_reach_no_rule`: of two styles that differ in values and units, the rules, the counts
  and the names of the custom properties.
-/

namespace ClassSheet

open Utility (ofName?)

/-- What a token is besides its value and its bounds. -/
structure DesignToken.Form where
  name : Text
  property : Text
  kind : TokenKind
  directions : List Text
  deriving DecidableEq

namespace DesignToken

/-- The token without its value and its bounds. -/
def form (d : DesignToken) : Form := ⟨d.name, d.property, d.kind, d.directions⟩

/-- The form itself, if its name followed by one of its suffixes that is not empty is the key. -/
def Form.composing? (key : Text) (f : Form) : Option Form :=
  (((if f.directions = [] then [[]] else f.directions).filter (· != [])).find?
    (f.name ++ · = key)).map fun _ => f

variable {d d' : DesignToken} {body : Text}

theorem map_composed? (d : DesignToken) (key : Text) :
    (d.composed? key).map (fun e => e.token.form) = d.form.composing? key := by
  unfold composed?
  rw [Option.map_map]
  rfl

theorem direction?_eq_of_form_eq (h : d.form = d'.form) : d.direction? body = d'.direction? body := by
  obtain ⟨hname, -, -, hdirections⟩ := Form.mk.inj h
  simp only [direction?, suffixes, hname, hdirections]

end DesignToken

namespace Theme

open DesignToken (Form form)

/-- Position by position, the tokens of both themes have the same form. -/
def SameForms (theme theme' : Theme) : Prop := theme.tokens.map form = theme'.tokens.map form

instance (theme theme' : Theme) : Decidable (theme.SameForms theme') :=
  inferInstanceAs (Decidable (_ = _))

variable {theme theme' : Theme} {d : DesignToken}

theorem SameForms.symm (h : theme.SameForms theme') : theme'.SameForms theme := Eq.symm h

/-- A search by the form finds tokens of the same form. -/
theorem SameForms.find? (h : theme.SameForms theme') (p : Form → Bool) :
    (theme.tokens.find? (p ∘ form)).map form = (theme'.tokens.find? (p ∘ form)).map form := by
  rw [← List.find?_map, ← List.find?_map, h]

theorem SameForms.findSome? (h : theme.SameForms theme') (f : Form → Option Form) :
    theme.tokens.findSome? (f ∘ form) = theme'.tokens.findSome? (f ∘ form) := by
  rw [← List.findSome?_map, ← List.findSome?_map, h]

theorem SameForms.get? (h : theme.SameForms theme') (name : Text) :
    (theme.get? name).map form = (theme'.get? name).map form := by
  rw [get?_eq_find?, get?_eq_find?]
  exact h.find? fun f => f.name = name

theorem SameForms.lookup? (h : theme.SameForms theme') (key : Text) :
    (theme.lookup? key).map (fun e => e.token.form) =
      (theme'.lookup? key).map fun e => e.token.form := by
  have hnames : ∀ theme : Theme, (theme.lookup? key).map (fun e => e.token.form) =
      ((theme.tokens.find? (·.name = key)).map form).or
        (theme.tokens.findSome? (Form.composing? key ∘ form)) := by
    intro theme
    have hcomposed : (Option.map fun e : Entry => e.token.form) ∘ (·.composed? key) =
        Form.composing? key ∘ form := funext fun d => DesignToken.map_composed? d key
    rw [lookup?_eq, Option.map_or, Option.map_map, List.map_findSome?, hcomposed]
    rfl
  rw [hnames, hnames, h.findSome?]
  congr 1
  exact h.find? fun f => f.name = key

/-- Under either policy a body means tokens of the same form. -/
theorem SameForms.resolve? (h : theme.SameForms theme') (policy : Policy) (body : Text) :
    (theme.resolve? policy body).map form = (theme'.resolve? policy body).map form := by
  cases policy with
  | substring =>
    rw [resolve?_substring, resolve?_substring]
    exact h.find? fun f => Text.contains f.name body
  | exact =>
    unfold Theme.resolve? resolveExact?
    rw [Option.map_or, Option.map_or, Option.map_map, Option.map_map, List.map_findSome?,
      List.map_findSome?]
    congr 1
    · exact h.lookup? body
    · congr 1
      funext side
      rw [Function.comp_apply, Function.comp_apply, Option.map_bind, Option.map_bind]
      congr 1
      funext base
      exact h.get? base

end Theme

namespace Style

variable {style style' : Style} {name : Text} {names : List Text} {rule : Rule}

section Forms

variable (hforms : style.theme.SameForms style'.theme)
  (hpolicy : style.options.policy = style'.options.policy)

include hforms hpolicy

/-- What a class means in the one style has a counterpart of the same form in the other one. -/
theorem exists_token?_of_sameForms {c : StructuredClass} {d : DesignToken}
    (h : style.token? c = some d) : ∃ d', style'.token? c = some d' ∧ d.form = d'.form := by
  have hmap := hforms.resolve? style.options.policy c.body
  rw [token?] at h
  rw [h, Option.map_some, hpolicy] at hmap
  obtain ⟨d', hd', hform⟩ := Option.map_eq_some_iff.mp hmap.symm
  exact ⟨d', hd', hform.symm⟩

theorem HasRule.of_sameForms (h : style.HasRule name rule) :
    ∃ rule', style'.HasRule name rule' ∧
      (style.options.unit = style'.options.unit ∨ (∃ c, ofName? name = some (.structured c)) →
        rule' = rule) := by
  cases h with
  | range hname htoken hkind hvalid hdirection =>
    obtain ⟨d', htoken', hform⟩ := exists_token?_of_sameForms hforms hpolicy htoken
    rw [DesignToken.direction?_eq_of_form_eq hform] at hdirection
    obtain ⟨hdname, hproperty, hdkind, -⟩ := DesignToken.Form.mk.inj hform
    refine ⟨_, .range hname htoken' (hdkind ▸ hkind) hvalid hdirection, fun _ => ?_⟩
    rw [hdname, hproperty]
  | color hname htoken hkind =>
    obtain ⟨d', htoken', hform⟩ := exists_token?_of_sameForms hforms hpolicy htoken
    obtain ⟨hdname, hproperty, hdkind, -⟩ := DesignToken.Form.mk.inj hform
    refine ⟨_, .color hname htoken' (hdkind ▸ hkind), fun _ => ?_⟩
    rw [hdname, hproperty]
  | enumerated hname hdeclaration =>
    refine ⟨_, .enumerated hname hdeclaration, ?_⟩
    rintro (hunit | ⟨c, hstructured⟩)
    · rw [hunit]
    · rw [hname] at hstructured
      cases hstructured

theorem isSome_rule?_of_sameForms (name : Text) :
    (style.rule? name).isSome = (style'.rule? name).isSome := by
  have himp : ∀ {style style' : Style}, style.theme.SameForms style'.theme →
      style.options.policy = style'.options.policy → (style.rule? name).isSome →
      (style'.rule? name).isSome := by
    intro style style' hforms hpolicy h
    obtain ⟨rule, hrule⟩ := Option.isSome_iff_exists.mp h
    obtain ⟨rule', hrule', -⟩ := (rule?_eq_some_iff.mp hrule).of_sameForms hforms hpolicy
    rw [rule?_eq_some_iff.mpr hrule']
    rfl
  exact Bool.eq_iff_iff.mpr ⟨himp hforms hpolicy, himp hforms.symm hpolicy.symm⟩

/-- Without a unit in it, a rule is the same in both styles. -/
theorem rule?_eq_of_sameForms
    (h : style.options.unit = style'.options.unit ∨ ∃ c, ofName? name = some (.structured c)) :
    style.rule? name = style'.rule? name := by
  cases hrule : style.rule? name with
  | some rule =>
    obtain ⟨rule', hrule', heq⟩ := (rule?_eq_some_iff.mp hrule).of_sameForms hforms hpolicy
    rw [rule?_eq_some_iff.mpr hrule', heq h]
  | none =>
    have hnone := isSome_rule?_of_sameForms hforms hpolicy name
    rw [hrule, Option.isSome_none] at hnone
    exact (Option.not_isSome_iff_eq_none.mp (Bool.eq_false_iff.mp hnone.symm)).symm

theorem map_name_declarationOf?_of_sameForms (name : Text) :
    (style.declarationOf? name).map Declaration.name =
      (style'.declarationOf? name).map Declaration.name := by
  have himp : ∀ {style style' : Style}, style.theme.SameForms style'.theme →
      style.options.policy = style'.options.policy → ∀ n,
      (style.declarationOf? name).map Declaration.name = some n →
      (style'.declarationOf? name).map Declaration.name = some n := by
    intro style style' hforms hpolicy n h
    obtain ⟨decl, hdecl, rfl⟩ := Option.map_eq_some_iff.mp h
    obtain ⟨c, d, hname, htoken, rfl⟩ := declarationOf?_eq_some_iff.mp hdecl
    obtain ⟨d', htoken', -⟩ := exists_token?_of_sameForms hforms hpolicy htoken
    rw [declarationOf?_of_structured hname htoken', Option.map_some]
  exact Option.ext fun n => ⟨himp hforms hpolicy n, himp hforms.symm hpolicy.symm n⟩

end Forms

/-- Two styles with one policy, whose tokens differ position by position in their values and bounds
alone, have stylesheets with as many declarations and rules and the same skipped classes, and their
root blocks declare custom properties of the same names in the same order. The rules of structured
classes are the same, whatever the units are. Those of enumerated classes differ in the unit behind
whole numbers alone, so that with one unit all rules are the same. -/
theorem values_reach_no_rule (style style' : Style) (names : List Text)
    (hforms : style.theme.SameForms style'.theme)
    (hpolicy : style.options.policy = style'.options.policy) :
    ((style.sheet names).declarations = (style'.sheet names).declarations ∧
      (style.sheet names).rules = (style'.sheet names).rules ∧
      (style.sheet names).skipped = (style'.sheet names).skipped) ∧
    (style.rootBlock names = Declaration.block (style.declarations names) ∧
      style'.rootBlock names = Declaration.block (style'.declarations names) ∧
      (style.declarations names).map Declaration.name =
        (style'.declarations names).map Declaration.name) ∧
    (style.options.unit = style'.options.unit → style.classRules names = style'.classRules names) ∧
    (∀ name c, ofName? name = some (.structured c) → style.rule? name = style'.rule? name) ∧
    (∀ name c, ofName? name = some (.enumerated c) →
      (style.rule? name = none ∧ style'.rule? name = none) ∨
      ∃ property value,
        style.rule? name = some (.enumerated name property value
          (if isWholeNumber value then style.options.unit else [])) ∧
        style'.rule? name = some (.enumerated name property value
          (if isWholeNumber value then style'.options.unit else []))) := by
  have hisSome := isSome_rule?_of_sameForms hforms hpolicy
  have hnames : (style.declarations names).map Declaration.name =
      (style'.declarations names).map Declaration.name := by
    unfold declarations
    rw [List.map_filterMap, List.map_filterMap]
    exact List.filterMap_congr fun name _ =>
      map_name_declarationOf?_of_sameForms hforms hpolicy name
  have hdeclarations := congrArg List.length hnames
  rw [List.length_map, List.length_map] at hdeclarations
  have hrules : (style.rules names).length = (style'.rules names).length := by
    unfold rules
    rw [List.length_filterMap_eq_countP, List.length_filterMap_eq_countP]
    exact List.countP_congr fun name _ => by rw [hisSome name]
  have hskipped : style.skipped names = style'.skipped names :=
    List.filter_congr fun name _ => by
      rw [← Option.not_isSome, ← Option.not_isSome, hisSome name]
  rw [sheet_eq, sheet_eq]
  refine ⟨⟨hdeclarations, hrules, hskipped⟩, ⟨rootBlock_eq _ _, rootBlock_eq _ _, hnames⟩, ?_, ?_, ?_⟩
  · intro hunit
    rw [classRules_eq, classRules_eq, rules, rules]
    congr 1
    exact List.filterMap_congr fun name _ => rule?_eq_of_sameForms hforms hpolicy (.inl hunit)
  · intro name c hname
    exact rule?_eq_of_sameForms hforms hpolicy (.inr ⟨c, hname⟩)
  · intro name c hname
    cases hdeclaration : c.declaration? with
    | none =>
      refine .inl ⟨?_, ?_⟩ <;> simp only [rule?, hname, enumeratedRule?, hdeclaration, Option.map_none]
    | some p =>
      exact .inr ⟨p.1, p.2, rule?_eq_some_iff.mpr (.enumerated hname hdeclaration),
        rule?_eq_some_iff.mpr (.enumerated hname hdeclaration)⟩

/-- The tokens of `shadowing` with other values, one of them a text, and with bounds. -/
def revalued : Style where
  theme := .ofNormal
    [{ name := "gap".toList, property := "gap".toList, kind := .range, value := .text "2vw".toList,
       directions := [[], "-top".toList] },
     .withBounds (.range "row-gap".toList "row-gap".toList (.ofRatio true 1 2))
       (.ofRatio false 0 1) (.ofRatio false 9 1) (.ofRatio false 1 10)]
    (by decide +kernel)
  options := { unit := "px".toList, policy := .substring }

/-- A class with a side and a factor has the same rule with other values and another unit, and a
whole number in an enumerated class has the other unit. -/
theorem values_reach_no_rule_revalued :
    let names := ["oo-gap-top_2".toList, "ee-margin_+10".toList, "oo-gap".toList]
    (shadowing.theme.SameForms revalued.theme ∧
      shadowing.options.policy = revalued.options.policy) ∧
    (shadowing.declarations names).map Declaration.name =
      (revalued.declarations names).map Declaration.name ∧
    shadowing.rootBlock names ≠ revalued.rootBlock names ∧
    shadowing.rule? "oo-gap-top_2".toList = revalued.rule? "oo-gap-top_2".toList ∧
    ∃ property value, revalued.rule? "ee-margin_+10".toList =
      some (.enumerated "ee-margin_+10".toList property value
        (if isWholeNumber value then "px".toList else [])) := by
  intro names
  have hforms : shadowing.theme.SameForms revalued.theme := by decide +kernel
  obtain ⟨-, ⟨-, -, hnames⟩, -, hstructured, henumerated⟩ :=
    values_reach_no_rule shadowing revalued names hforms rfl
  refine ⟨⟨hforms, rfl⟩, hnames, by decide +kernel, ?_, ?_⟩
  · exact hstructured _ ⟨"oo-gap-top_2".toList, "gap-top".toList, some "2".toList⟩ (by decide +kernel)
  · have hmargin : ofName? "ee-margin_+10".toList =
        some (.enumerated ⟨"ee-margin_+10".toList, "margin_+10".toList⟩) := by decide +kernel
    rcases henumerated _ _ hmargin with ⟨hnone, -⟩ | ⟨property, value, -, hrule⟩
    · have hsome : (shadowing.rule? "ee-margin_+10".toList).isSome := by decide +kernel
      rw [hnone] at hsome
      cases hsome
    · exact ⟨property, value, hrule⟩

end Style

end ClassSheet
