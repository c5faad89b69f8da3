import ClassSheet.Proofs.Sheet.Accounting
import ClassSheet.Proofs.Sheet.Multipliers

/-!
# The ways to the rule of a structured class

The rule of a structured class can be asked for by its name, as that of a range token, and as that
of a color token. Each way finds the token on its own, and then looks at its kind, its sides and the
multiplier in another place. All agree; and as a declaration asks for the token alone, what
separates the declarations of a stylesheet from its rules are the classes that do not fit their
token.

* `Rule.isStructured`: the rule is that of a structured class.
* `Misfits`, `IsMisfit`: a class, or the class of a name, means a range token and has no rule.
* `not_rangeRule?_and_colorRule?`: no class has the rule of a range token and of a color token.
* `declares_without_rule_iff`: a class that declares a custom property has a rule unless it is a
  misfit.
* `length_declarations_eq`: the declarations are those of rules and misfits.
* `rule_routes_agree`: all of this together.
-/

namespace ClassSheet

open Utility (ofName?)

/-- Whether the rule is that of a structured class. -/
def Rule.isStructured : Rule → Bool
  | .range .. => true
  | .color .. => true
  | .enumerated .. => false

namespace Style

/-- The class means a range token, but its multiplier is no number or the token does not declare the
side. -/
def Misfits (style : Style) (c : StructuredClass) : Prop :=
  ∃ d, style.token? c = some d ∧ d.kind = .range ∧
    (¬c.hasValidMultiplier ∨ d.direction? c.body = none)

/-- The name is that of a structured class that does not fit its token. -/
def IsMisfit (style : Style) (name : Text) : Prop :=
  ∃ c, ofName? name = some (.structured c) ∧ style.Misfits c

variable {style : Style} {name : Text} {c : StructuredClass} {rule : Rule}

/-! ## One class -/

/-- A token is of one kind. -/
theorem not_rangeRule?_and_colorRule? :
    ¬((style.rangeRule? c).isSome ∧ (style.colorRule? c).isSome) := by
  rintro ⟨hrange, hcolor⟩
  obtain ⟨_, hrange⟩ := Option.isSome_iff_exists.mp hrange
  obtain ⟨_, hcolor⟩ := Option.isSome_iff_exists.mp hcolor
  obtain ⟨d, hd, hkind, -⟩ := rangeRule?_eq_some_iff.mp hrange
  obtain ⟨d', hd', hkind', -⟩ := colorRule?_eq_some_iff.mp hcolor
  cases hd.symm.trans hd'
  cases hkind.symm.trans hkind'

theorem isSome_declaration?_iff :
    (style.declaration? c).isSome ↔ ∃ d, style.token? c = some d := by
  rw [declaration?, Option.isSome_map, Option.isSome_iff_exists]

/-- Whatever leads to a rule finds the token first, and that is all that a declaration needs. -/
theorem isSome_declaration?_of_rule? (hname : ofName? name = some (.structured c))
    (h : style.rule? name = some rule) : (style.declaration? c).isSome := by
  rw [isSome_declaration?_iff]
  rcases (rule?_eq_some_iff_route hname).mp h with h | h
  · obtain ⟨d, htoken, -⟩ := rangeRule?_eq_some_iff.mp h
    exact ⟨d, htoken⟩
  · obtain ⟨d, htoken, -⟩ := colorRule?_eq_some_iff.mp h
    exact ⟨d, htoken⟩

/-- A misfit has no rule: it means a range token, and no other. -/
theorem Misfits.rule?_eq_none (h : style.Misfits c) (hname : ofName? name = some (.structured c)) :
    style.rule? name = none := by
  obtain ⟨d, htoken, hkind, hmisfit⟩ := h
  rw [rule?_of_range hname htoken hkind, Option.eq_none_iff_forall_ne_some]
  intro rule hrule
  obtain ⟨-, hvalid, direction, hdirection, -⟩ := rangeRuleOf?_eq_some_iff.mp hrule
  rcases hmisfit with hinvalid | hnone
  · exact hinvalid hvalid
  · cases hnone.symm.trans hdirection

/-- A class that declares a custom property has a rule unless it does not fit its token. -/
theorem declares_without_rule_iff (hname : ofName? name = some (.structured c)) :
    (style.declaration? c).isSome ∧ style.rule? name = none ↔ style.Misfits c := by
  constructor
  · rintro ⟨hdeclared, hnone⟩
    obtain ⟨d, htoken⟩ := isSome_declaration?_iff.mp hdeclared
    cases hkind : d.kind with
    | color =>
      rw [rule?_eq_some_iff.mpr (.color hname htoken hkind)] at hnone
      cases hnone
    | range =>
      refine ⟨d, htoken, hkind, ?_⟩
      by_contra hfits
      rw [not_or, not_not, ← ne_eq, Option.ne_none_iff_exists'] at hfits
      obtain ⟨hvalid, direction, hdirection⟩ := hfits
      rw [rule?_eq_some_iff.mpr (.range hname htoken hkind hvalid hdirection)] at hnone
      cases hnone
  · intro h
    obtain ⟨d, htoken, -⟩ := id h
    exact ⟨isSome_declaration?_iff.mpr ⟨d, htoken⟩, h.rule?_eq_none hname⟩

/-! ## A list of class names -/

/-- A name that asks for a declaration and has no rule is that of a misfit. -/
theorem isMisfit_iff :
    style.IsMisfit name ↔ (style.declarationOf? name).isSome ∧ style.rule? name = none := by
  rw [isSome_declarationOf?_iff]
  constructor
  · rintro ⟨c, hname, h⟩
    obtain ⟨hdeclared, hnone⟩ := (declares_without_rule_iff hname).mpr h
    exact ⟨⟨c, hname, hdeclared⟩, hnone⟩
  · rintro ⟨⟨c, hname, hdeclared⟩, hnone⟩
    exact ⟨c, hname, (declares_without_rule_iff hname).mp ⟨hdeclared, hnone⟩⟩

instance (style : Style) (name : Text) : Decidable (style.IsMisfit name) :=
  decidable_of_iff _ isMisfit_iff.symm

/-- A class name with a rule asks for a declaration iff the rule is that of a structured class. -/
theorem isStructured_iff (h : style.rule? name = some rule) :
    rule.isStructured ↔ (style.declarationOf? name).isSome := by
  cases rule?_eq_some_iff.mp h with
  | range hname htoken _ _ _ =>
    simp [Rule.isStructured, declarationOf?_of_structured hname htoken]
  | color hname htoken _ => simp [Rule.isStructured, declarationOf?_of_structured hname htoken]
  | enumerated hname _ => simp [Rule.isStructured, declarationOf?, hname]

/-- Of the class names that ask for a declaration, those with a rule are counted among the rules and
those without one among the skipped classes. -/
theorem length_declarations_eq (style : Style) (names : List Text) :
    (style.rules names).countP Rule.isStructured +
        (style.skipped names).countP (fun name => style.IsMisfit name) =
      (style.declarations names).length := by
  unfold declarations rules skipped
  rw [List.length_filterMap_eq_countP, List.countP_eq_countP_filter_add names.eraseDups
      (fun name => (style.declarationOf? name).isSome) fun name => (style.rule? name).isSome,
    List.countP_filterMap, List.countP_filter, List.countP_filter, List.countP_filter]
  congr 1
  · refine List.countP_congr fun name _ => ?_
    cases hrule : style.rule? name with
    | none => simp
    | some rule => simpa using isStructured_iff hrule
  · refine List.countP_congr fun name _ => ?_
    have hutility : (style.declarationOf? name).isSome → (ofName? name).isSome := by
      intro h
      obtain ⟨c, hname, -⟩ := isSome_declarationOf?_iff.mp h
      rw [hname]
      rfl
    simp only [Bool.and_eq_true, decide_eq_true_eq, isMisfit_iff, Option.isNone_iff_eq_none,
      Bool.not_eq_true', Option.isSome_eq_false_iff]
    tauto

/-- A structured class has a rule as that of a range token or as that of a color token, never both,
and by its name it has that rule. A class with a rule declares a custom property. One without a rule
does so iff it means a range token and either its multiplier is no number or the token does not
declare the side. So in every stylesheet there are as many declarations as there are rules of
structured classes and skipped classes of that kind. -/
theorem rule_routes_agree (style : Style) :
    (∀ c, ofName? c.name = some (.structured c) →
      ¬((style.rangeRule? c).isSome ∧ (style.colorRule? c).isSome) ∧
      (∀ rule, style.rule? c.name = some rule ↔
        style.rangeRule? c = some rule ∨ style.colorRule? c = some rule) ∧
      ((style.rule? c.name).isSome → (style.declaration? c).isSome) ∧
      ((style.declaration? c).isSome ∧ style.rule? c.name = none ↔
        ∃ d, style.token? c = some d ∧ d.kind = .range ∧
          (¬c.hasValidMultiplier ∨ d.direction? c.body = none))) ∧
    ∀ names,
      (style.sheet names).css =
        style.rootBlock names ++ (style.rules names).flatMap Rule.write ∧
      (style.sheet names).rules = (style.rules names).length ∧
      (style.rules names).countP Rule.isStructured +
          (style.sheet names).skipped.countP (fun name => style.IsMisfit name) =
        (style.sheet names).declarations := by
  refine ⟨fun c hname => ⟨not_rangeRule?_and_colorRule?, fun rule => ?_, fun h => ?_, ?_⟩, ?_⟩
  · exact rule?_eq_some_iff_route hname
  · obtain ⟨rule, hrule⟩ := Option.isSome_iff_exists.mp h
    exact isSome_declaration?_of_rule? hname hrule
  · exact declares_without_rule_iff hname
  · intro names
    refine ⟨css_sheet style names, by rw [sheet_eq], ?_⟩
    rw [sheet_eq]
    exact length_declarations_eq style names

/-- Two misfits, one for each reason, and two classes with rules, one of which has a multiplier that
is no number. -/
theorem rule_routes_agree_inked :
    let c : StructuredClass := ⟨"oo-gap-top".toList, "gap-top".toList, none⟩
    let names := ["oo-gap_2".toList, "oo-gap_big".toList, "oo-ink_big".toList, c.name,
      "ee-gap_1".toList, "oo-none".toList]
    ofName? c.name = some (.structured c) ∧
      ((inked.declaration? c).isSome ∧ inked.rule? c.name = none) ∧
      (inked.rules names).countP Rule.isStructured = 2 ∧
      (inked.sheet names).skipped = ["oo-gap_big".toList, c.name, "oo-none".toList] ∧
      2 + (inked.sheet names).skipped.countP (fun name => inked.IsMisfit name) =
        (inked.sheet names).declarations := by
  intro c names
  obtain ⟨hclass, hnames⟩ := rule_routes_agree inked
  have hname : ofName? c.name = some (.structured c) := by decide +kernel
  obtain ⟨-, -, -, hmisfit⟩ := hclass c hname
  have htoken : ∃ d, inked.token? c = some d ∧ d.kind = .range ∧ d.direction? c.body = none :=
    ⟨.range "gap".toList "gap".toList (.ofRatio false 1 1), by decide +kernel⟩
  obtain ⟨d, hd, hkind, hdirection⟩ := htoken
  obtain ⟨-, -, hcount⟩ := hnames names
  have htwo : (inked.rules names).countP Rule.isStructured = 2 := by decide +kernel
  rw [htwo] at hcount
  exact ⟨hname, hmisfit.mpr ⟨d, hd, hkind, .inr hdirection⟩, htwo, by decide +kernel, hcount⟩

end Style

end ClassSheet
