import ClassSheet.Proofs.Distinct
import ClassSheet.Proofs.Sheet.Parts
import ClassSheet.Proofs.Sheet.Rules
import ClassSheet.Proofs.Theme.Match

/-!
# The custom properties of a stylesheet

The root block declares a custom property for each structured class, named like the class as it is
written. Rules refer to the custom property that is named like their token. So the two halves of a
stylesheet meet only where a class is written as the bare name of a token.

* `Rule.variable?`: the custom property that a rule refers to.
* `Style.Declares`, `Style.Closed`: a root block declares a custom property; it declares all that
  the rules of the same stylesheet refer to.
* `declares_iff`: what is declared, in terms of the class names.
* `declarationOf?_variableName`: a class written as the bare name of a token that some class means
  declares the value of that token.
* `variables_coherent`: a custom property that is both declared and referred to has the value of
  the token of its name, and is declared once.
* `closed_iff_bare_classes`: a stylesheet is closed iff the bare classes of the tokens that its
  rules refer to are among the class names.
-/

namespace ClassSheet

/-- The custom property that a rule refers to, without the two dashes. -/
def Rule.variable? : Rule → Option Text
  | .range _ _ token _ => some (variableName token)
  | .color _ _ token => some (variableName token)
  | .enumerated .. => none

namespace Style

/-- The root block declares a custom property of this name. -/
def Declares (style : Style) (names : List Text) (v : Text) : Prop :=
  v ∈ (style.declarations names).map Declaration.name

/-- The root block declares every custom property that a rule refers to. -/
def Closed (style : Style) (names : List Text) : Prop :=
  ∀ rule ∈ style.rules names, ∀ v ∈ rule.variable?, style.Declares names v

instance (style : Style) (names : List Text) (v : Text) : Decidable (style.Declares names v) :=
  inferInstanceAs (Decidable (_ ∈ _))

instance (style : Style) (names : List Text) : Decidable (style.Closed names) :=
  inferInstanceAs
    (Decidable (∀ rule ∈ style.rules names, ∀ v ∈ rule.variable?, style.Declares names v))

/-- The unit of the declared value of a token. -/
def unitOf (style : Style) (d : DesignToken) : Text := if d.isRange then style.options.unit else []

variable {style : Style} {names : List Text} {name v : Text} {c : StructuredClass}
  {d : DesignToken}

/-! ## Declarations -/

theorem declarationOf?_of_structured (hc : Utility.ofName? name = some (.structured c))
    (hd : style.token? c = some d) :
    style.declarationOf? name = some ⟨name, d.value, style.unitOf d⟩ := by
  have hname : c.name = name := Utility.name_of_ofName? hc
  simp only [declarationOf?, hc, declaration?, hd, Option.map_some, hname, unitOf]

theorem declarationOf?_eq_some_iff {decl : Declaration} :
    style.declarationOf? name = some decl ↔
      ∃ c d, Utility.ofName? name = some (.structured c) ∧ style.token? c = some d ∧
        decl = ⟨name, d.value, style.unitOf d⟩ := by
  constructor
  · intro h
    unfold declarationOf? at h
    split at h
    · rename_i c hc
      obtain ⟨d, hd, rfl⟩ := Option.map_eq_some_iff.mp h
      have hname : c.name = name := Utility.name_of_ofName? hc
      exact ⟨c, d, hc, hd, by rw [hname, unitOf]⟩
    · cases h
  · rintro ⟨c, d, hc, hd, rfl⟩
    exact declarationOf?_of_structured hc hd

theorem name_of_declarationOf? {decl : Declaration} (h : style.declarationOf? name = some decl) :
    decl.name = name := by
  obtain ⟨c, d, -, -, rfl⟩ := declarationOf?_eq_some_iff.mp h
  rfl

/-- A custom property is declared by the class of its name, and then once. -/
theorem filter_name_declarations (style : Style) (names : List Text) (v : Text) :
    (style.declarations names).filter (·.name == v) =
      if v ∈ names then (style.declarationOf? v).toList else [] := by
  unfold declarations
  rw [filter_key_filterMap (fun _ _ h => name_of_declarationOf? h) (nodup_eraseDups names)]
  simp only [List.mem_eraseDups]

/-- A custom property is declared iff its name is a class name that asks for a declaration. -/
theorem declares_iff :
    style.Declares names v ↔ v ∈ names ∧ (style.declarationOf? v).isSome := by
  unfold Declares declarations
  rw [List.mem_map]
  constructor
  · rintro ⟨decl, hdecl, rfl⟩
    obtain ⟨name, hname, h⟩ := List.mem_filterMap.mp hdecl
    rw [name_of_declarationOf? h, h]
    exact ⟨List.mem_eraseDups.mp hname, rfl⟩
  · rintro ⟨hv, h⟩
    obtain ⟨decl, hdecl⟩ := Option.isSome_iff_exists.mp h
    refine ⟨decl, List.mem_filterMap.mpr ⟨v, List.mem_eraseDups.mpr hv, hdecl⟩, ?_⟩
    exact name_of_declarationOf? hdecl

/-! ## Rules -/

theorem mem_rules_iff {rule : Rule} :
    rule ∈ style.rules names ↔ ∃ name ∈ names, style.rule? name = some rule := by
  unfold rules
  simp only [List.mem_filterMap, List.mem_eraseDups]

/-- A rule that refers to a custom property is that of a structured class, and the custom property
is named like the token that the class means. -/
theorem structured_of_variable? {rule : Rule} (h : style.rule? name = some rule)
    (hv : rule.variable? = some v) :
    ∃ c d, Utility.ofName? name = some (.structured c) ∧ style.token? c = some d ∧
      v = Rule.variableName d.name := by
  cases rule?_eq_some_iff.mp h with
  | range hc hd _ _ _ =>
    cases hv
    exact ⟨_, _, hc, hd, rfl⟩
  | color hc hd _ =>
    cases hv
    exact ⟨_, _, hc, hd, rfl⟩
  | enumerated _ _ => cases hv

/-! ## The bare class of a token -/

/-- The name of a token that a body without an underscore means has no underscore either, so the
class written as that bare name is read back with it as the body, and means the token again. -/
theorem bare_class_of_resolve? {theme : Theme} {policy : Policy} {body : Text}
    (hbody : '_' ∉ body) (h : theme.resolve? policy body = some d) :
    Utility.ofName? (Rule.variableName d.name) =
        some (.structured ⟨Rule.variableName d.name, d.name, none⟩) ∧
      theme.resolve? policy d.name = some d := by
  have hname : '_' ∉ d.name := fun hmem => hbody ((Theme.name_infix_of_resolve? h).mem hmem)
  exact ⟨Utility.ofName?_mark_append hname, Theme.resolve?_name h⟩

/-- A class written as the bare name of a token that some class means declares the value of that
token. -/
theorem declarationOf?_variableName (hc : Utility.ofName? name = some (.structured c))
    (hd : style.token? c = some d) :
    style.declarationOf? (Rule.variableName d.name) =
      some ⟨Rule.variableName d.name, d.value, style.unitOf d⟩ := by
  obtain ⟨rest, -, rfl⟩ := Utility.ofName?_eq_structured_iff.mp hc
  have hbody := StructuredClass.underscore_notMem_body name rest
  obtain ⟨hbare, hagain⟩ := bare_class_of_resolve? hbody hd
  exact declarationOf?_of_structured hbare hagain

/-! ## Coherence -/

/-- The stylesheet is the text of its declarations and rules. A custom property that a rule refers
to, and that the root block declares, has the value of the token of its name, with the unit iff
that is a range token, and the root block declares it once. This is so because a token that some
body without an underscore means, under either policy, is also what its own bare class means. -/
theorem variables_coherent (style : Style) (names : List Text) :
    (style.sheet names).css =
        Declaration.block (style.declarations names) ++
          (style.rules names).flatMap Rule.write ∧
    (∀ rule ∈ style.rules names, ∀ token, rule.variable? = some (Rule.variableName token) →
      style.Declares names (Rule.variableName token) →
      ∃ d, style.theme.get? token = some d ∧
        (style.declarations names).filter (·.name == Rule.variableName token) =
          [⟨Rule.variableName token, d.value, if d.isRange then style.options.unit else []⟩]) ∧
    (∀ policy body d, '_' ∉ body → style.theme.resolve? policy body = some d →
      ∃ c, Utility.ofName? (Rule.variableName d.name) = some (.structured c) ∧
        c.body = d.name ∧ style.theme.resolve? policy c.body = some d) := by
  refine ⟨by rw [sheet_eq], ?_, ?_⟩
  · intro rule hrule token hv hdeclared
    obtain ⟨name, -, hname⟩ := mem_rules_iff.mp hrule
    obtain ⟨c, d, hc, hd, htoken⟩ := structured_of_variable? hname hv
    have htoken : token = d.name := List.append_cancel_left htoken
    subst htoken
    refine ⟨d, Theme.get?_eq_some_iff.mpr ⟨Theme.mem_of_resolve? hd, rfl⟩, ?_⟩
    rw [filter_name_declarations, if_pos (declares_iff.mp hdeclared).1,
      declarationOf?_variableName hc hd]
    rfl
  · intro policy body d hbody h
    obtain ⟨hbare, hagain⟩ := bare_class_of_resolve? hbody h
    exact ⟨_, hbare, rfl, hagain⟩

/-- Two tokens of which the first has a name that occurs in that of the second: under the substring
policy the second is never meant. -/
def shadowing : Style where
  theme := .ofNormal
    [.withDirections (.range "gap".toList "gap".toList (.ofRatio false 1 1)) [[], "-top".toList],
     .range "row-gap".toList "row-gap".toList (.ofRatio false 2 1)]
    (by decide +kernel)
  options := { policy := .substring }

/-- The class of the shadowed name declares a custom property of its own, and still the one that
the rules refer to has the value of its token. -/
theorem variables_coherent_shadowing :
    let names := ["oo-row-gap".toList, "oo-gap-top_2".toList, "oo-gap".toList]
    shadowing.Declares names "oo-row-gap".toList ∧
    (∃ d, shadowing.theme.get? "gap".toList = some d ∧
      (shadowing.declarations names).filter (·.name == "oo-gap".toList) =
        [⟨"oo-gap".toList, d.value, if d.isRange then "rem".toList else []⟩]) ∧
    ∃ c, Utility.ofName? "oo-gap".toList = some (.structured c) ∧ c.body = "gap".toList := by
  intro names
  obtain ⟨-, hvalue, hbare⟩ := variables_coherent shadowing names
  refine ⟨by decide +kernel, ?_, ?_⟩
  · have hrule : Rule.range "oo-gap-top_2".toList "gap-top".toList "gap".toList (some "2".toList) ∈
        shadowing.rules names := by decide +kernel
    have hdeclared : shadowing.Declares names "oo-gap".toList := by decide +kernel
    exact hvalue _ hrule "gap".toList rfl hdeclared
  · have h : shadowing.theme.resolve? .substring "row-gap".toList =
        some shadowing.theme.tokens[0] := by decide +kernel
    obtain ⟨c, hc, hbody, -⟩ := hbare .substring "row-gap".toList _ (by decide) h
    exact ⟨c, hc, hbody⟩

/-! ## Closed stylesheets -/

/-- The stylesheet is the text of its declarations and rules. A custom property that a rule refers
to is declared iff it is the name of a class among the class names; so a stylesheet is closed iff
the bare classes of all tokens that its rules refer to are among them. Every class with such a rule
declares at least the custom property named like itself, with the value of its token. -/
theorem closed_iff_bare_classes (style : Style) (names : List Text) :
    (style.sheet names).css =
        Declaration.block (style.declarations names) ++
          (style.rules names).flatMap Rule.write ∧
    (∀ rule ∈ style.rules names, ∀ v ∈ rule.variable?,
      (style.Declares names v ↔ v ∈ names)) ∧
    (style.Closed names ↔ ∀ rule ∈ style.rules names, ∀ v ∈ rule.variable?, v ∈ names) ∧
    (∀ name ∈ names, ∀ rule, style.rule? name = some rule → ∀ v ∈ rule.variable?,
      ∃ d ∈ style.theme.tokens, v = Rule.variableName d.name ∧
        ⟨name, d.value, if d.isRange then style.options.unit else []⟩ ∈
          style.declarations names) := by
  have hdeclares : ∀ rule ∈ style.rules names, ∀ v ∈ rule.variable?,
      (style.Declares names v ↔ v ∈ names) := by
    intro rule hrule v hv
    obtain ⟨name, -, hname⟩ := mem_rules_iff.mp hrule
    obtain ⟨c, d, hc, hd, rfl⟩ := structured_of_variable? hname hv
    rw [declares_iff, declarationOf?_variableName hc hd]
    simp only [Option.isSome_some, and_true]
  refine ⟨by rw [sheet_eq], hdeclares, ?_, ?_⟩
  · constructor
    · intro h rule hrule v hv
      exact (hdeclares rule hrule v hv).mp (h rule hrule v hv)
    · intro h rule hrule v hv
      exact (hdeclares rule hrule v hv).mpr (h rule hrule v hv)
  · intro name hname rule hrule v hv
    obtain ⟨c, d, hc, hd, rfl⟩ := structured_of_variable? hrule hv
    refine ⟨d, Theme.mem_of_resolve? hd, rfl, List.mem_filterMap.mpr ⟨name, ?_, ?_⟩⟩
    · exact List.mem_eraseDups.mpr hname
    · exact declarationOf?_of_structured hc hd

/-- The bare class of the token is what closes the stylesheet of a class with a side. -/
theorem closed_iff_bare_classes_shadowing :
    let names := ["oo-gap-top_2".toList, "oo-gap".toList]
    shadowing.Closed names ∧ shadowing.Declares names "oo-gap".toList ∧
      ∃ d ∈ shadowing.theme.tokens, "oo-gap".toList = Rule.variableName d.name ∧
        ⟨"oo-gap-top_2".toList, d.value, if d.isRange then "rem".toList else []⟩ ∈
          shadowing.declarations names := by
  intro names
  obtain ⟨-, hdeclares, hclosed, hown⟩ := closed_iff_bare_classes shadowing names
  have hrules : shadowing.rules names =
      [.range "oo-gap-top_2".toList "gap-top".toList "gap".toList (some "2".toList),
       .range "oo-gap".toList "gap".toList "gap".toList none] := by decide +kernel
  have hrule : Rule.range "oo-gap-top_2".toList "gap-top".toList "gap".toList (some "2".toList) ∈
      shadowing.rules names := by rw [hrules]; simp
  refine ⟨hclosed.mpr ?_, (hdeclares _ hrule _ rfl).mpr (by decide), ?_⟩
  · rw [hrules]
    intro rule hmem v hv
    simp only [List.mem_cons, List.not_mem_nil, or_false] at hmem
    rcases hmem with rfl | rfl <;> cases hv <;> decide
  · have hown_rule : shadowing.rule? "oo-gap-top_2".toList = some (.range "oo-gap-top_2".toList
        "gap-top".toList "gap".toList (some "2".toList)) := by decide +kernel
    exact hown "oo-gap-top_2".toList (by decide) _ hown_rule _ rfl

/-- A class with a side and a factor is enough for a rule, but it declares only its own custom
property: without the bare class the stylesheet is not closed, under the exact policy either. -/
theorem not_closed_of_side_alone :
    let style : Style := { shadowing with options := {} }
    (style.sheet ["oo-gap-top_2".toList]).css =
        (":root\x7b--oo-gap-top_2: 1rem;\x7d" ++
          ".oo-gap-top_2 \x7bgap-top:calc(var(--oo-gap) * 2);\x7d").toList ∧
      ¬style.Closed ["oo-gap-top_2".toList] := by
  intro style
  constructor
  · decide +kernel
  · decide +kernel

end Style

end ClassSheet
