import ClassSheet.Proofs.Sheet.Variables
import Mathlib.Logic.Relation

/-!
# The account of a stylesheet

* `Style.rootBlock_eq`, `Style.classRules_eq`: the two parts of the text, made for themselves.
* `LeavesOut`: a class name is left out that occurs before or is no utility class.
* `Style.sheet_eq_of_distinct_eq`: a stylesheet depends on the different utility classes alone, in
  the order in which they occur first.
* `Style.sheet_accounts`: the text is that of the two parts, the counts are those of the different
  class names of each kind, and what is left out changes nothing.
-/

namespace ClassSheet

/-- Whether a class name is that of a utility class. -/
def Utility.isName (name : Text) : Bool := (ofName? name).isSome

/-- The second list is the first one without one class name, which occurs before or is not that of
a utility class. -/
inductive LeavesOut : List Text → List Text → Prop
  | repeated {xs ys : List Text} {name : Text} (h : name ∈ xs) :
      LeavesOut (xs ++ name :: ys) (xs ++ ys)
  | unrelated {xs ys : List Text} {name : Text} (h : Utility.ofName? name = none) :
      LeavesOut (xs ++ name :: ys) (xs ++ ys)

namespace Style

variable (style : Style) (names : List Text)

/-! ## The two parts of the text -/

theorem rootBlock_eq :
    style.rootBlock names = Declaration.block (style.declarations names) := by
  rw [rootBlock, countedRootBlock_eq]

theorem classRules_eq : style.classRules names = (style.rules names).flatMap Rule.write := rfl

theorem css_sheet :
    (style.sheet names).css = style.rootBlock names ++ style.classRules names := by
  rw [sheet_eq, rootBlock_eq, classRules_eq]

/-! ## What other class names bring -/

variable {style} {names} {name : Text}

theorem declarationOf?_eq_none (h : Utility.ofName? name = none) :
    style.declarationOf? name = none := by
  rw [declarationOf?, h]

theorem rule?_eq_none (h : Utility.ofName? name = none) : style.rule? name = none := by
  rw [rule?, h]

/-- A declaration is that of a structured class. -/
theorem isSome_declarationOf?_iff :
    (style.declarationOf? name).isSome ↔
      ∃ c, Utility.ofName? name = some (.structured c) ∧ (style.declaration? c).isSome := by
  unfold declarationOf?
  cases hname : Utility.ofName? name with
  | none => simp
  | some u =>
    cases u with
    | structured c => simp
    | enumerated c => simp

/-- What only utility classes bring is brought by the utility classes among the class names. -/
theorem filterMap_filter_isName {β : Type} {f : Text → Option β}
    (hf : ∀ name, Utility.ofName? name = none → f name = none) (names : List Text) :
    (names.filter Utility.isName).filterMap f = names.filterMap f :=
  filterMap_filter_of_none (fun name hname => hf name (by simpa [Utility.isName] using hname)) names

/-- A stylesheet depends on the different utility classes alone. -/
theorem sheet_eq_of_distinct_eq {names' : List Text}
    (h : names.eraseDups.filter Utility.isName = names'.eraseDups.filter Utility.isName) :
    style.sheet names = style.sheet names' := by
  have hdeclarations : style.declarations names = style.declarations names' := by
    unfold declarations
    rw [← filterMap_filter_isName (fun _ => declarationOf?_eq_none), h,
      filterMap_filter_isName (fun _ => declarationOf?_eq_none)]
  have hrules : style.rules names = style.rules names' := by
    unfold rules
    rw [← filterMap_filter_isName (fun _ => rule?_eq_none), h,
      filterMap_filter_isName (fun _ => rule?_eq_none)]
  have hskipped : style.skipped names = style.skipped names' := by
    have hfilter : ∀ names : List Text, style.skipped names =
        (names.eraseDups.filter Utility.isName).filter fun name => (style.rule? name).isNone := by
      intro names
      rw [List.filter_filter]
      rfl
    rw [hfilter, h, ← hfilter]
  rw [sheet_eq, sheet_eq, hdeclarations, hrules, hskipped]

theorem sheet_eraseDups (style : Style) (names : List Text) :
    style.sheet names.eraseDups = style.sheet names :=
  sheet_eq_of_distinct_eq (by rw [eraseDups_eraseDups])

/-! ## Leaving out class names -/

/-- One class name that is left out changes nothing. -/
theorem sheet_eq_of_leavesOut {names' : List Text} (h : LeavesOut names names') :
    style.sheet names = style.sheet names' := by
  cases h with
  | @repeated xs ys name hmem =>
    exact sheet_eq_of_distinct_eq (by rw [eraseDups_append_cons_of_mem hmem])
  | @unrelated xs ys name hname =>
    have hnot : ¬Utility.isName name := by simp [Utility.isName, hname]
    refine sheet_eq_of_distinct_eq ?_
    rw [filter_eraseDups, filter_eraseDups, List.filter_append, List.filter_append,
      List.filter_cons_of_neg hnot]

/-- Any number of class names that are left out one after the other change nothing. -/
theorem sheet_eq_of_leavesOut_many {names' : List Text}
    (h : Relation.ReflTransGen LeavesOut names names') :
    style.sheet names = style.sheet names' := by
  induction h with
  | refl => rfl
  | tail _ hstep ih => rw [ih, sheet_eq_of_leavesOut hstep]

/-! ## The account -/

/-- A utility class has a rule or is skipped. -/
theorem length_rules_add_length_skipped (style : Style) (names : List Text) :
    (style.rules names).length + (style.skipped names).length =
      (names.eraseDups.filter Utility.isName).length := by
  unfold rules skipped
  rw [List.length_filterMap_eq_countP, ← List.countP_eq_length_filter,
    ← List.countP_eq_length_filter, List.countP_eq_countP_filter_add names.eraseDups
      Utility.isName fun name => (style.rule? name).isSome, List.countP_filter, List.countP_filter]
  congr 1
  · -- What has a rule is the name of a utility class.
    refine List.countP_congr fun name _ => ?_
    obtain hname | ⟨u, hname⟩ := (Utility.ofName? name).eq_none_or_eq_some
    · simp [Utility.isName, hname, rule?_eq_none hname]
    · simp [Utility.isName, hname]
  · refine List.countP_congr fun name _ => ?_
    cases style.rule? name <;> simp [Utility.isName]

/-- The text is that of the two parts, and that of the stylesheet alone. The counts are the numbers
of different class names with a declaration and with a rule; skipped, in the order in which they
occur first, are the utility classes that have none. Class names that occur before, and those of
no utility class, can be left out; so the class names of a piece of markup need not be made
distinct before. -/
theorem sheet_accounts (style : Style) (names : List Text) :
    (style.sheet names).css = style.rootBlock names ++ style.classRules names ∧
    (style.sheet names).css = style.stylesheet names ∧
    (style.sheet names).declarations =
      {name | name ∈ names ∧ ∃ c, Utility.ofName? name = some (.structured c) ∧
        (style.declaration? c).isSome}.ncard ∧
    (style.sheet names).rules = {name | name ∈ names ∧ (style.rule? name).isSome}.ncard ∧
    (style.sheet names).skipped =
      ((firstOccurrences names).filter fun name =>
        (Utility.ofName? name).isSome && (style.rule? name).isNone) ∧
    (style.sheet names).skipped.Nodup ∧
    (style.sheet names).rules + (style.sheet names).skipped.length =
      {name | name ∈ names ∧ (Utility.ofName? name).isSome}.ncard ∧
    (∀ names', Relation.ReflTransGen LeavesOut names names' →
      style.sheet names' = style.sheet names) ∧
    ∀ markup, style.synthesize markup = style.stylesheet (Markup.occurrences markup) := by
  refine ⟨css_sheet style names, rfl, ?_, ?_, ?_, ?_, ?_, ?_, ?_⟩
  · rw [sheet_eq]
    exact (length_filterMap_eraseDups style.declarationOf? names).trans
      (by simp only [isSome_declarationOf?_iff])
  · rw [sheet_eq]
    exact length_filterMap_eraseDups style.rule? names
  · rw [sheet_eq, ← eraseDups_eq_firstOccurrences]
    exact List.filter_congr fun name _ => Bool.and_comm _ _
  · rw [sheet_eq]
    exact (nodup_eraseDups names).filter _
  · rw [sheet_eq]
    exact (length_rules_add_length_skipped style names).trans
      (length_filter_eraseDups Utility.isName names)
  · intro names' h
    exact (sheet_eq_of_leavesOut_many h).symm
  · intro markup
    exact congrArg Sheet.css (sheet_eraseDups style (Markup.occurrences markup))

/-- A repeated class and one that is no utility class are left out, and nothing changes. -/
theorem sheet_accounts_shadowing :
    let names := ["oo-gap".toList, "card".toList, "oo-gap".toList, "oo-gap-left".toList]
    shadowing.sheet ["oo-gap".toList, "oo-gap-left".toList] = shadowing.sheet names ∧
      (shadowing.sheet names).rules + (shadowing.sheet names).skipped.length =
        {name | name ∈ names ∧ (Utility.ofName? name).isSome}.ncard := by
  intro names
  obtain ⟨-, -, -, -, -, -, hcount, hleft, -⟩ := sheet_accounts shadowing names
  have hrepeated : LeavesOut names ["oo-gap".toList, "card".toList, "oo-gap-left".toList] :=
    @LeavesOut.repeated ["oo-gap".toList, "card".toList] ["oo-gap-left".toList] _ (by decide)
  have hunrelated : LeavesOut ["oo-gap".toList, "card".toList, "oo-gap-left".toList]
      ["oo-gap".toList, "oo-gap-left".toList] :=
    @LeavesOut.unrelated ["oo-gap".toList] ["oo-gap-left".toList] _ (by decide +kernel)
  exact ⟨hleft _ (.tail (.single hrepeated) hunrelated), hcount⟩

end Style

end ClassSheet
