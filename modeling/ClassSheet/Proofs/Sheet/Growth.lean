import ClassSheet.Proofs.Sheet.Accounting
import ClassSheet.Proofs.Sheet.Meaning
import ClassSheet.Proofs.Theme.Append

/-!
# Stylesheets that grow

A stylesheet grows with its class names and with the tokens of its theme. More class names add
declarations and rules behind those that are there. One more token at the end of the theme changes
no class that meant a token before, with few exceptions under the exact policy.

* `declarations_append`, `rules_append`, `skipped_append`: what more class names add.
* `rootInside`: what stands between the braces of the root block.
* `sheet_grows`: the parts of a longer stylesheet are those of two shorter ones.
* `one_more_token_conservative`: what one more token changes, and where stylesheets stay the same.
-/

namespace ClassSheet

open Utility (ofName?)

namespace Style

/-! ## More class names -/

section Append

variable (style : Style) (xs ys : List Text)

theorem declarations_append :
    style.declarations (xs ++ ys) =
      style.declarations xs ++ style.declarations (ys.filter (· ∉ xs)) := by
  unfold declarations
  rw [eraseDups_append_eq, List.filterMap_append]

theorem rules_append :
    style.rules (xs ++ ys) = style.rules xs ++ style.rules (ys.filter (· ∉ xs)) := by
  unfold rules
  rw [eraseDups_append_eq, List.filterMap_append]

theorem skipped_append :
    style.skipped (xs ++ ys) = style.skipped xs ++ style.skipped (ys.filter (· ∉ xs)) := by
  unfold skipped
  rw [eraseDups_append_eq, List.filter_append]

end Append

/-- What stands between the braces of the root block. -/
def rootInside (style : Style) (names : List Text) : Text :=
  (style.declarations names).flatMap Declaration.write

theorem rootBlock_eq_rootInside (style : Style) (names : List Text) :
    style.rootBlock names = ":root\x7b".toList ++ style.rootInside names ++ "\x7d".toList :=
  (rootBlock_eq style names).trans (List.append_assoc _ _ _).symm

/-- With more class names, only the new ones among them add something: their declarations, rules and
skipped classes stand behind those of the class names before, which stay as they are. -/
theorem sheet_grows (style : Style) (xs ys : List Text) :
    let new := ys.filter (· ∉ xs)
    style.classRules (xs ++ ys) = style.classRules xs ++ style.classRules new ∧
    (style.sheet (xs ++ ys)).skipped = (style.sheet xs).skipped ++ (style.sheet new).skipped ∧
    (style.sheet (xs ++ ys)).rules = (style.sheet xs).rules + (style.sheet new).rules ∧
    (style.sheet (xs ++ ys)).declarations =
      (style.sheet xs).declarations + (style.sheet new).declarations ∧
    (∀ names, style.rootBlock names =
      ":root\x7b".toList ++ style.rootInside names ++ "\x7d".toList) ∧
    style.rootBlock (xs ++ ys) =
      ":root\x7b".toList ++ (style.rootInside xs ++ style.rootInside new) ++ "\x7d".toList := by
  intro new
  have hdeclarations := style.declarations_append xs ys
  have hrules := style.rules_append xs ys
  simp only [sheet_eq]
  refine ⟨?_, style.skipped_append xs ys, ?_, ?_, style.rootBlock_eq_rootInside, ?_⟩
  · rw [classRules_eq, hrules, List.flatMap_append]
    rfl
  · rw [hrules, List.length_append]
  · rw [hdeclarations, List.length_append]
  · rw [rootBlock_eq_rootInside, rootInside, hdeclarations, List.flatMap_append]
    rfl

/-! ## One more token -/

/-- A token behind all others changes what few bodies mean. Under the substring policy a body that
meant a token means it still. Under the exact policy it does so iff the theme does not leave the
body to the new token; if it does, the body means the new token. So the stylesheet of class names
that all meant tokens is the same, if none of their bodies is left to the new token. -/
theorem one_more_token_conservative (given : List DesignToken) (d : DesignToken)
    (theme longer : Theme) (h : Theme.ofTokens given = .ok theme)
    (hlonger : Theme.ofTokens (given ++ [d]) = .ok longer) :
    (∀ body e, theme.resolve? .substring body = some e →
      longer.resolve? .substring body = some e) ∧
    (∀ body e, theme.resolve? .exact body = some e →
      (longer.resolve? .exact body = some e ↔ ¬theme.YieldsTo d body) ∧
      (theme.YieldsTo d body → longer.resolve? .exact body = some d.normalize)) ∧
    ∀ options names,
      (∀ name ∈ names, ∀ c, ofName? name = some (.structured c) →
        (theme.resolve? options.policy c.body).isSome ∧
          (options.policy = .exact → ¬theme.YieldsTo d c.body)) →
      (Style.mk longer options).sheet names = (Style.mk theme options).sheet names := by
  have htokens := Theme.tokens_of_ofTokens_concat h hlonger
  have hyields : ∀ body, theme.YieldsTo d body → longer.resolve? .exact body = some d.normalize :=
    fun body hyields => Theme.resolve?_exact_concat_of_yieldsTo htokens
      (Theme.yieldsTo_normalize.mpr hyields)
  have hkeeps : ∀ body e, theme.resolve? .exact body = some e → ¬theme.YieldsTo d body →
      longer.resolve? .exact body = some e :=
    fun body e he hnot => Theme.resolve?_exact_concat_of_not_yieldsTo htokens
      (fun hyields => hnot (Theme.yieldsTo_normalize.mp hyields)) he
  refine ⟨fun body e => Theme.resolve?_substring_concat htokens, fun body e he => ⟨⟨?_, ?_⟩, ?_⟩, ?_⟩
  · intro hsame hyield
    have hnew := (hyields body hyield).symm.trans hsame
    cases hnew
    exact Theme.name_ne_of_concat htokens (Theme.mem_of_resolve? he) rfl
  · exact hkeeps body e he
  · exact hyields body
  · intro options names hnames
    refine sheet_eq_of_token?_eq rfl fun name hname c hc => ?_
    obtain ⟨hsome, hnot⟩ := hnames name hname c hc
    obtain ⟨e, he⟩ := Option.isSome_iff_exists.mp hsome
    have hlong : longer.resolve? options.policy c.body = some e := by
      cases hpolicy : options.policy with
      | exact =>
        rw [hpolicy] at he
        exact hkeeps c.body e he (hnot hpolicy)
      | substring =>
        rw [hpolicy] at he
        exact Theme.resolve?_substring_concat htokens he
    exact hlong.trans he.symm

/-- A token with one declared side. -/
def sided : DesignToken where
  name := "gap".toList
  property := "gap".toList
  kind := .range
  value := .text "1".toList
  directions := ["-top".toList]

/-- A token that composes the same keys as `gap` does with the side that it declares and with one
that it does not declare. -/
def lateComer : DesignToken where
  name := "ga".toList
  property := "row-gap".toList
  kind := .range
  value := .text "2".toList
  directions := ["p-top".toList, "p-left".toList]

/-- The theme of the first token, and that of both. -/
def sidedTheme : Theme := .ofNormal ([sided].map DesignToken.normalize) rfl

@[inherit_doc sidedTheme]
def longerTheme : Theme := .ofNormal ([sided, lateComer].map DesignToken.normalize) rfl

/-- The side that `gap` declares stays with it, and the side that it does not declare goes to the
token that composes it. -/
theorem one_more_token_conservative_lateComer :
    (Theme.ofTokens [sided] = .ok sidedTheme ∧
      Theme.ofTokens [sided, lateComer] = .ok longerTheme) ∧
    longerTheme.resolve? .exact "gap-top".toList = some sided.normalize ∧
    sidedTheme.resolve? .exact "gap-left".toList = some sided.normalize ∧
    longerTheme.resolve? .exact "gap-left".toList = some lateComer.normalize ∧
    longerTheme.resolve? .substring "gap-left".toList = some sided.normalize ∧
    (longerTheme.exactStyle "px".toList).sheet ["oo-gap-top_2".toList, "row".toList] =
      (sidedTheme.exactStyle "px".toList).sheet ["oo-gap-top_2".toList, "row".toList] := by
  obtain ⟨hsubstring, hexact, hsheet⟩ :=
    one_more_token_conservative [sided] lateComer sidedTheme longerTheme rfl rfl
  have htop : sidedTheme.resolve? .exact "gap-top".toList = some sided.normalize := by
    decide +kernel
  have hleft : sidedTheme.resolve? .exact "gap-left".toList = some sided.normalize := by
    decide +kernel
  have hkept : ¬sidedTheme.YieldsTo lateComer "gap-top".toList := by decide +kernel
  have hyields : sidedTheme.YieldsTo lateComer "gap-left".toList := by decide +kernel
  refine ⟨⟨rfl, rfl⟩, (hexact _ _ htop).1.mpr hkept, hleft, (hexact _ _ hleft).2 hyields, ?_, ?_⟩
  · exact hsubstring _ _ (by decide +kernel)
  · refine hsheet { unit := "px".toList } _ fun name hname c hc => ?_
    simp only [List.mem_cons, List.not_mem_nil, or_false] at hname
    rcases hname with rfl | rfl
    · have hgap : ofName? "oo-gap-top_2".toList =
          some (.structured ⟨"oo-gap-top_2".toList, "gap-top".toList, some "2".toList⟩) := by
        decide +kernel
      cases hgap.symm.trans hc
      exact ⟨Option.isSome_of_eq_some htop, fun _ => hkept⟩
    · have hrow : ofName? "row".toList = none := by decide +kernel
      cases hrow.symm.trans hc

end Style

end ClassSheet
