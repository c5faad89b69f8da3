import ClassSheet.Sheet.Basic

/-!
# A stylesheet as a list of declarations and a list of rules

The stylesheet is written from the last class name to the first, with its counts. Here it is an
equation between its text and two lists of data, each read off the distinct class names in order.

* `Style.declarations`, `Style.rules`, `Style.skipped`: what the class names bring.
* `Declaration.block`: the text of a root block.
* `Style.countedRootBlock_eq`, `Style.sheet_eq`: the text is that of the two lists, and the counts
  are their lengths.
-/

namespace ClassSheet

/-- The root block with the given declarations. -/
def Declaration.block (declarations : List Declaration) : Text :=
  ":root\x7b".toList ++ (declarations.flatMap Declaration.write ++ "\x7d".toList)

namespace Style

variable (style : Style) (names : List Text)

/-- The declarations of the root block, in order. -/
def declarations : List Declaration := names.eraseDups.filterMap style.declarationOf?

/-- The rules of the stylesheet, in order. -/
def rules : List Rule := names.eraseDups.filterMap style.rule?

/-- The utility classes without a rule, in order. -/
def skipped : List Text :=
  names.eraseDups.filter fun name => (style.rule? name).isNone && (Utility.ofName? name).isSome

/-- One pass over the names writes their declarations and counts them. -/
theorem foldr_declare (inside : Text × Nat) :
    names.foldr style.declare inside =
      ((names.filterMap style.declarationOf?).flatMap Declaration.write ++ inside.1,
        (names.filterMap style.declarationOf?).length + inside.2) := by
  induction names with
  | nil => simp
  | cons name names ih =>
    rw [List.foldr_cons, ih, List.filterMap_cons, declare]
    cases style.declarationOf? name with
    | none => rfl
    | some d =>
      simp only [List.flatMap_cons, List.append_assoc, List.length_cons, Prod.mk.injEq, true_and]
      omega

theorem countedRootBlock_eq :
    style.countedRootBlock names =
      (Declaration.block (style.declarations names), (style.declarations names).length) := by
  unfold countedRootBlock
  rw [foldr_declare]
  rfl

/-- One pass over the names puts what they bring in front of a stylesheet. -/
theorem foldr_extend (sheet : Sheet) :
    names.foldr style.extend sheet =
      { css := (names.filterMap style.rule?).flatMap Rule.write ++ sheet.css
        declarations := sheet.declarations
        rules := (names.filterMap style.rule?).length + sheet.rules
        skipped :=
          names.filter (fun name =>
            (style.rule? name).isNone && (Utility.ofName? name).isSome) ++ sheet.skipped } := by
  induction names with
  | nil => simp
  | cons name names ih =>
    rw [List.foldr_cons, ih, List.filterMap_cons, List.filter_cons, extend]
    cases style.rule? name with
    | some rule =>
      simp only [List.flatMap_cons, List.append_assoc, List.length_cons, Option.isNone_some,
        Bool.false_and, Bool.false_eq_true, ↓reduceIte, Sheet.mk.injEq, and_true, true_and]
      omega
    | none =>
      by_cases hutility : (Utility.ofName? name).isSome
      · simp [hutility]
      · simp [hutility]

/-- The text of a stylesheet is that of its declarations and rules, and the counts are their
numbers. -/
theorem sheet_eq :
    style.sheet names =
      { css := Declaration.block (style.declarations names) ++
          (style.rules names).flatMap Rule.write
        declarations := (style.declarations names).length
        rules := (style.rules names).length
        skipped := style.skipped names } := by
  unfold sheet
  rw [countedRootBlock_eq]
  dsimp only
  rw [foldr_extend, List.append_nil, List.append_nil]
  rfl

end Style

end ClassSheet
