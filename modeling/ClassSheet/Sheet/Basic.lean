import ClassSheet.Sheet.Rule
import ClassSheet.Markup.ClassNames

/-!
# Stylesheets

A stylesheet is one root block with the declarations of all structured classes, followed by one
rule for each class that has one, in the order of the class names. Repeated names count once.

* `Sheet`: the text, the number of declarations and of rules, and the utility classes without one.
* `Style.sheet`: the stylesheet of a list of class names, in one pass over it for the root block
  and one for the rules.
* `Style.rootBlock`, `Style.classRules`: the two parts of the text.
* `Style.synthesize`: the text for the class names of a piece of markup.
-/

namespace ClassSheet

/-- A stylesheet with an account of what it holds. -/
structure Sheet where
  css : Text
  /-- How many custom properties the root block declares. -/
  declarations : Nat
  /-- How many class names have a rule. -/
  rules : Nat
  /-- The utility classes that have no rule. -/
  skipped : List Text
  deriving DecidableEq, Repr

namespace Style

/-- The declaration that a class name asks for. -/
def declarationOf? (style : Style) (name : Text) : Option Declaration :=
  match Utility.ofName? name with
  | some (.structured c) => style.declaration? c
  | _ => none

/-- Puts the declaration that a class name asks for in front of the inside of a root block, and
counts it. -/
def declare (style : Style) (name : Text) (inside : Text × Nat) : Text × Nat :=
  match style.declarationOf? name with
  | some d => (d.write ++ inside.1, inside.2 + 1)
  | none => inside

/-- The root block and the number of its declarations. -/
def countedRootBlock (style : Style) (names : List Text) : Text × Nat :=
  let inside := names.eraseDups.foldr style.declare ("\x7d".toList, 0)
  (":root\x7b".toList ++ inside.1, inside.2)

/-- The root block with the declarations of the structured classes. -/
def rootBlock (style : Style) (names : List Text) : Text := (style.countedRootBlock names).1

/-- The rules of the class names. -/
def classRules (style : Style) (names : List Text) : Text :=
  (names.eraseDups.filterMap style.rule?).flatMap Rule.write

/-- Puts what a class name brings in front of a stylesheet: its rule, or an entry among the skipped
ones if it is a utility class. -/
def extend (style : Style) (name : Text) (sheet : Sheet) : Sheet :=
  match style.rule? name with
  | some rule => { sheet with css := rule.write ++ sheet.css, rules := sheet.rules + 1 }
  | none =>
    if (Utility.ofName? name).isSome then { sheet with skipped := name :: sheet.skipped }
    else sheet

/-- The stylesheet of a list of class names. -/
def sheet (style : Style) (names : List Text) : Sheet :=
  let (css, declarations) := style.countedRootBlock names
  let body := names.eraseDups.foldr style.extend ⟨[], declarations, 0, []⟩
  { body with css := css ++ body.css }

/-- The text of the stylesheet of a list of class names. -/
def stylesheet (style : Style) (names : List Text) : Text := (style.sheet names).css

/-- The stylesheet for the class names of a piece of markup. -/
def synthesize (style : Style) (markup : Text) : Text :=
  style.stylesheet (Markup.classNames markup)

end Style

end ClassSheet
