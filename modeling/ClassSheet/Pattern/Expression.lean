import ClassSheet.Pattern.Brackets
import ClassSheet.Pattern.Group

/-!
# Whole patterns

A pattern is one or more branches between bars, each a sequence of parts: characters, escapes,
sets, groups with branches of their own, and any of them repeated. A part that is repeated or in
parentheses is higher by one; so are several parts, and several branches.

* `Pattern.OpenGroup`: what has been read of a group.
* `Pattern.height?`: the height of a pattern.
* `Pattern.isPattern`: whether a text is a pattern that is not too high.
-/

namespace ClassSheet.Pattern

/-- A part of a sequence. -/
structure Part where
  height : Nat := 0
  /-- Whether it may be repeated; flags may not. -/
  repeatable : Bool := true
  deriving DecidableEq, Repr

/-- What has been read of a group that is not closed yet, or of the whole pattern. -/
structure OpenGroup where
  /-- The parts of the last branch, the last one first. -/
  parts : List Part := []
  /-- The heights of the branches before. -/
  branches : List Nat := []
  mode : Mode
  deriving DecidableEq, Repr

namespace OpenGroup

/-- The height of the last branch. -/
def branchHeight (group : OpenGroup) : Nat := beside (group.parts.map Part.height)

/-- The height of all branches. -/
def height (group : OpenGroup) : Nat := beside (group.branchHeight :: group.branches)

/-- The group with one more part. -/
def add (group : OpenGroup) (part : Part) : OpenGroup :=
  { group with parts := part :: group.parts }

/-- The group with one more branch, which is empty. -/
def branch (group : OpenGroup) : OpenGroup :=
  { group with parts := [], branches := group.branchHeight :: group.branches }

/-- The group with its last part repeated. -/
def repeat? (group : OpenGroup) : Option OpenGroup :=
  match group.parts with
  | [] => none
  | part :: parts =>
    if part.repeatable then
      some { group with parts := { part with height := part.height + 1 } :: parts }
    else none

end OpenGroup

/-- What follows the sign of a repetition: a question mark behind it asks for few of them. -/
def skipLazy : Text → Text
  | '?' :: s => s
  | s => s

/-- Reads the rest of a pattern inside of groups, the innermost of them first, with the names of
the groups so far, and gives the height of the whole. Every step takes at least one character, so
that a number above the length of the text is enough to count them down. Braces would count
repetitions, but no pattern has a closing one behind an opening one: the braces around the field
it belongs to end there. -/
def readRest :
    Nat → (names : List Text) → (outer : List OpenGroup) → OpenGroup → Text → Option Nat
  | 0, _, _, _, _ => none
  | n + 1, names, outer, group, s =>
    match group.mode.skip s with
    | [] => if outer = [] then some group.height else none
    | '(' :: s => do
      match ← readOpening? group.mode s with
      | (.flags mode, s) =>
        readRest n names outer { group.add { repeatable := false } with mode } s
      | (.group none mode, s) => readRest n names (group :: outer) { mode } s
      | (.group (some name) mode, s) =>
        if name ∈ names then none else readRest n (name :: names) (group :: outer) { mode } s
    | ')' :: s =>
      match outer with
      | [] => none
      | up :: outer => readRest n names outer (up.add { height := group.height + 1 }) s
    | '|' :: s => readRest n names outer group.branch s
    | '[' :: s => do
      let (height, s) ← readBrackets group.mode s
      readRest n names outer (group.add { height }) s
    | '{' :: _ => none
    | '?' :: s | '*' :: s | '+' :: s => do
      let group ← group.repeat?
      readRest n names outer group (skipLazy s)
    | '\\' :: s => do
      let (_, s) ← readEscape group.mode s
      readRest n names outer (group.add {}) s
    | '.' :: s => if group.mode.unicode then readRest n names outer (group.add {}) s else none
    | _ :: s => readRest n names outer (group.add {}) s

/-- The height of a pattern; `none` if the text is no pattern. -/
def height? (s : Text) : Option Nat := readRest (s.length + 1) [] [] { mode := {} } s

/-- Whether a text is a pattern that is not too high. -/
def isPattern (s : Text) : Bool := (height? s).any (· ≤ greatestHeight)

end ClassSheet.Pattern
