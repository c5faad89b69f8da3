import ClassSheet.Markup.Attribute

/-!
# The class names of a text

A quoted value is a list of words. A value between braces is an expression in some other
language: every quoted run in it is a list of words, and every bare identifier is one.

* `Markup.pieces`: the quoted runs and bare identifiers of an expression, in order.
* `Markup.occurrences`: every class name of a text as often as it occurs.
* `Markup.classNames`: the same without repeats, each name where it occurs first.
-/

namespace ClassSheet.Markup

/-- The characters that open or close a quoted run, whichever of them the other end is. -/
def isQuote (c : Char) : Bool := c == '"' || c == '\'' || c == '\x60'

/-- The characters of bare identifiers. -/
def isIdentifier (c : Char) : Bool := c.isAlphanum || c == '_' || c == '-'

/-- The quoted runs and bare identifiers of an expression. A quote with another one right behind
it, or with none after it, opens nothing. -/
def pieces : Text → List Text
  | [] => []
  | c :: s =>
    if isQuote c then
      match s.takeWhile (!isQuote ·), h : s.dropWhile (!isQuote ·) with
      | d :: run, _ :: rest =>
        have : rest.length < s.length := by
          have := (List.dropWhile_sublist (!isQuote ·) (l := s)).length_le
          rw [h] at this
          exact this
        (d :: run) :: pieces rest
      | _, _ => pieces s
    else if isIdentifier c then
      have := (List.dropWhile_sublist isIdentifier (l := s)).length_le
      (c :: s.takeWhile isIdentifier) :: pieces (s.dropWhile isIdentifier)
    else pieces s
termination_by s => s.length

/-- The class names in a class attribute's value. -/
def Value.classNames : Value → List Text
  | .quoted inside => Text.words inside
  | .braced inside => (pieces inside).flatMap Text.words

/-- Every class name of a text, in order, as often as it occurs. -/
def occurrences (text : Text) : List Text := (values text).flatMap Value.classNames

/-- The class names of a text in the order of their first occurrences. -/
def classNames (text : Text) : List Text := (occurrences text).eraseDups

end ClassSheet.Markup
