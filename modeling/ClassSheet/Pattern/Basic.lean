import ClassSheet.Text.Blank

/-!
# Patterns

A pattern is a regular expression. It is never matched here: all that counts is whether it is well
formed and supported. How it is read may change from place to place, and it must not be nested too
deeply.

* `Pattern.Mode`: how a pattern is read at some place.
* `Pattern.Mode.skip`: what is left of a text behind what counts for nothing.
* `Pattern.beside`: the height of things that stand beside each other.
* `Pattern.greatestHeight`: the height of the highest patterns.
-/

namespace ClassSheet.Pattern

/-- How a pattern is read at some place. -/
structure Mode where
  /-- Whether blanks count for nothing, and whether a number sign begins a comment. -/
  spaced : Bool := false
  /-- Whether sets and boundaries are about all characters. If not, they are about ASCII alone, and
  nothing may match a part of a character beyond it. -/
  unicode : Bool := true
  deriving DecidableEq, Repr

/-! ## Blanks and comments -/

/-- What is left of a text behind blanks and comments. A comment ends with its line; the text may
begin inside one. -/
def skipBlanks : (inComment : Bool) → Text → Text
  | _, [] => []
  | true, c :: s => skipBlanks (c != '\n') s
  | false, c :: s =>
    if Text.isBlank c then skipBlanks false s else if c = '#' then skipBlanks true s else c :: s

/-- The first character of a text that is no blank and not the number sign of a comment. The
characters of a comment count. -/
def firstMark? : (inComment : Bool) → Text → Option Char
  | _, [] => none
  | inComment, c :: s =>
    if Text.isBlank c then firstMark? inComment s
    else if c = '#' ∧ inComment = false then firstMark? true s
    else some c

/-- Skipping makes a text no longer. -/
theorem length_skipBlanks_le (inComment : Bool) (s : Text) :
    (skipBlanks inComment s).length ≤ s.length := by
  induction s generalizing inComment with
  | nil => simp [skipBlanks]
  | cons c s ih =>
    have shorter (inComment : Bool) : (skipBlanks inComment s).length ≤ (c :: s).length :=
      Nat.le_succ_of_le (ih inComment)
    cases inComment with
    | true => exact shorter (c != '\n')
    | false =>
      rw [skipBlanks]
      split
      · exact shorter false
      · split
        · exact shorter true
        · exact Nat.le_refl _

namespace Mode

/-- What is left of a text behind what counts for nothing. -/
def skip (mode : Mode) (s : Text) : Text := if mode.spaced then skipBlanks false s else s

/-- The character that decides about a hyphen in front of `s`: the first one, of those that count
for something if there are any. -/
def mark? (mode : Mode) (s : Text) : Option Char :=
  if mode.spaced then (firstMark? false s).or s.head? else s.head?

theorem length_skip_le (mode : Mode) (s : Text) : (mode.skip s).length ≤ s.length := by
  unfold skip
  split
  · exact length_skipBlanks_le false s
  · exact Nat.le_refl _

end Mode

/-! ## Heights -/

/-- The height of things beside each other, given their own heights: one more than that of the
highest of several, while a single one stays as it is. -/
def beside : List Nat → Nat
  | [] => 0
  | [height] => height
  | heights => heights.foldl max 0 + 1

/-- The height of the highest patterns. -/
def greatestHeight : Nat := 250

end ClassSheet.Pattern
