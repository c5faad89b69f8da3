import ClassSheet.Pattern.Basic

/-!
# Escapes

What a backslash makes of the characters behind it. A character that is not a letter or a digit
stands for itself; a letter stands for a control character, for a character given by its code
point, for a set of characters, or for a place in the text.

* `Pattern.Escape`: the three kinds of meanings.
* `Pattern.readEscape`: what stands behind a backslash.
-/

namespace ClassSheet.Pattern

/-- What a backslash and the characters behind it stand for. -/
inductive Escape where
  | char (c : Char)
  /-- Any character of a set. -/
  | set
  /-- A place between characters. -/
  | place
  deriving DecidableEq, Repr

/-- The character whose code point is written with the given number of hexadecimal digits, of which
`code` has been read already. -/
def readCode (mode : Mode) (code : Nat) : Nat → Text → Option (Char × Text)
  | 0, s => if code.isValidChar then some (Char.ofNat code, s) else none
  | _ + 1, [] => none
  | digits + 1, c :: s =>
    (Text.hexValue? c).bind fun value => readCode mode (16 * code + value) digits (mode.skip s)

/-- The letters that stand for a control character. -/
def controls : List (Char × Char) :=
  [('a', '\x07'), ('f', '\x0c'), ('n', '\n'), ('r', '\r'), ('t', '\t'), ('v', '\x0b')]

/-- The letters for a code point, each with the number of its digits. Two digits make a byte rather
than a character unless the mode is `unicode`. -/
def codeLetters : List (Char × Nat) := [('x', 2), ('u', 4), ('U', 8)]

/-- The letters for digits, blanks and letters of words. -/
def setLetters : Text := "dsw".toList

/-- The letters for all characters but those. -/
def complementLetters : Text := "DSW".toList

/-- The letters for the general categories of characters. -/
def categoryLetters : Text := "CLMNPSZclmnpsz".toList

/-- The letters for the ends of the text. -/
def endLetters : Text := "Az".toList

/-- The letters and signs for the boundaries of words and for the places that are none. They are
supported for words of ASCII alone. -/
def boundaryLetters : Text := "bB<>".toList

/-- Whether a character stands for itself behind a backslash. -/
def isPlainEscape (c : Char) : Bool :=
  c.toNat < 0x80 && !c.isAlphanum && c != '<' && c != '>'

/-- What stands behind a backslash, and what follows it. -/
def readEscape (mode : Mode) : Text → Option (Escape × Text)
  | [] => none
  | c :: s =>
    if isPlainEscape c then some (.char c, s)
    else if c ∈ setLetters then some (.set, s)
    else if c ∈ complementLetters then if mode.unicode then some (.set, s) else none
    else if c ∈ endLetters then some (.place, s)
    else if c ∈ boundaryLetters then if mode.unicode then none else some (.place, s)
    else if c = 'p' ∨ c = 'P' then
      match mode.skip s with
      | [] => none
      | category :: s =>
        if mode.unicode ∧ category ∈ categoryLetters then some (.set, mode.skip s) else none
    else
      match controls.lookup c, codeLetters.lookup c with
      | some control, _ => some (.char control, s)
      | none, some digits => do
        let (coded, s) ← readCode mode 0 digits (mode.skip s)
        if c = 'x' ∧ !mode.unicode ∧ 0x80 ≤ coded.toNat then none else some (.char coded, s)
      | none, none => none

end ClassSheet.Pattern
