import ClassSheet.Pattern.Escape

/-!
# Sets in brackets

A set lists characters, ranges, and other sets. Inside of it two ampersands, hyphens or tildes are
an operator, whose operands are what stands on both sides of it up to the next operator or bracket.

* `Pattern.OpenSet`: what has been read of a set.
* `Pattern.readRange`: a character, a set given by an escape, or a range.
* `Pattern.readNamed?`: a set of ASCII given by its name.
* `Pattern.readBrackets`: a whole set.
-/

namespace ClassSheet.Pattern

/-! ## Items -/

/-- An item of a set, and what follows it: a single character, or `none` for a set given by an
escape. Characters beyond ASCII are no items unless the mode is `unicode`. -/
def readItem (mode : Mode) : Text → Option (Option Char × Text)
  | [] => none
  | '\\' :: s =>
    match readEscape mode s with
    | some (.char c, s) => if mode.unicode ∨ c.toNat < 0x80 then some (some c, s) else none
    | some (.set, s) => some (none, s)
    | _ => none
  | c :: s => if mode.unicode ∨ c.toNat < 0x80 then some (some c, s) else none

/-- What follows an item of a set, or a range between two characters. A hyphen in front of a bracket
or of another hyphen makes no range. -/
def readRange (mode : Mode) (s : Text) : Option Text := do
  let (first?, s) ← readItem mode s
  match mode.skip s with
  | '-' :: s =>
    if mode.mark? s = some ']' ∨ mode.mark? s = some '-' then some ('-' :: s)
    else
      let (last?, s) ← readItem mode (mode.skip s)
      match first?, last? with
      | some first, some last => if first ≤ last then some s else none
      | _, _ => none
  | s => some s

/-- The names of sets of ASCII. -/
def setNames : List Text :=
  ["alnum", "alpha", "ascii", "blank", "cntrl", "digit", "graph", "lower", "print", "punct",
    "space", "upper", "word", "xdigit"].map String.toList

/-- Reads the name of a set between colons from behind its opening bracket: whether a caret in
front of it asks for all other characters, and what follows the closing bracket. -/
def readNamed? : Text → Option (Bool × Text)
  | ':' :: s =>
    let (negated, s) := match s with
      | '^' :: s => (true, s)
      | s => (false, s)
    match Text.cut? ':' s with
    | some (name, ']' :: s) => if name ∈ setNames then some (negated, s) else none
    | _ => none
  | _ => none

/-! ## Nested sets -/

/-- What has been read of a set that is not closed yet. -/
structure OpenSet where
  /-- The heights of the items behind the last operator. -/
  items : List Nat := []
  /-- The height of what stands in front of it, if there is an operator. -/
  left? : Option Nat := none
  deriving DecidableEq, Repr

namespace OpenSet

/-- The height of what has been read: an operator stands above both of its operands. -/
def height (set : OpenSet) : Nat := beside (beside set.items :: set.left?.toList)

/-- The set with one more item. -/
def add (set : OpenSet) (height : Nat) : OpenSet := { set with items := height :: set.items }

/-- The set behind one more operator. -/
def operator (set : OpenSet) : OpenSet := { left? := some set.height }

end OpenSet

/-- The number of hyphens at the beginning of a text, and what follows them. -/
def readHyphens (mode : Mode) : Text → Nat × Text
  | '-' :: s =>
    let (n, s) := readHyphens mode (mode.skip s)
    (n + 1, s)
  | s => (0, s)
termination_by s => s.length
decreasing_by exact Nat.lt_succ_of_le (mode.length_skip_le s)

/-- Reads what follows the opening bracket of a set: a caret, hyphens that stand for themselves, and
a closing bracket that does so since it comes first. All characters but some of ASCII are supported
only if the mode is `unicode`. -/
def readOpening (mode : Mode) (s : Text) : Option (OpenSet × Text) :=
  match mode.skip s with
  | '^' :: s => if mode.unicode then some (first (mode.skip s)) else none
  | s => some (first s)
where
  /-- The items that come first. -/
  first (s : Text) : OpenSet × Text :=
    match readHyphens mode s with
    | (0, ']' :: s) => ({ items := [0] }, s)
    | (hyphens, s) => ({ items := List.replicate hyphens 0 }, s)

/-- Reads the rest of a set inside of others, the innermost of them first: the height of the
outermost one, and what follows it. Every step takes at least one character, so that a number above
the length of the text is enough to count them down. -/
def readSet (mode : Mode) : Nat → (outer : List OpenSet) → OpenSet → Text → Option (Nat × Text)
  | 0, _, _, _ => none
  | n + 1, outer, set, s =>
    match mode.skip s with
    | [] => none
    | ']' :: s =>
      match outer with
      | [] => some (set.height + 1, s)
      | up :: outer => readSet mode n outer (up.add (set.height + 1)) s
    | '[' :: s =>
      match readNamed? s with
      | some (negated, s) =>
        if negated ∧ !mode.unicode then none else readSet mode n outer (set.add 0) s
      | none => do
        let (inner, s) ← readOpening mode s
        readSet mode n (set :: outer) inner s
    | '&' :: '&' :: s | '-' :: '-' :: s | '~' :: '~' :: s => readSet mode n outer set.operator s
    | s => (readRange mode s).bind (readSet mode n outer (set.add 0))

/-- Reads a set from behind its opening bracket: its height, and what follows it. -/
def readBrackets (mode : Mode) (s : Text) : Option (Nat × Text) := do
  let (set, s) ← readOpening mode s
  readSet mode (s.length + 1) [] set s

end ClassSheet.Pattern
