import ClassSheet.Json.Literal

/-!
# Reading JSON texts

* `Json.skipBlanks`: what follows the blanks of JSON, which are four characters only.
* `Json.readTree`: the value at the beginning of a text, and what follows it.
* `Json.Document`: the value of a whole text, and whether anything but blanks follows it.

The functions count down a number that is greater than the length of the text, so it does not run
out.
-/

namespace ClassSheet.Json

/-- Whether a character may stand between any two parts of a JSON text. -/
def isJsonBlank (c : Char) : Bool := c == ' ' || c == '\t' || c == '\n' || c == '\r'

/-- What follows the blanks at the beginning of a text. -/
def skipBlanks (s : Text) : Text := s.dropWhile isJsonBlank

/-- The rest of a word and what follows it. -/
def readWord (rest : Text) (value : Tree) (s : Text) : Tree × Text :=
  match Text.after? rest s with
  | some s => (value, s)
  | none =>
    let problem := if s.isPrefixOf rest then Problem.cutOff else .malformed
    (.broken problem problem, [])

mutual

/-- The value at the beginning of a text without leading blanks, and what follows it. -/
def readTree : Nat → Text → Tree × Text
  | 0, _ => (.absent .malformed, [])
  | n + 1, s =>
    match s with
    | [] => (.absent .cutOff, [])
    | 'n' :: s => readWord "ull".toList .null s
    | 't' :: s => readWord "rue".toList (.boolean true) s
    | 'f' :: s => readWord "alse".toList (.boolean false) s
    | '"' :: s =>
      match readString s with
      | (.ok s?, rest) => (.text s?, rest)
      | (.error (reading, skipping), rest) => (.brokenText reading skipping, rest)
    | '[' :: s =>
      let (items, rest) := readItems n (skipBlanks s)
      (.list items, rest)
    | '{' :: s =>
      let (members, rest) := readMembers n (skipBlanks s)
      (.object members, rest)
    | c :: s =>
      if c == '-' || c.isDigit then readNumber (c :: s)
      else (.absent .malformed, [])

/-- What follows the opening bracket of a list. -/
def readItems : Nat → Text → Items × Text
  | 0, _ => (.broken .malformed, [])
  | n + 1, s =>
    match s with
    | [] => (.broken .cutOff, [])
    | ']' :: s => (.closed, s)
    | s => readItem n s

/-- An item of a list, and what follows it in the list. -/
def readItem : Nat → Text → Items × Text
  | 0, _ => (.broken .malformed, [])
  | n + 1, s =>
    let (item, s) := readTree n s
    let (items, rest) := readMoreItems n (skipBlanks s)
    (.cons item items, rest)

/-- What follows an item of a list. -/
def readMoreItems : Nat → Text → Items × Text
  | 0, _ => (.broken .malformed, [])
  | n + 1, s =>
    match s with
    | [] => (.broken .cutOff, [])
    | ']' :: s => (.closed, s)
    | ',' :: s => readItem n (skipBlanks s)
    | _ => (.broken .malformed, [])

/-- What follows the opening brace of an object. -/
def readMembers : Nat → Text → Members × Text
  | 0, _ => (.broken .malformed, [])
  | n + 1, s =>
    match s with
    | [] => (.broken .cutOff, [])
    | '}' :: s => (.closed, s)
    | s => readMember n s

/-- A member of an object, and what follows it in the object. -/
def readMember : Nat → Text → Members × Text
  | 0, _ => (.broken .malformed, [])
  | n + 1, s =>
    match s with
    | [] => (.unnamed .cutOff, [])
    | '"' :: s =>
      match readString s with
      | (.error (reading, skipping), rest) => (.brokenName reading skipping, rest)
      | (.ok name?, s) =>
        let (value, s) := readMemberValue n (skipBlanks s)
        let (members, rest) := readMoreMembers n (skipBlanks s)
        (.cons name? value members, rest)
    | _ => (.unnamed .malformed, [])

/-- The colon and the value that follow the name of a member. -/
def readMemberValue : Nat → Text → Tree × Text
  | 0, _ => (.absent .malformed, [])
  | n + 1, s =>
    match s with
    | [] => (.absent .cutOff, [])
    | ':' :: s => readTree n (skipBlanks s)
    | _ => (.absent .malformed, [])

/-- What follows a member of an object. -/
def readMoreMembers : Nat → Text → Members × Text
  | 0, _ => (.broken .malformed, [])
  | n + 1, s =>
    match s with
    | [] => (.broken .cutOff, [])
    | '}' :: s => (.closed, s)
    | ',' :: s => readMember n (skipBlanks s)
    | _ => (.broken .malformed, [])

end

/-- A whole JSON text. -/
structure Document where
  tree : Tree
  /-- Whether anything but blanks follows the value. -/
  trailing : Bool

/-- Reads a whole text. Each character takes at most three steps. -/
def Document.ofText (s : Text) : Document :=
  let (tree, rest) := readTree (3 * s.length + 3) (skipBlanks s)
  ⟨tree, !(skipBlanks rest).isEmpty⟩

end ClassSheet.Json
