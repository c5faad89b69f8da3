import ClassSheet.Json.Numeral

/-!
# JSON texts as trees

A JSON text may stop making sense somewhere. The tree of such a text ends there, with a node that
says what is wrong, so that whoever reads the tree from left to right meets the first problem of
the text at the right moment.

* `Json.Problem`: the two ways in which a text is no JSON.
* `Json.Tree`, `Json.Items`, `Json.Members`: a value, the rest of a list, the rest of an object.

Values that nobody wants are skipped more leniently than others are read: a number may be out of
range, and an escaped half of a surrogate pair may stand alone. Such leaves hold `none`.
-/

namespace ClassSheet.Json

/-- Why a text is no JSON. -/
inductive Problem where
  /-- A character stands where none of its kind may. -/
  | malformed
  /-- The text ends too early. -/
  | cutOff
  deriving DecidableEq, Repr

mutual

/-- A value of a JSON text. -/
inductive Tree where
  | null
  | boolean (b : Bool)
  /-- A number, or `none` where it is out of range. -/
  | number (n? : Option Numeral)
  /-- A string, or `none` where half of a surrogate pair stands alone in it. -/
  | text (s? : Option Text)
  | list (items : Items)
  | object (members : Members)
  /-- No value begins here. -/
  | absent (problem : Problem)
  /-- The text goes wrong within a number or a word: the problem when it is read, and the one when
  it is skipped. -/
  | broken (reading skipping : Problem)
  /-- The text goes wrong within a string: the problem when it is read, and the one when it is
  skipped. -/
  | brokenText (reading skipping : Problem)

/-- What follows in a list. -/
inductive Items where
  /-- The end of the list. -/
  | closed
  /-- Neither a comma nor the end of the list. -/
  | broken (problem : Problem)
  | cons (item : Tree) (rest : Items)

/-- What follows in an object. -/
inductive Members where
  /-- The end of the object. -/
  | closed
  /-- Neither a member nor the end of the object. -/
  | broken (problem : Problem)
  /-- The text goes wrong within a name: the problem when the name is read, and the one when it is
  skipped. -/
  | brokenName (reading skipping : Problem)
  /-- No name begins where one has to stand. -/
  | unnamed (problem : Problem)
  /-- A member. The name is `none` where half of a surrogate pair stands alone in it. -/
  | cons (name? : Option Text) (value : Tree) (rest : Members)

end

end ClassSheet.Json
