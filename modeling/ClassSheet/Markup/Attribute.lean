import ClassSheet.Text.Blank

/-!
# Class attributes

Markup is read as flat text. A class attribute is an attribute name, `className` or `class`, that
starts the text or follows a blank, `<` or `:`, then `=`, then a value: a run between double
quotes, between single quotes or between braces. The run is not empty and ends at the first
closing character.

* `Markup.Value`: the inside of an attribute's value.
* `Markup.attribute?`: the class attribute at the beginning of a text.
* `Markup.values`: the values of all class attributes, each one the first that begins where the
  one before it ended or later.
-/

namespace ClassSheet.Markup

/-- The inside of a class attribute's value. -/
inductive Value where
  /-- Between two quotes of the same kind. -/
  | quoted (inside : Text)
  /-- Between braces. -/
  | braced (inside : Text)
  deriving DecidableEq, Repr

/-- The names of class attributes. -/
def attributeNames : List Text := ["className".toList, "class".toList]

/-- Whether an attribute name may follow the character. -/
def isBoundary (c : Char) : Bool := Text.isBlank c || c == '<' || c == ':'

/-- The run in front of the first `close` and what follows it. The run must not be empty. -/
def enclosed? (close : Char) (s : Text) : Option (Text × Text) :=
  (Text.cut? close s).filter fun p => p.1 != []

theorem enclosed?_eq_some_iff {close : Char} {s inside rest : Text} :
    enclosed? close s = some (inside, rest) ↔
      inside ≠ [] ∧ close ∉ inside ∧ s = inside ++ close :: rest := by
  simp [enclosed?, Option.filter_eq_some_iff, Text.cut?_eq_some_iff, and_comm]

/-- The value at the beginning of a text, and what follows it. -/
def value? : Text → Option (Value × Text)
  | '"' :: s => (enclosed? '"' s).map fun p => (.quoted p.1, p.2)
  | '\'' :: s => (enclosed? '\'' s).map fun p => (.quoted p.1, p.2)
  | '{' :: s => (enclosed? '}' s).map fun p => (.braced p.1, p.2)
  | _ => none

/-- The value given to a class attribute whose name begins the text, and what follows it. -/
def assignment? (s : Text) : Option (Value × Text) :=
  attributeNames.findSome? fun name => (Text.after? (name ++ ['=']) s).bind value?

/-- The class attribute that begins the text, with the boundary character in front of its name,
and what follows it. At the start of the whole text no boundary is needed. -/
def attribute? (atStart : Bool) (s : Text) : Option (Value × Text) :=
  (if atStart then assignment? s else none).or
    (match s with
      | [] => none
      | c :: s => if isBoundary c then assignment? s else none)

theorem length_lt_of_enclosed? {close : Char} {s : Text} {p : Text × Text}
    (h : enclosed? close s = some p) : p.2.length < s.length := by
  obtain ⟨-, -, rfl⟩ := enclosed?_eq_some_iff.mp (show enclosed? close s = some (p.1, p.2) from h)
  simp
  omega

theorem length_lt_of_value? {s : Text} {p : Value × Text} (h : value? s = some p) :
    p.2.length < s.length := by
  unfold value? at h
  split at h
  case h_4 => cases h
  all_goals
    obtain ⟨q, hq, rfl⟩ := Option.map_eq_some_iff.mp h
    have := length_lt_of_enclosed? hq
    simp only [List.length_cons]
    omega

theorem length_lt_of_assignment? {s : Text} {p : Value × Text} (h : assignment? s = some p) :
    p.2.length < s.length := by
  obtain ⟨name, -, hname⟩ := List.exists_of_findSome?_eq_some h
  obtain ⟨rest, hrest, hp⟩ := Option.bind_eq_some_iff.mp hname
  have hlen := length_lt_of_value? hp
  rw [Text.after?_eq_some_iff.mp hrest]
  simp only [List.length_append]
  omega

/-- An attribute is not empty. -/
theorem length_lt_of_attribute? {atStart : Bool} {s : Text} {p : Value × Text}
    (h : attribute? atStart s = some p) : p.2.length < s.length := by
  rcases Option.or_eq_some_iff.mp h with h | ⟨-, h⟩
  · split at h
    · exact length_lt_of_assignment? h
    · cases h
  · split at h
    · cases h
    · split at h
      · have := length_lt_of_assignment? h
        simp only [List.length_cons]
        omega
      · cases h

/-- The values of the class attributes of what is left of a text. -/
def valuesFrom (atStart : Bool) (s : Text) : List Value :=
  match h : attribute? atStart s with
  | some (value, rest) =>
    have := length_lt_of_attribute? h
    value :: valuesFrom false rest
  | none =>
    match s with
    | [] => []
    | _ :: s => valuesFrom false s
termination_by s.length

/-- The values of the class attributes of a text, in order. -/
def values (text : Text) : List Value := valuesFrom true text

end ClassSheet.Markup
