import ClassSheet.Journal.Event
import ClassSheet.Pattern.Expression
import ClassSheet.Text.Blank

/-!
# Directives for the log

A directive is a level for the events it speaks about. These may be all events, those of the parts
of the program whose names begin in some way, or those with some field; the name of a part is
followed by brackets with the field in braces. The brackets may also name a section of a run that
the events have to lie in, and the braces a value of the field in such a section. The program has
no sections, so that such a directive is about no event, but it has to be complete.

* `Journal.Directive`: a level for some events.
* `Journal.Directive.ofText?`: reads a directive.
* `Journal.Directive.covers`: whether a directive speaks about an event.
* `Journal.Directive.le`: which of two directives is the more special one.
-/

namespace ClassSheet.Journal

namespace Level

/-- The level of a number. -/
def ofNumeral? (s : Text) : Option Level :=
  let digits := match s with
    | '+' :: digits => digits
    | digits => digits
  if digits ≠ [] ∧ digits.all Char.isDigit then all[Number.ofDigits digits]? else none

/-- The level of a number or of a name in letters of any size. -/
def ofText? (s : Text) : Option Level :=
  (ofNumeral? s).or (all.find? fun level => level.name == s.map Char.toUpper)

end Level

/-- A level for some events. -/
structure Directive where
  /-- How the names of the parts of the program begin; `none` for all parts. -/
  target? : Option Text := none
  /-- A field that the events have; `none` for any fields. -/
  field? : Option Text := none
  /-- Whether the events lie in a section of the run. -/
  inSection : Bool := false
  level : Level
  deriving DecidableEq, Repr

namespace Directive

/-! ## Reading

Blanks around a directive are passed over when its parts are looked for. The parts themselves are
taken from the text with the blanks, at the places that were found in the one without them: blanks
at the beginning move every part towards the beginning, and blanks at the end belong to the level.
So a directive with a level has to begin and end without blanks, and one that names something finds
no event behind them. -/

/-- Whether a directive may begin with a character. -/
def mayBegin (c : Char) : Bool := c ∈ "-:_".toList || Text.isAlphanumeric c

/-- A text without the blanks around it. -/
def trim (s : Text) : Text :=
  ((s.dropWhile Text.isBlank).reverse.dropWhile Text.isBlank).reverse

/-- What of `s` begins at the place where `rest` begins in `whole`, which ends with it. Places are
counted in bytes. -/
def fromPlace (s whole rest : Text) : Text := s.dropBytes (whole.byteLength - rest.byteLength)

/-- The part of `s` at the place where `rest` begins in `whole`, as long as `part`. -/
def partAt (s whole rest part : Text) : Text :=
  (fromPlace s whole rest).takeBytes part.byteLength

/-- Reads what stands behind all brackets: nothing, or a level behind `=`, which may be empty. -/
def readLevel (d : Directive) (s whole : Text) : Text → Option Directive
  | [] => some d
  | '=' :: rest =>
    match fromPlace s whole rest with
    | [] => some d
    | level => (Level.ofText? level).map fun level => { d with level }
  | _ => none

/-- Whether a text may be the value of a field. -/
def isValue (s : Text) : Bool := (Number.ofText? s).isSome || Pattern.isPattern s

/-- Reads a field and what follows it, from behind the opening brace. The value of a field stands
behind `=` and ends at the next one. -/
def readField (d : Directive) (s whole rest : Text) : Option Directive :=
  let (field, behind) := rest.span (· != '}')
  match behind with
  | _ :: ']' :: behind =>
    if field = [] then none
    else
      let field := partAt s whole rest field
      match Text.cut? '=' field with
      | none => readLevel { d with field? := some field } s whole behind
      | some (name, value) =>
        if isValue (value.takeWhile (· != '=')) then
          readLevel { d with field? := some name, inSection := true } s whole behind
        else none
  | _ => none

/-- Reads the name of a section or a field and what follows, from behind the opening bracket. -/
def readBrackets (d : Directive) (s whole rest : Text) : Option Directive :=
  let (name, behind) := rest.span fun c => c != ']' && c != '{'
  match behind with
  | ']' :: behind => readLevel { d with inSection := true } s whole behind
  | _ :: behind => readField { d with inSection := name != [] } s whole behind
  | [] => none

/-- The directive of a single word: a level for everything, or the name of some parts. -/
def ofWord (word : Text) : Directive :=
  match Level.ofText? word with
  | some level => { level }
  | none => { target? := some word, level := .trace }

/-- Reads a directive. -/
def ofText? (s : Text) : Option Directive :=
  let whole := trim s
  match whole with
  | [] => none
  | '[' :: rest => readBrackets { level := .trace } s whole rest
  | c :: _ =>
    if mayBegin c then
      let (word, rest) := whole.span fun c => c != '=' && c != '['
      let d : Directive := { target? := some (partAt s whole whole word), level := .trace }
      match rest with
      | [] => some (ofWord s)
      | '[' :: rest => readBrackets d s whole rest
      | rest => readLevel d s whole rest
    else none

/-! ## Meaning -/

/-- Whether a directive speaks about an event. -/
def covers (d : Directive) (e : Event) : Bool :=
  !d.inSection && d.target?.all (·.isPrefixOf e.target) && d.field?.all e.hasField

/-- The length of the name in a directive; a directive without a name comes before all others. -/
def reach (d : Directive) : Nat :=
  match d.target? with
  | none => 0
  | some start => start.length + 1

/-- Whether the second of two directives for an event is at least as special as the first: its name
is longer, or as long and its field comes later in the order of characters. No field comes before
all fields. -/
def le (d₁ d₂ : Directive) : Bool :=
  d₁.reach < d₂.reach || d₁.reach == d₂.reach &&
    match d₁.field?, d₂.field? with
    | none, _ => true
    | some _, none => false
    | some f₁, some f₂ => (compare f₁ f₂).isLE

end Directive

end ClassSheet.Journal
