import ClassSheet.Text.Basic
import ClassSheet.Number.Decimal

/-!
# Utility classes

Every utility class belongs to one of two families, told apart by how its name begins.

* A structured class, `oo-<body>[_<multiplier>]`, names a design token and possibly a side of it.
* An enumerated class, `ee-<property>_<value>`, says all by itself.

Any other name is an unrelated class.
-/

namespace ClassSheet

/-- How the names of structured classes begin. -/
def structuredMark : Text := "oo-".toList

/-- How the names of enumerated classes begin. -/
def enumeratedMark : Text := "ee-".toList

/-- A class name that begins like a structured one. -/
structure StructuredClass where
  /-- The whole name. -/
  name : Text
  /-- What stands between the mark and the first underscore. -/
  body : Text
  /-- What stands between the first and the second underscore, unless it is empty. -/
  multiplier? : Option Text
  deriving DecidableEq, Repr

/-- A class name that begins like an enumerated one. -/
structure EnumeratedClass where
  /-- The whole name. -/
  name : Text
  /-- What follows the mark. -/
  body : Text
  deriving DecidableEq, Repr

/-- A utility class. -/
inductive Utility where
  | structured (c : StructuredClass)
  | enumerated (c : EnumeratedClass)
  deriving DecidableEq, Repr

namespace StructuredClass

/-- The multiplier in what follows the mark: the run between the first underscore and the next one
or the end, unless it is empty. -/
def multiplierOf? (rest : Text) : Option Text :=
  match Text.cut? '_' rest with
  | none => none
  | some (_, tail) =>
    match tail.takeWhile (· != '_') with
    | [] => none
    | m => some m

/-- The structured class of a name, given what follows the mark in it. -/
def ofRest (name rest : Text) : StructuredClass :=
  ⟨name, rest.takeWhile (· != '_'), multiplierOf? rest⟩

/-- A multiplier, where there is one, has to be the decimal text of a finite number. -/
def hasValidMultiplier (c : StructuredClass) : Bool :=
  match c.multiplier? with
  | none => true
  | some m => ((Number.ofText? m).map Number.Binary64.isFinite).getD false

end StructuredClass

/-- The property and the value of an enumerated class: the two sides of the first underscore, both
of which have to be there. -/
def EnumeratedClass.declaration? (c : EnumeratedClass) : Option (Text × Text) :=
  (Text.cut? '_' c.body).filter fun p => p.1 != [] && p.2 != []

namespace Utility

/-- Reads a class name as a utility class. -/
def ofName? (name : Text) : Option Utility :=
  match Text.after? structuredMark name with
  | some rest => some (.structured (.ofRest name rest))
  | none => (Text.after? enumeratedMark name).map fun rest => .enumerated ⟨name, rest⟩

/-- The class name that was read. -/
def name : Utility → Text
  | .structured c => c.name
  | .enumerated c => c.name

/-- A class name without the mark of its family. -/
def stripMark (name : Text) : Text :=
  ((Text.after? structuredMark name).or (Text.after? enumeratedMark name)).getD name

/-- The word for the family of a class name. -/
def familyWord (name : Text) : Text :=
  match ofName? name with
  | some (.structured _) => "structured".toList
  | some (.enumerated _) => "enumerated".toList
  | none => "other".toList

end Utility

end ClassSheet
