import ClassSheet.Text.Basic
import ClassSheet.Number.Binary64

/-!
# Decimal numbers

* `Number.Decimal`: a signed natural number times a power of ten.
* `Number.Decimal.ofText?`: reads an optional sign, digits with an optional point, and an optional
  exponent.
* `Number.Decimal.toBinary64`: the nearest binary number.
* `Number.ofText?`: reads a decimal number or one of the names of the infinities and of the number
  that is none.
-/

namespace ClassSheet.Number

/-- The number `coefficient * 10 ^ exponent`, with a sign. -/
structure Decimal where
  negative : Bool
  coefficient : Nat
  exponent : Int
  deriving DecidableEq, Repr

/-- The value of a digit. -/
def digitValue (c : Char) : Nat := c.toNat - '0'.toNat

/-- The natural number that a run of decimal digits denotes. -/
def ofDigits (digits : Text) : Nat := digits.foldl (fun n c => 10 * n + digitValue c) 0

/-- Splits a text behind its leading decimal digits. -/
def spanDigits (s : Text) : Text × Text := (s.takeWhile Char.isDigit, s.dropWhile Char.isDigit)

/-- Splits a sign from a text; `true` stands for a minus sign. -/
def spanSign : Text → Bool × Text
  | '+' :: s => (false, s)
  | '-' :: s => (true, s)
  | s => (false, s)

/-- The integer with the given sign. -/
def signed (negative : Bool) (n : Nat) : Int := if negative then -n else n

/-- Reads an exponent, `e` or `E` with an optional sign and at least one digit, or nothing at all,
to the end of the text. -/
def exponent? : Text → Option Int
  | [] => some 0
  | c :: s =>
    if c = 'e' ∨ c = 'E' then
      let (negative, s) := spanSign s
      match spanDigits s with
      | (_ :: _, []) => some (signed negative (ofDigits s))
      | _ => none
    else none

namespace Decimal

/-- Reads digits with an optional point, at least one digit on one side of it, and an optional
exponent. -/
def ofUnsigned? (negative : Bool) (s : Text) : Option Decimal :=
  let (whole, s) := spanDigits s
  let (fraction, s) := match s with
    | '.' :: s => spanDigits s
    | s => ([], s)
  if whole = [] ∧ fraction = [] then none
  else (exponent? s).map fun e => ⟨negative, ofDigits (whole ++ fraction), e - fraction.length⟩

/-- Reads an optional sign, digits with an optional point, and an optional exponent. -/
def ofText? (s : Text) : Option Decimal :=
  let (negative, s) := spanSign s
  ofUnsigned? negative s

/-- The place of the leading digit, counted to the left from the one right of the point. -/
def leadingPlace (d : Decimal) : Int := (Text.ofNat d.coefficient).length + d.exponent

/-- No number with its leading digit beyond this place is finite. -/
def greatestPlace : Int := 310

/-- Every number with its leading digit below this place is nearest to zero. -/
def leastPlace : Int := -330

/-- The nearest binary number. The place of the leading digit settles numbers far out of range,
whose powers of ten need not be computed. -/
def toBinary64 (d : Decimal) : Binary64 :=
  if d.coefficient = 0 ∨ d.leadingPlace < leastPlace then .zero d.negative
  else if greatestPlace < d.leadingPlace then .infinite d.negative
  else
    match d.exponent with
    | .ofNat e => .ofRatio d.negative (d.coefficient * Nat.pow 10 e) 1
    | .negSucc e => .ofRatio d.negative d.coefficient (Nat.pow 10 (e + 1))

end Decimal

/-- The names of infinity, in small letters. -/
def infinityNames : List Text := ["inf".toList, "infinity".toList]

/-- The name of the number that is none, in small letters. -/
def nanName : Text := "nan".toList

/-- Reads a number: a decimal text, or a name in letters of any size, with an optional sign. -/
def ofText? (s : Text) : Option Binary64 :=
  match Decimal.ofText? s with
  | some d => some d.toBinary64
  | none =>
    let (negative, s) := spanSign s
    let word := s.map Char.toLower
    if word ∈ infinityNames then some (.infinite negative)
    else if word = nanName then some .nan
    else none

end ClassSheet.Number
