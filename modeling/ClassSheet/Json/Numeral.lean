import ClassSheet.Number.Decimal
import ClassSheet.Number.Scaled

/-!
# Numbers in JSON texts

The digits of a number are taken into a significand as long as it has room for them. A number that
is written without point and exponent, and whose digits all have room, is whole. Any other one is
the significand times a power of ten, computed in steps.

* `Json.Numeral`: a number that is whole and of at most 64 bits, or a floating-point number.
* `Json.takeDigits`: a significand with as many more digits as it has room for.
* `Json.Numeral.ofWhole?`, `Json.Numeral.ofParts?`: the numbers of the two ways of writing.
-/

namespace ClassSheet.Json

open Number (Binary64 Decimal digitValue)

/-- A number. -/
inductive Numeral where
  /-- Written without point and exponent, and within the range of a 64-bit integer. -/
  | integer (n : Int)
  | floating (x : Binary64)
  deriving DecidableEq, Repr

/-- The first number that a significand has no room for. -/
def significandBound : Nat := Nat.pow 2 64

/-- The significand with as many of the digits behind it as it has room for, and the digits that
are left over. -/
def takeDigits (significand : Nat) : Text → Nat × Text
  | [] => (significand, [])
  | c :: digits =>
    let next := 10 * significand + digitValue c
    if next < significandBound then takeDigits next digits else (significand, c :: digits)

namespace Numeral

/-- The number `significand * 10 ^ exponent`, unless it is too large. -/
def ofScaled? (negative : Bool) (significand : Nat) (exponent : Int) : Option Numeral :=
  (Number.scaled? negative significand exponent).map .floating

/-- The number with the given whole digits, a fraction, and an exponent, unless it is too large. The
digits of the fraction are taken as far as there is room behind those of the whole; every whole
digit left over counts for a factor of ten, and the fraction's are dropped. -/
def ofParts? (negative : Bool) (whole fraction : Text) (exponent : Int) : Option Numeral :=
  let (significand, wholeLeft) := takeDigits 0 whole
  let (significand, fractionLeft) := takeDigits significand fraction
  let places : Int := fraction.length - fractionLeft.length
  ofScaled? negative significand (wholeLeft.length - places + exponent)

/-- The number with the given whole digits and nothing else. It is an integer if it has 64 bits,
with the sign if there is one; a negative zero is no integer. -/
def ofWhole? (negative : Bool) (whole : Text) : Option Numeral :=
  match takeDigits 0 whole with
  | (n, []) =>
    if !negative then some (.integer n)
    else if 0 < n ∧ n ≤ Nat.pow 2 63 then some (.integer (-n))
    else ofScaled? negative n 0
  | _ => ofParts? negative whole [] 0

/-- The nearest floating-point number. -/
def toBinary64 : Numeral → Binary64
  | .integer n => (Decimal.mk (n < 0) n.natAbs 0).toBinary64
  | .floating x => x

end Numeral

end ClassSheet.Json
