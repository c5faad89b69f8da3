import ClassSheet.Number.Shortest

/-!
# How numbers are written

* `Number.Layout`: when a number is written with an exponent and how, whether a whole number keeps
  a point, and which of two equally near numbers is written.
* `Number.Layout.plain`: stylesheets hold numbers without exponents and without needless points.
* `Number.Layout.marked`: messages show a floating-point number as such.
-/

namespace ClassSheet.Number

/-- The decisions in writing a number with its shortest digits. -/
structure Layout where
  /-- Which of two equally near decimal numbers is written. -/
  tie : Tie
  /-- The exponents of the leading digit for which there is no exponent in the text; no bounds for
  none. -/
  positional? : Option (Int × Int)
  /-- Whether a whole number without exponent is written with `.0`. -/
  keepPoint : Bool
  /-- Whether an exponent that is not negative is written with a plus sign. -/
  plusSign : Bool
  deriving DecidableEq, Repr

namespace Layout

/-- No exponent ever, no point in whole numbers, ties away from zero. -/
def plain : Layout := ⟨.away, none, false, false⟩

/-- A point or an exponent always, an exponent with its sign from `10 ^ 16` on and below
`10 ^ (-5)`, ties to the even digit. -/
def marked : Layout := ⟨.even, some (-5, 15), true, true⟩

/-- Digits with a point behind the first `place` ones. -/
def positional (l : Layout) (digits : Text) (place : Int) : Text :=
  if place ≤ 0 then "0.".toList ++ List.replicate (-place).toNat '0' ++ digits
  else if digits.length ≤ place.toNat then
    digits ++ List.replicate (place.toNat - digits.length) '0' ++
      (if l.keepPoint then ".0".toList else [])
  else digits.take place.toNat ++ '.' :: digits.drop place.toNat

/-- Digits with a point behind the first one, and an exponent. -/
def scientific (l : Layout) (digits : Text) (exponent : Int) : Text :=
  let tail := digits.drop 1
  digits.take 1 ++ (if tail = [] then [] else '.' :: tail) ++
    'e' :: (if l.plusSign ∧ 0 ≤ exponent then ['+'] else []) ++ Text.ofInt exponent

/-- The text of a finite number without its sign. -/
def magnitude (l : Layout) (mantissa shift : Nat) : Text :=
  if mantissa = 0 then '0' :: if l.keepPoint then ".0".toList else []
  else
    let (coefficient, exponent) := shortest l.tie mantissa shift
    let digits := Text.ofNat coefficient
    let place := digits.length + exponent
    match l.positional? with
    | none => l.positional digits place
    | some (least, greatest) =>
      if least ≤ place - 1 ∧ place - 1 ≤ greatest then l.positional digits place
      else l.scientific digits (place - 1)

/-- The text of a number. -/
def write (l : Layout) : Binary64 → Text
  | .nan => "NaN".toList
  | .infinite negative => (if negative then ['-'] else []) ++ "inf".toList
  | .finite negative mantissa shift =>
    (if negative then ['-'] else []) ++ l.magnitude mantissa shift

end Layout

end ClassSheet.Number
