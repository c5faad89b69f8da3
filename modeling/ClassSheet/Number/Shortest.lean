import ClassSheet.Number.Decimal

/-!
# The shortest decimal number that reads back

Around every finite number lie the quotients that are rounded to it. Among the decimal numbers in
that interval the ones with the fewest digits are wanted, and of those the nearest.

* `Number.Interval`: the interval, its ends counted in quarters of the smallest positive number.
* `Number.shortest`: the decimal number, with a rule for the case that two are equally near.
-/

namespace ClassSheet.Number

/-- Which of two equally near numbers is taken. -/
inductive Tie where
  /-- The one farther from zero. -/
  | away
  /-- The one whose last digit is even. -/
  | even
  deriving DecidableEq, Repr

/-- The quotients that are rounded to a number, as multiples of a quarter of the smallest positive
number. -/
structure Interval where
  low : Nat
  middle : Nat
  high : Nat
  /-- Whether the two ends belong to the interval. -/
  closed : Bool
  deriving DecidableEq, Repr

namespace Interval

/-- The interval around a finite number. Below a power of two the numbers lie twice as close. -/
def ofFinite (mantissa shift : Nat) : Interval :=
  let gap := Nat.pow 2 shift
  let below := if mantissa = Nat.pow 2 Binary64.mantissaBits ∧ shift ≠ 0 then gap else 2 * gap
  { low := 4 * mantissa * gap - below
    middle := 4 * mantissa * gap
    high := 4 * mantissa * gap + 2 * gap
    closed := mantissa % 2 = 0 }

/-- Whether the quotient `n / d` lies in the interval. -/
def holds (i : Interval) (n d : Nat) : Bool :=
  if i.closed then i.low * d ≤ n && n ≤ i.high * d
  else i.low * d < n && n < i.high * d

end Interval

/-- One in quarters of the smallest positive number. -/
def quarters : Nat := Nat.pow 2 (Binary64.smallestExponent + 2)

/-- A power of ten as a quotient, counted in quarters of the smallest positive number. -/
def tenAsRatio : Int → Nat × Nat
  | .ofNat e => (Nat.pow 10 e * quarters, 1)
  | .negSucc e => (quarters, Nat.pow 10 (e + 1))

/-- Of the two multiples of `10 ^ exponent` next to the middle of the interval, the nearer one that
lies in it. -/
def nearest? (tie : Tie) (i : Interval) (exponent : Int) : Option Nat :=
  let (n, d) := tenAsRatio exponent
  let below := i.middle * d / n
  let above := below + 1
  match i.holds (below * n) d, i.holds (above * n) d with
  | false, false => none
  | true, false => some below
  | false, true => some above
  | true, true =>
    let fromBelow := i.middle * d - below * n
    let toAbove := above * n - i.middle * d
    if fromBelow < toAbove then some below
    else if toAbove < fromBelow then some above
    else match tie with
      | .away => some above
      | .even => some (below + below % 2)

/-- An exponent such that the number `middle / quarters` is at most that power of ten. -/
def startExponent (middle : Nat) : Int :=
  if quarters ≤ middle then (Text.ofNat (middle / quarters)).length
  else 1 - ((Text.ofNat (quarters / middle)).length : Int)

/-- Tries one exponent after the other, downwards. -/
def search (tie : Tie) (i : Interval) (exponent : Int) : Nat → Nat × Int
  | 0 => (i.middle, exponent)
  | steps + 1 =>
    match nearest? tie i exponent with
    | some coefficient => (coefficient, exponent)
    | none => search tie i (exponent - 1) steps

/-- A bound on the exponents to try: no number needs more than 17 digits. -/
def searchSteps : Nat := 20

/-- The coefficient and the exponent of the shortest decimal number that reads back as the given
positive number. -/
def shortest (tie : Tie) (mantissa shift : Nat) : Nat × Int :=
  let i := Interval.ofFinite mantissa shift
  search tie i (startExponent i.middle) searchSteps

end ClassSheet.Number
