/-!
# Binary floating-point numbers of 64 bits

A finite number is a mantissa of at most 53 bits, scaled by a power of two. All scales are counted
from the smallest positive number, `2 ^ (-1074)`, so that no negative exponent is needed.

* `Number.Binary64`: finite numbers with a sign, the two infinities and the number that is none.
* `Number.roundEven`: a quotient rounded to the nearest natural number, a half to the even one.
* `Number.Binary64.ofRatio`: the number nearest to a quotient; too large a quotient is infinite.
* `Number.Binary64.product`, `Number.Binary64.quotient`: arithmetic on magnitudes, rounded once.
-/

namespace ClassSheet.Number

/-- A binary floating-point number of 64 bits. -/
inductive Binary64 where
  /-- Not a number. -/
  | nan
  | infinite (negative : Bool)
  /-- `mantissa * 2 ^ shift` times the smallest positive number. -/
  | finite (negative : Bool) (mantissa shift : Nat)
  deriving DecidableEq, Repr

/-- The quotient `n / d` rounded to the nearest natural number, a half to the even one. -/
def roundEven (n d : Nat) : Nat :=
  let q := n / d
  let r := n % d
  if 2 * r < d then q
  else if d < 2 * r then q + 1
  else q + q % 2

namespace Binary64

/-- How many halvings of one give the smallest positive number. -/
def smallestExponent : Nat := 1074

/-- The least mantissa of a number that is not tiny, and the first one too long. -/
def mantissaBits : Nat := 52

/-- The greatest scale of a finite number. -/
def greatestShift : Nat := 2045

/-- Zero with a sign. -/
def zero (negative : Bool) : Binary64 := .finite negative 0 0

/-- Whether a number is neither infinite nor the one that is no number. -/
def isFinite : Binary64 → Bool
  | .finite .. => true
  | _ => false

/-- The scale at which the quotient `n / d`, counted in smallest positive numbers, has its leading
bit in the leading place of a mantissa. Tiny quotients have the scale zero. -/
def shiftFor (n d : Nat) : Nat := (n / d).log2 - mantissaBits

/-- A mantissa and a scale as a number. A mantissa that was rounded up to one bit too many moves to
the next scale; beyond the greatest scale the number is infinite. -/
def ofScaled (negative : Bool) (mantissa shift : Nat) : Binary64 :=
  let carried := mantissa = Nat.pow 2 (mantissaBits + 1)
  let mantissa := if carried then Nat.pow 2 mantissaBits else mantissa
  let shift := if carried then shift + 1 else shift
  if shift ≤ greatestShift then .finite negative mantissa shift else .infinite negative

/-- The number nearest to the quotient `n / d`, of two the one with the even mantissa. -/
def ofRatio (negative : Bool) (n d : Nat) : Binary64 :=
  let n := n * Nat.pow 2 smallestExponent
  let shift := shiftFor n d
  ofScaled negative (roundEven n (d * Nat.pow 2 shift)) shift

/-- How many smallest positive numbers make up the magnitude of a finite number. -/
def units : Binary64 → Nat
  | .finite _ mantissa shift => mantissa * Nat.pow 2 shift
  | _ => 0

/-- The number nearest to the product of the magnitudes of two finite numbers. -/
def product (negative : Bool) (x y : Binary64) : Binary64 :=
  ofRatio negative (x.units * y.units) (Nat.pow 2 (2 * smallestExponent))

/-- The number nearest to the quotient of the magnitudes of two finite numbers. -/
def quotient (negative : Bool) (x y : Binary64) : Binary64 := ofRatio negative x.units y.units

end Binary64

end ClassSheet.Number
