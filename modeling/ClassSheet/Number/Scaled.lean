import ClassSheet.Number.Binary64

/-!
# Scaling by powers of ten

A whole number times a power of ten can be computed in steps: the whole number is rounded to a
binary number, the power of ten is too, and their product or quotient is rounded once more. The
result may differ from the nearest binary number in the last place.

* `Number.powerOfTen`: the binary number nearest to a power of ten.
* `Number.scaled?`: a whole number times a power of ten, in steps.
-/

namespace ClassSheet.Number

/-- The exponent of the greatest finite power of ten. -/
def greatestPower : Nat := 308

/-- The binary number nearest to a power of ten. -/
def powerOfTen (exponent : Nat) : Binary64 := .ofRatio false (Nat.pow 10 exponent) 1

/-- A magnitude divided by a power of ten. A power that is not finite is divided by in two steps,
and beyond the second one nothing is left of any magnitude. -/
def dividedByPower (negative : Bool) (x : Binary64) (exponent : Nat) : Binary64 :=
  if exponent ≤ greatestPower then .quotient negative x (powerOfTen exponent)
  else if exponent ≤ 2 * greatestPower then
    .quotient negative (.quotient negative x (powerOfTen greatestPower))
      (powerOfTen (exponent - greatestPower))
  else .zero negative

/-- The number `n * 10 ^ exponent` with a sign, computed in steps, unless it is too large. Zero is
not too large whatever the exponent. -/
def scaled? (negative : Bool) (n : Nat) : Int → Option Binary64
  | .ofNat exponent =>
    if n = 0 then some (.zero negative)
    else if exponent ≤ greatestPower then
      let x := Binary64.product negative (.ofRatio negative n 1) (powerOfTen exponent)
      if x.isFinite then some x else none
    else none
  | .negSucc exponent => some (dividedByPower negative (.ofRatio negative n 1) (exponent + 1))

end ClassSheet.Number
