import ClassSheet.Number.Decimal
import ClassSheet.Proofs.Number.Rounding
import Mathlib.Algebra.Order.Field.Power
import Mathlib.Tactic.Linarith
import Mathlib.Tactic.Positivity

/-!
# The values of decimal numbers

* `Number.Decimal.value`, `Number.Binary64.value`: what is denoted, as a rational number.
* `Number.Decimal.exists_quotient`: a decimal number is rounded as the quotient that it is, unless
  the place of its leading digit settles the matter.
* `Number.Decimal.magnitude_bounds`, `Number.Decimal.magnitude_tiny`,
  `Number.Decimal.limit_le_magnitude`: it is settled rightly then.
* `Number.Decimal.isFinite_toBinary64_iff`: a decimal number is finite iff it is below the limit.
* `Number.Decimal.toBinary64_nearest`: it is read as the nearest number, of two as the one with the
  even mantissa.
-/

namespace ClassSheet.Number

/-- A magnitude with a sign. -/
def withSign (negative : Bool) (x : ℚ) : ℚ := if negative then -x else x

theorem abs_withSign (negative : Bool) {x : ℚ} (h : 0 ≤ x) : |withSign negative x| = x := by
  unfold withSign
  split
  · rw [abs_neg, abs_of_nonneg h]
  · exact abs_of_nonneg h

theorem abs_withSign_sub (negative : Bool) (x y : ℚ) :
    |withSign negative x - withSign negative y| = |x - y| := by
  unfold withSign
  split
  · rw [neg_sub_neg, abs_sub_comm]
  · rfl

/-- How many smallest positive numbers make up one. -/
def Binary64.perOne : Nat := 2 ^ smallestExponent

theorem Binary64.perOne_pos : 0 < perOne := Nat.two_pow_pos _

theorem Binary64.cast_perOne_pos : (0 : ℚ) < perOne := Nat.cast_pos.mpr perOne_pos

namespace Decimal

open Binary64 (limit perOne perOne_pos)

/-! ## Values -/

/-- The value without its sign. -/
def magnitude (d : Decimal) : ℚ := d.coefficient * 10 ^ d.exponent

/-- The value that is denoted. -/
def value (d : Decimal) : ℚ := withSign d.negative d.magnitude

theorem magnitude_nonneg (d : Decimal) : 0 ≤ d.magnitude := by
  unfold magnitude
  positivity

theorem abs_value (d : Decimal) : |d.value| = d.magnitude :=
  abs_withSign d.negative d.magnitude_nonneg

/-- A number that is neither zero nor so small or large that the place of its leading digit settles
it, is rounded as the quotient that it is. -/
theorem exists_quotient (d : Decimal) :
    ∃ n k : Nat, 0 < k ∧ d.magnitude = n / k ∧
      d.toBinary64 =
        if d.coefficient = 0 ∨ d.leadingPlace < leastPlace then .zero d.negative
        else if greatestPlace < d.leadingPlace then .infinite d.negative
        else .ofRatio d.negative n k := by
  obtain ⟨negative, coefficient, exponent⟩ := d
  cases exponent with
  | ofNat e => exact ⟨coefficient * 10 ^ e, 1, Nat.one_pos, by simp [magnitude], rfl⟩
  | negSucc e =>
    refine ⟨coefficient, 10 ^ (e + 1), Nat.pow_pos (by decide), ?_, rfl⟩
    rw [magnitude, zpow_negSucc, Nat.cast_pow, Nat.cast_ofNat, div_eq_mul_inv]

/-! ## The place of the leading digit -/

/-- A number is at least the power of ten of its leading digit, and below the next one. -/
theorem magnitude_bounds {d : Decimal} (h : d.coefficient ≠ 0) :
    10 ^ (d.leadingPlace - 1) ≤ d.magnitude ∧ d.magnitude < 10 ^ d.leadingPlace := by
  obtain ⟨length, hlength⟩ : ∃ length, (Text.ofNat d.coefficient).length = length + 1 :=
    Nat.exists_eq_add_one.mpr Nat.length_toDigits_pos
  have hlow : 10 ^ length ≤ d.coefficient := by
    rcases Nat.eq_zero_or_pos length with rfl | hpos
    · exact Nat.one_le_iff_ne_zero.mpr h
    · refine Nat.le_of_not_lt fun hlt => ?_
      have hle : (Text.ofNat d.coefficient).length ≤ length :=
        (Nat.length_toDigits_le_iff (by decide) hpos).mpr hlt
      omega
  have hhigh : d.coefficient < 10 ^ (length + 1) :=
    (Nat.length_toDigits_le_iff (by decide) (Nat.succ_pos length)).mp hlength.le
  have hten : (0 : ℚ) < 10 ^ d.exponent := by positivity
  have hplace : ∀ k : Nat,
      (10 : ℚ) ^ ((k : Int) + d.exponent) = (10 ^ k : Nat) * 10 ^ d.exponent := by
    intro k
    rw [zpow_add₀ (by norm_num), zpow_natCast, Nat.cast_pow, Nat.cast_ofNat]
  have hleading : d.leadingPlace = ((length + 1 : Nat) : Int) + d.exponent := by
    rw [leadingPlace, hlength]
  have hbefore : d.leadingPlace - 1 = (length : Int) + d.exponent := by
    rw [hleading]
    omega
  rw [hbefore, hleading, hplace, hplace, magnitude]
  exact ⟨mul_le_mul_of_nonneg_right (Nat.cast_le.mpr hlow) hten.le,
    mul_lt_mul_of_pos_right (Nat.cast_lt.mpr hhigh) hten⟩

/-- Numbers with their leading digit far right of the point are below a half of the smallest
positive number. -/
theorem magnitude_tiny {d : Decimal} (h : d.coefficient = 0 ∨ d.leadingPlace < leastPlace) :
    2 * d.magnitude * perOne < 1 := by
  by_cases hzero : d.coefficient = 0
  · rw [magnitude, hzero, Nat.cast_zero, zero_mul, mul_zero, zero_mul]
    exact one_pos
  have hplace : d.leadingPlace ≤ -((330 : Nat) : Int) := by
    have := h.resolve_left hzero
    unfold leastPlace at this
    omega
  have hscaled : ∀ p : Nat, perOne * 2 ≤ p → d.magnitude < (p : ℚ)⁻¹ →
      2 * d.magnitude * perOne < 1 := by
    intro p hle hlt
    have hpos : (0 : ℚ) < p :=
      Nat.cast_pos.mpr ((Nat.mul_pos perOne_pos (by decide)).trans_le hle)
    calc 2 * d.magnitude * perOne = d.magnitude * (perOne * 2 : Nat) := by
          push_cast
          ring
      _ ≤ d.magnitude * p := mul_le_mul_of_nonneg_left (Nat.cast_le.mpr hle) d.magnitude_nonneg
      _ < (p : ℚ)⁻¹ * p := mul_lt_mul_of_pos_right hlt hpos
      _ = 1 := inv_mul_cancel₀ hpos.ne'
  refine hscaled (10 ^ 330) (by decide +kernel) ?_
  calc d.magnitude < 10 ^ d.leadingPlace := (magnitude_bounds hzero).2
    _ ≤ 10 ^ (-((330 : Nat) : Int)) := zpow_le_zpow_right₀ (by norm_num) hplace
    _ = ((10 ^ 330 : Nat) : ℚ)⁻¹ := by rw [zpow_neg, zpow_natCast, Nat.cast_pow, Nat.cast_ofNat]

/-- Numbers with their leading digit far left of the point are too large. -/
theorem limit_le_magnitude {d : Decimal} (hne : d.coefficient ≠ 0)
    (h : greatestPlace < d.leadingPlace) : limit ≤ d.magnitude := by
  have hplace : ((310 : Nat) : Int) ≤ d.leadingPlace - 1 := by
    unfold greatestPlace at h
    omega
  have hlimit : limit ≤ 10 ^ 310 := by decide +kernel
  calc (limit : ℚ) ≤ (10 ^ 310 : Nat) := Nat.cast_le.mpr hlimit
    _ = 10 ^ ((310 : Nat) : Int) := by rw [zpow_natCast, Nat.cast_pow, Nat.cast_ofNat]
    _ ≤ 10 ^ (d.leadingPlace - 1) := zpow_le_zpow_right₀ (by norm_num) hplace
    _ ≤ d.magnitude := (magnitude_bounds hne).1

/-- A decimal number is read as a finite one iff it is below the limit. -/
theorem isFinite_toBinary64_iff (d : Decimal) : d.toBinary64.isFinite ↔ d.magnitude < limit := by
  obtain ⟨n, k, hk, hquotient, heq⟩ := exists_quotient d
  rw [heq]
  split
  · rename_i htiny
    have hone : (1 : ℚ) ≤ perOne := Nat.one_le_cast.mpr perOne_pos
    have hlimit : 1 ≤ limit := by decide +kernel
    refine iff_of_true rfl ?_
    have hnonneg := d.magnitude_nonneg
    calc d.magnitude ≤ 2 * d.magnitude * 1 := by linarith
      _ ≤ 2 * d.magnitude * perOne := mul_le_mul_of_nonneg_left hone (by linarith)
      _ < 1 := magnitude_tiny htiny
      _ ≤ limit := Nat.one_le_cast.mpr hlimit
  rename_i htiny
  split
  · rename_i hlarge
    have hle := limit_le_magnitude (fun h => htiny (.inl h)) hlarge
    exact iff_of_false Bool.false_ne_true (not_lt_of_ge hle)
  · rw [Binary64.isFinite_ofRatio_iff hk, hquotient, div_lt_iff₀ (Nat.cast_pos.mpr hk),
      ← Nat.cast_mul, Nat.cast_lt]

end Decimal

theorem cast_limit : (Binary64.limit : ℚ) = 2 ^ 1024 - 2 ^ 970 := by
  have hcast : ∀ a b : Nat, b ≤ a → ((2 ^ a - 2 ^ b : Nat) : ℚ) = 2 ^ a - 2 ^ b := by
    intro a b h
    rw [Nat.cast_sub (Nat.pow_le_pow_right (by decide) h), Nat.cast_pow, Nat.cast_pow,
      Nat.cast_ofNat]
  exact hcast 1024 970 (by decide)

/-! ## The nearest number -/

namespace Binary64

/-- The value of a finite number without its sign. -/
def magnitude (x : Binary64) : ℚ := x.units / perOne

/-- The value of a finite number. -/
def value : Binary64 → ℚ
  | .finite negative mantissa shift =>
    withSign negative (magnitude (.finite negative mantissa shift))
  | _ => 0

theorem magnitude_nonneg (x : Binary64) : 0 ≤ x.magnitude := by
  unfold magnitude
  positivity

theorem abs_cast_sub (a b : Nat) : |(a : ℚ) - b| = Nat.dist a b := by
  rcases Nat.le_total a b with h | h
  · rw [Nat.dist_eq_sub_of_le h, Nat.cast_sub h, abs_sub_comm, abs_of_nonneg]
    exact sub_nonneg.mpr (Nat.cast_le.mpr h)
  · rw [Nat.dist_eq_sub_of_le_right h, Nat.cast_sub h, abs_of_nonneg]
    exact sub_nonneg.mpr (Nat.cast_le.mpr h)

/-- The distance of a finite number from a quotient, as one of whole numbers. -/
theorem abs_magnitude_sub (x : Binary64) (n : Nat) {k : Nat} (hk : 0 < k) :
    |x.magnitude - n / k| = Nat.dist (x.units * k) (n * perOne) / (perOne * k) := by
  have hk : (0 : ℚ) < k := Nat.cast_pos.mpr hk
  have hunit := cast_perOne_pos
  rw [magnitude, div_sub_div _ _ hunit.ne' hk.ne', abs_div, abs_of_pos (mul_pos hunit hk),
    ← abs_cast_sub, Nat.cast_mul, Nat.cast_mul, mul_comm (n : ℚ)]

end Binary64

namespace Decimal

variable {negative : Bool} {mantissa shift m s : Nat}

open Binary64 (mantissaBits perOne cast_perOne_pos)

/-- Below a half of the smallest positive number, nothing is nearer than zero. -/
theorem magnitude_le_of_tiny {d : Decimal} (h : d.coefficient = 0 ∨ d.leadingPlace < leastPlace)
    (x : Binary64) : d.magnitude ≤ |x.magnitude - d.magnitude| := by
  have hunit := cast_perOne_pos
  rcases Nat.eq_zero_or_pos x.units with hzero | hpos
  · rw [Binary64.magnitude, hzero, Nat.cast_zero, zero_div, zero_sub, abs_neg]
    exact le_abs_self _
  · have hunits : x.magnitude * perOne = x.units := div_mul_cancel₀ _ hunit.ne'
    have hone : (1 : ℚ) ≤ x.units := Nat.one_le_cast.mpr hpos
    have hlt : 2 * d.magnitude * perOne < x.magnitude * perOne := by
      rw [hunits]
      exact (magnitude_tiny h).trans_le hone
    have hhalf := lt_of_mul_lt_mul_right hlt hunit.le
    exact (by linarith : d.magnitude ≤ x.magnitude - d.magnitude).trans (le_abs_self _)

/-- No finite number is nearer to a decimal number than the one that it is read as, and one that is
just as near leaves the one with the even mantissa, signs aside. -/
theorem magnitude_nearest {d : Decimal} (h : d.toBinary64 = .finite negative mantissa shift)
    (negative' : Bool) (hm : m < 2 ^ (mantissaBits + 1)) :
    negative = d.negative ∧
      |(Binary64.finite negative mantissa shift).magnitude - d.magnitude| ≤
        |(Binary64.finite negative' m s).magnitude - d.magnitude| ∧
      (|(Binary64.finite negative' m s).magnitude - d.magnitude| =
          |(Binary64.finite negative mantissa shift).magnitude - d.magnitude| →
        m * 2 ^ s = mantissa * 2 ^ shift ∨ mantissa % 2 = 0) := by
  obtain ⟨n, k, hk, hquotient, heq⟩ := exists_quotient d
  rw [heq] at h
  split at h
  · rename_i htiny
    cases h
    refine ⟨rfl, ?_, fun _ => .inr rfl⟩
    have hzero : (Binary64.finite d.negative 0 0).magnitude = 0 := by
      simp only [Binary64.magnitude, Binary64.units, Nat.zero_mul, Nat.cast_zero, zero_div]
    rw [hzero, zero_sub, abs_neg, abs_of_nonneg d.magnitude_nonneg]
    exact magnitude_le_of_tiny htiny _
  split at h
  · cases h
  · obtain ⟨hnegative, hnearest⟩ := Binary64.ofRatio_nearest (s := s) hk h hm
    have hpos : (0 : ℚ) < perOne * k :=
      mul_pos cast_perOne_pos (Nat.cast_pos.mpr hk)
    rw [hquotient, Binary64.abs_magnitude_sub _ n hk, Binary64.abs_magnitude_sub _ n hk,
      div_le_div_iff_of_pos_right hpos, div_left_inj' hpos.ne', Nat.cast_le, Nat.cast_inj]
    exact ⟨hnegative, hnearest⟩

/-- A decimal number is read as the nearest number, of two as the one with the even mantissa. -/
theorem toBinary64_nearest {d : Decimal} (h : d.toBinary64 = .finite negative mantissa shift)
    (negative' : Bool) (hm : m < 2 ^ (mantissaBits + 1)) :
    |(Binary64.finite negative mantissa shift).value - d.value| ≤
        |(Binary64.finite negative' m s).value - d.value| ∧
      (|(Binary64.finite negative' m s).value - d.value| =
          |(Binary64.finite negative mantissa shift).value - d.value| →
        m * 2 ^ s = mantissa * 2 ^ shift ∨ mantissa % 2 = 0) := by
  obtain ⟨hnegative, hle, htie⟩ := magnitude_nearest (s := s) h negative' hm
  have hsame : |(Binary64.finite negative mantissa shift).value - d.value| =
      |(Binary64.finite negative mantissa shift).magnitude - d.magnitude| := by
    rw [hnegative]
    exact abs_withSign_sub d.negative _ _
  have hother : |(Binary64.finite negative' m s).magnitude - d.magnitude| ≤
      |(Binary64.finite negative' m s).value - d.value| := by
    have habs := abs_withSign negative' (Binary64.finite negative' m s).magnitude_nonneg
    rw [← habs, ← d.abs_value]
    exact abs_abs_sub_abs_le _ _
  rw [hsame]
  exact ⟨hle.trans hother, fun heq => htie (le_antisymm (hother.trans heq.le) hle)⟩

end Decimal

end ClassSheet.Number
