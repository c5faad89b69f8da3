import ClassSheet.Number.Binary64
import Mathlib.Tactic.Ring
import Mathlib.Data.Nat.Dist

/-!
# How quotients are rounded

* `Number.roundEven_half`, `Number.roundEven_nearest`: a quotient is rounded to the nearest natural
  number, a half to the even one.
* `Number.Binary64.lt_of_shiftFor`, `Number.Binary64.le_of_shiftFor`: at the scale of a quotient its
  leading bit stands in the leading place of a mantissa.
* `Number.Binary64.limit`: from here on quotients are too large.
* `Number.Binary64.isFinite_ofRatio_iff`: a quotient has a finite number iff it is below the limit.
* `Number.Binary64.on_grid_or_lt`: finite numbers of a smaller scale lie below those of a greater
  one.
* `Number.Binary64.ofRatio_nearest`: that number is the nearest one, of two the one with the even
  mantissa.
-/

namespace ClassSheet.Number

variable {n d k : Nat}

/-! ## Rounding to a natural number -/

/-- A quotient is rounded by at most a half, and by a half only to an even number. -/
theorem roundEven_half (n : Nat) (hd : 0 < d) :
    2 * n ≤ (2 * roundEven n d + 1) * d ∧ 2 * (roundEven n d * d) ≤ 2 * n + d ∧
      (2 * n = (2 * roundEven n d + 1) * d ∨ 2 * (roundEven n d * d) = 2 * n + d →
        roundEven n d % 2 = 0) := by
  have hn := Nat.div_add_mod n d
  have hr := Nat.mod_lt n hd
  unfold roundEven
  dsimp only
  generalize n / d = q at *
  generalize n % d = r at *
  have hq : q * d = d * q := Nat.mul_comm q d
  have hnext : (q + 1) * d = d * q + d := by ring
  have hhalf : (2 * q + 1) * d = 2 * (d * q) + d := by ring
  have hhalf' : (2 * (q + 1) + 1) * d = 2 * (d * q) + 3 * d := by ring
  split
  · omega
  split
  · omega
  · rcases Nat.mod_two_eq_zero_or_one q with h | h
    · have hround : q + q % 2 = q := by omega
      rw [hround]
      omega
    · rw [h]
      omega

/-- The quotients that are rounded to an odd number or to one below it. -/
theorem roundEven_le_iff (hd : 0 < d) (hk : k % 2 = 1) :
    roundEven n d ≤ k ↔ 2 * n < (2 * k + 1) * d := by
  obtain ⟨hlow, hhigh, heven⟩ := roundEven_half n hd
  generalize roundEven n d = r at *
  constructor
  · intro h
    rcases Nat.lt_or_eq_of_le h with h | rfl
    · have hle : (2 * (r + 1) + 1) * d ≤ (2 * k + 1) * d := Nat.mul_le_mul_right d (by omega)
      have hstep : (2 * (r + 1) + 1) * d = (2 * r + 1) * d + 2 * d := by ring
      omega
    · omega
  · intro h
    by_contra hlt
    have hle : 2 * (k + 1) * d ≤ 2 * r * d := Nat.mul_le_mul_right d (by omega)
    have hk : 2 * (k + 1) * d = (2 * k + 1) * d + d := by ring
    have hr : 2 * r * d = 2 * (r * d) := by ring
    omega

/-- No other whole number is nearer to a quotient than the one that it is rounded to, and one that
is just as near leaves the even one of both. -/
theorem roundEven_nearest (n k : Nat) (hd : 0 < d) :
    Nat.dist (roundEven n d * d) n ≤ Nat.dist (k * d) n ∧
      (Nat.dist (k * d) n = Nat.dist (roundEven n d * d) n →
        k = roundEven n d ∨ roundEven n d % 2 = 0) := by
  obtain ⟨hlow, hhigh, heven⟩ := roundEven_half n hd
  generalize roundEven n d = r at *
  have hr : (2 * r + 1) * d = 2 * (r * d) + d := by ring
  unfold Nat.dist
  rcases Nat.lt_trichotomy k r with h | rfl | h
  · have hle : (k + 1) * d ≤ r * d := Nat.mul_le_mul_right d h
    have hk : (k + 1) * d = k * d + d := by ring
    omega
  · exact ⟨le_rfl, fun _ => .inl rfl⟩
  · have hle : (r + 1) * d ≤ k * d := Nat.mul_le_mul_right d h
    have hk : (r + 1) * d = r * d + d := by ring
    omega

namespace Binary64

variable {negative : Bool} {mantissa shift : Nat}

/-! ## Scales -/

/-- A greater scale is at least twice as large. -/
theorem two_pow_mul_two_le {s t : Nat} (h : s < t) : 2 ^ s * 2 ≤ 2 ^ t := by
  rw [← Nat.pow_succ]
  exact Nat.pow_le_pow_right (by decide) h

/-- At the scale of a quotient not more than the bits of a mantissa stand left of the point. -/
theorem lt_of_shiftFor (n : Nat) (hd : 0 < d) :
    n < d * 2 ^ shiftFor n d * 2 ^ (mantissaBits + 1) := by
  have hq : n / d < 2 ^ (shiftFor n d + (mantissaBits + 1)) := by
    refine Nat.lt_of_lt_of_le Nat.lt_log2_self (Nat.pow_le_pow_right (by decide) ?_)
    rw [shiftFor]
    omega
  rw [Nat.mul_assoc, ← Nat.pow_add, Nat.mul_comm]
  exact (Nat.div_lt_iff_lt_mul hd).mp hq

/-- Unless the quotient is tiny, all of these bits are used. -/
theorem le_of_shiftFor (h : shiftFor n d ≠ 0) :
    d * 2 ^ shiftFor n d * 2 ^ mantissaBits ≤ n := by
  have hlog : shiftFor n d + mantissaBits = (n / d).log2 := by
    rw [shiftFor] at h ⊢
    omega
  have hne : n / d ≠ 0 := by
    intro h0
    rw [shiftFor, h0] at h
    exact h rfl
  rw [Nat.mul_assoc, ← Nat.pow_add, hlog]
  exact (Nat.mul_le_mul_left d (Nat.log2_self_le hne)).trans (Nat.mul_div_le n d)

/-- Rounding makes a mantissa at most one too long. -/
theorem roundEven_shiftFor_le (n : Nat) (hd : 0 < d) :
    roundEven n (d * 2 ^ shiftFor n d) ≤ 2 ^ (mantissaBits + 1) := by
  have hlt := lt_of_shiftFor n hd
  have hD : 0 < d * 2 ^ shiftFor n d := Nat.mul_pos hd (Nat.two_pow_pos _)
  obtain ⟨-, hhigh, -⟩ := roundEven_half n hD
  generalize d * 2 ^ shiftFor n d = D at *
  generalize roundEven n D = r at *
  generalize 2 ^ (mantissaBits + 1) = top at *
  by_contra h
  have hle : (top + 1) * D ≤ r * D := Nat.mul_le_mul_right D (by omega)
  have hstep : (top + 1) * D = D * top + D := by ring
  omega

/-! ## Finite numbers -/

theorem isFinite_ofScaled_iff :
    (ofScaled negative mantissa shift).isFinite ↔
      shift < greatestShift ∨ shift = greatestShift ∧ mantissa ≠ 2 ^ (mantissaBits + 1) := by
  have hpow : Nat.pow 2 (mantissaBits + 1) = 2 ^ (mantissaBits + 1) := rfl
  unfold ofScaled
  dsimp only
  rw [hpow]
  by_cases hm : mantissa = 2 ^ (mantissaBits + 1)
  · rw [if_pos hm, if_pos hm]
    split
    · exact iff_of_true rfl (by omega)
    · exact iff_of_false Bool.false_ne_true (by omega)
  · rw [if_neg hm, if_neg hm]
    split
    · exact iff_of_true rfl (by omega)
    · exact iff_of_false Bool.false_ne_true (by omega)

/-- The middle between the greatest finite number and the one that would come next. -/
def limit : Nat := 2 ^ 1024 - 2 ^ 970

/-- Twice the limit, counted in smallest positive numbers, is an odd multiple of the greatest
scale. -/
theorem limit_mul (d : Nat) :
    limit * d * (2 ^ smallestExponent * 2) =
      (2 * (2 ^ (mantissaBits + 1) - 1) + 1) * (d * 2 ^ greatestShift) := by
  have hodd : 2 * (2 ^ (mantissaBits + 1) - 1) + 1 = 2 ^ 54 - 1 := rfl
  obtain ⟨p, hlimit, hshift⟩ : ∃ p, limit = (2 ^ 54 - 1) * p ∧
      2 ^ greatestShift = p * (2 ^ smallestExponent * 2) := by
    refine ⟨2 ^ 970, ?_, ?_⟩
    · rw [limit, Nat.sub_mul, Nat.one_mul, ← Nat.pow_add]
    · rw [← Nat.pow_succ, ← Nat.pow_add, greatestShift, smallestExponent]
  rw [hodd, hlimit, hshift]
  ring

/-- Rounded at its scale, a quotient is finite iff it is below half a place above the greatest
mantissa at the greatest scale. -/
theorem isFinite_rounded_iff (n : Nat) (hd : 0 < d) :
    (ofScaled negative (roundEven n (d * 2 ^ shiftFor n d)) (shiftFor n d)).isFinite ↔
      2 * n < (2 * (2 ^ (mantissaBits + 1) - 1) + 1) * (d * 2 ^ greatestShift) := by
  have hlt := lt_of_shiftFor n hd
  have hle := @le_of_shiftFor n d
  have hround := roundEven_shiftFor_le n hd
  have hpos : ∀ s, 0 < d * 2 ^ s := fun s => Nat.mul_pos hd (Nat.two_pow_pos s)
  have hscale : ∀ s t, s < t → d * 2 ^ s * 2 ≤ d * 2 ^ t := by
    intro s t h
    rw [Nat.mul_assoc]
    exact Nat.mul_le_mul_left d (two_pow_mul_two_le h)
  have hodd : (2 ^ (mantissaBits + 1) - 1) % 2 = 1 := rfl
  rw [isFinite_ofScaled_iff]
  generalize shiftFor n d = shift at *
  rcases Nat.lt_trichotomy shift greatestShift with h | h | h
  · refine iff_of_true (.inl h) ?_
    calc 2 * n < 2 * (d * 2 ^ shift * 2 ^ (mantissaBits + 1)) := by omega
      _ = d * 2 ^ shift * 2 * 2 ^ (mantissaBits + 1) := by ring
      _ ≤ d * 2 ^ greatestShift * 2 ^ (mantissaBits + 1) :=
        Nat.mul_le_mul_right _ (hscale _ _ h)
      _ = 2 ^ (mantissaBits + 1) * (d * 2 ^ greatestShift) := Nat.mul_comm ..
      _ ≤ (2 * (2 ^ (mantissaBits + 1) - 1) + 1) * (d * 2 ^ greatestShift) :=
        Nat.mul_le_mul_right _ (by decide)
  · -- Only here the mantissa decides.
    subst h
    rw [← roundEven_le_iff (hpos _) hodd]
    omega
  · refine iff_of_false (by omega) (Nat.not_lt_of_le ?_)
    calc (2 * (2 ^ (mantissaBits + 1) - 1) + 1) * (d * 2 ^ greatestShift)
        ≤ 2 * 2 ^ (mantissaBits + 1) * (d * 2 ^ greatestShift) :=
          Nat.mul_le_mul_right _ (by decide)
      _ = 2 * (d * 2 ^ greatestShift * 2 * 2 ^ mantissaBits) := by
        rw [Nat.pow_succ]
        ring
      _ ≤ 2 * (d * 2 ^ shift * 2 ^ mantissaBits) :=
        Nat.mul_le_mul_left 2 (Nat.mul_le_mul_right _ (hscale _ _ h))
      _ ≤ 2 * n := Nat.mul_le_mul_left 2 (hle (by omega))

/-- A quotient is rounded to a finite number iff it is below the limit. -/
theorem isFinite_ofRatio_iff (hd : 0 < d) : (ofRatio negative n d).isFinite ↔ n < limit * d := by
  have hpos : 0 < 2 ^ smallestExponent * 2 := Nat.mul_pos (Nat.two_pow_pos _) (by decide)
  have hunits : n * (2 ^ smallestExponent * 2) = 2 * (n * 2 ^ smallestExponent) := by ring
  simp only [ofRatio, Nat.pow_eq]
  rw [isFinite_rounded_iff _ hd, ← limit_mul, ← hunits, Nat.mul_lt_mul_right hpos]

/-! ## The nearest number -/

variable {m s : Nat}

/-- A finite number lies on the grid of a scale, or below the least number at that scale which has
its leading bit in the leading place. -/
theorem on_grid_or_lt (shift : Nat) (hm : m < 2 ^ (mantissaBits + 1)) :
    (∃ k, m * 2 ^ s = k * 2 ^ shift) ∨
      (shift ≠ 0 ∧ m * 2 ^ s < 2 ^ mantissaBits * 2 ^ shift) := by
  rcases Nat.lt_or_ge s shift with h | h
  · right
    have hdouble : m * 2 ^ s * 2 < 2 ^ mantissaBits * 2 ^ shift * 2 :=
      calc m * 2 ^ s * 2 = m * (2 ^ s * 2) := Nat.mul_assoc ..
        _ ≤ m * 2 ^ shift := Nat.mul_le_mul_left m (two_pow_mul_two_le h)
        _ < 2 ^ (mantissaBits + 1) * 2 ^ shift :=
          Nat.mul_lt_mul_of_pos_right hm (Nat.two_pow_pos shift)
        _ = 2 ^ mantissaBits * 2 ^ shift * 2 := by
          rw [Nat.pow_succ]
          ring
    omega
  · left
    exact ⟨m * 2 ^ (s - shift), by rw [Nat.mul_assoc, ← Nat.pow_add, Nat.sub_add_cancel h]⟩

/-- Rounded at its scale, a quotient is as near as a mantissa at any scale can come. -/
theorem rounded_nearest (n : Nat) (hd : 0 < d) (hm : m < 2 ^ (mantissaBits + 1)) :
    Nat.dist (roundEven n (d * 2 ^ shiftFor n d) * 2 ^ shiftFor n d * d) n ≤
        Nat.dist (m * 2 ^ s * d) n ∧
      (Nat.dist (m * 2 ^ s * d) n =
          Nat.dist (roundEven n (d * 2 ^ shiftFor n d) * 2 ^ shiftFor n d * d) n →
        m * 2 ^ s = roundEven n (d * 2 ^ shiftFor n d) * 2 ^ shiftFor n d ∨
          roundEven n (d * 2 ^ shiftFor n d) % 2 = 0) := by
  have hD : 0 < d * 2 ^ shiftFor n d := Nat.mul_pos hd (Nat.two_pow_pos _)
  have hnearest := fun k => roundEven_nearest n k hD
  have hlow := @le_of_shiftFor n d
  generalize shiftFor n d = shift at *
  generalize roundEven n (d * 2 ^ shift) = r at *
  have hscale : ∀ k, k * 2 ^ shift * d = k * (d * 2 ^ shift) := fun k => by ring
  rw [hscale]
  rcases on_grid_or_lt (s := s) shift hm with ⟨k, hk⟩ | ⟨hne, hlt⟩
  · obtain ⟨hle, heq⟩ := hnearest k
    rw [hk, hscale]
    exact ⟨hle, fun h => (heq h).imp_left (congrArg (· * 2 ^ shift))⟩
  · -- The least number with its leading bit in place lies between, and it is on the grid.
    have hbelow : m * 2 ^ s * d < 2 ^ mantissaBits * (d * 2 ^ shift) := by
      rw [← hscale]
      exact Nat.mul_lt_mul_of_pos_right hlt hd
    have hn := hlow hne
    have hleast := (hnearest (2 ^ mantissaBits)).1
    rw [Nat.mul_comm] at hn
    unfold Nat.dist at *
    omega

/-- A mantissa that was rounded up to one bit too many moves to the next scale. This changes neither
the number nor whether the mantissa is even. -/
theorem ofScaled_eq_finite {negative' : Bool} {mantissa' shift' : Nat}
    (h : ofScaled negative mantissa shift = .finite negative' mantissa' shift') :
    negative' = negative ∧ mantissa' * 2 ^ shift' = mantissa * 2 ^ shift ∧
      mantissa' % 2 = mantissa % 2 := by
  by_cases hm : mantissa = 2 ^ (mantissaBits + 1)
  · subst hm
    unfold ofScaled at h
    simp only [Nat.pow_eq, if_true] at h
    split at h
    · cases h
      refine ⟨rfl, ?_, rfl⟩
      rw [Nat.pow_succ, Nat.pow_succ]
      ring
    · cases h
  · unfold ofScaled at h
    simp only [Nat.pow_eq, if_neg hm] at h
    split at h
    · cases h
      exact ⟨rfl, rfl, rfl⟩
    · cases h

/-- No finite number is nearer to a quotient than the one that it is rounded to, and one that is
just as near leaves the one with the even mantissa. All of them are counted in smallest positive
numbers. -/
theorem ofRatio_nearest {negative' : Bool} (hd : 0 < d)
    (h : ofRatio negative n d = .finite negative' mantissa shift)
    (hm : m < 2 ^ (mantissaBits + 1)) :
    negative' = negative ∧
      Nat.dist (mantissa * 2 ^ shift * d) (n * 2 ^ smallestExponent) ≤
        Nat.dist (m * 2 ^ s * d) (n * 2 ^ smallestExponent) ∧
      (Nat.dist (m * 2 ^ s * d) (n * 2 ^ smallestExponent) =
          Nat.dist (mantissa * 2 ^ shift * d) (n * 2 ^ smallestExponent) →
        m * 2 ^ s = mantissa * 2 ^ shift ∨ mantissa % 2 = 0) := by
  simp only [ofRatio, Nat.pow_eq] at h
  generalize n * 2 ^ smallestExponent = N at *
  obtain ⟨hnegative, hunits, heven⟩ := ofScaled_eq_finite h
  have hnearest := rounded_nearest (s := s) N hd hm
  rw [← hunits, ← heven] at hnearest
  exact ⟨hnegative, hnearest⟩

end Binary64

end ClassSheet.Number
