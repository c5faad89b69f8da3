import ClassSheet.Number.Layout
import ClassSheet.Proofs.Text.Words

/-!
# The characters of written numbers

* `Number.IsMark`: a digit, a sign, a point, or a letter of an exponent or of a name.
* `Number.Layout.forall_isMark_write`: numbers are written with these characters, in any layout.
-/

namespace ClassSheet.Number

/-- A character that written numbers may have. -/
def IsMark (c : Char) : Prop := c.isDigit ∨ c ∈ "+-.eNaNinf".toList

instance : DecidablePred IsMark := fun _ => inferInstanceAs (Decidable (_ ∨ _))

theorem forall_isMark_ofNat (n : Nat) : ∀ c ∈ Text.ofNat n, IsMark c :=
  fun _ h => .inl (Nat.isDigit_of_mem_toDigits (by decide) (by decide) h)

theorem forall_isMark_ofInt (n : Int) : ∀ c ∈ Text.ofInt n, IsMark c := by
  cases n with
  | ofNat n => exact forall_isMark_ofNat n
  | negSucc n => exact List.forall_mem_cons.mpr ⟨by decide, forall_isMark_ofNat (n + 1)⟩

theorem forall_isMark_zeros (n : Nat) : ∀ c ∈ List.replicate n '0', IsMark c := by
  intro c h
  rw [List.eq_of_mem_replicate h]
  decide

namespace Layout

variable {digits : Text}

theorem forall_isMark_positional (l : Layout) (hdigits : ∀ c ∈ digits, IsMark c) (place : Int) :
    ∀ c ∈ l.positional digits place, IsMark c := by
  have hpoint : ∀ c ∈ (if l.keepPoint then ".0".toList else []), IsMark c := by
    split <;> decide
  unfold positional
  split
  · have hstart : ∀ c ∈ "0.".toList, IsMark c := by decide
    simp only [List.forall_mem_append]
    exact ⟨⟨hstart, forall_isMark_zeros _⟩, hdigits⟩
  split
  · simp only [List.forall_mem_append]
    exact ⟨⟨hdigits, forall_isMark_zeros _⟩, hpoint⟩
  · simp only [List.forall_mem_append, List.forall_mem_cons]
    exact ⟨fun c h => hdigits c (List.mem_of_mem_take h), by decide,
      fun c h => hdigits c (List.mem_of_mem_drop h)⟩

theorem forall_isMark_scientific (l : Layout) (hdigits : ∀ c ∈ digits, IsMark c) (exponent : Int) :
    ∀ c ∈ l.scientific digits exponent, IsMark c := by
  have hdrop : ∀ c ∈ digits.drop 1, IsMark c := fun c h => hdigits c (List.mem_of_mem_drop h)
  have htail : ∀ c ∈ (if digits.drop 1 = [] then [] else '.' :: digits.drop 1), IsMark c := by
    split
    · decide
    · exact List.forall_mem_cons.mpr ⟨by decide, hdrop⟩
  have hsign : ∀ c ∈ (if l.plusSign ∧ 0 ≤ exponent then ['+'] else []), IsMark c := by
    split <;> decide
  unfold scientific
  simp only [List.forall_mem_append, List.forall_mem_cons]
  exact ⟨⟨⟨fun c h => hdigits c (List.mem_of_mem_take h), htail⟩, by decide, hsign⟩,
    forall_isMark_ofInt exponent⟩

theorem forall_isMark_magnitude (l : Layout) (mantissa shift : Nat) :
    ∀ c ∈ l.magnitude mantissa shift, IsMark c := by
  unfold magnitude
  split
  · have hpoint : ∀ c ∈ (if l.keepPoint then ".0".toList else []), IsMark c := by
      split <;> decide
    exact List.forall_mem_cons.mpr ⟨by decide, hpoint⟩
  · dsimp only
    split
    · exact forall_isMark_positional l (forall_isMark_ofNat _) _
    · split
      · exact forall_isMark_positional l (forall_isMark_ofNat _) _
      · exact forall_isMark_scientific l (forall_isMark_ofNat _) _

/-- Numbers are written with digits, signs, points, and the letters of exponents and names. -/
theorem forall_isMark_write (l : Layout) (x : Binary64) : ∀ c ∈ l.write x, IsMark c := by
  have hsign : ∀ negative : Bool, ∀ c ∈ (if negative then ['-'] else []), IsMark c := by decide
  cases x with
  | nan =>
    have hname : ∀ c ∈ "NaN".toList, IsMark c := by decide
    exact hname
  | infinite negative =>
    have hname : ∀ c ∈ "inf".toList, IsMark c := by decide
    exact List.forall_mem_append.mpr ⟨hsign negative, hname⟩
  | finite negative mantissa shift =>
    exact List.forall_mem_append.mpr ⟨hsign negative, forall_isMark_magnitude l mantissa shift⟩

end Layout

end ClassSheet.Number
