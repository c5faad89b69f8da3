import ClassSheet.Proofs.Json.Spelling
import ClassSheet.Proofs.Number.Decimal
import Mathlib.Data.List.TakeWhile
import Mathlib.Tactic.FieldSimp

/-!
# How decimal numbers are spelled

A decimal number is spelled with an optional sign, digits with an optional point, and an optional
exponent. There may be any number of digits in each part.

* `Number.wholeValue`, `Number.fractionValue`, `Number.exponentValue`: what the parts stand for,
  place by place.
* `Number.DecimalSpelling`: a number as it is written, with its text and its value.
* `Number.DecimalSpelling.ofText?_text`, `Number.DecimalSpelling.exists_of_ofText?`: exactly the
  texts of spellings are read, and as the numbers that they spell.
* `Number.DecimalSpelling.text_ne_name`: the names of numbers that are not finite spell nothing.
* `Number.exists_isFinite_iff`: the texts that are read as finite numbers.
-/

namespace ClassSheet.Number

open Json (Exponent signText spanDigits_run spanDigits_append spanSign_signText spanSign_append)
open Json.NumberSpelling (exponentText)

/-! ## The values of digits -/

/-- The value of digits, each of them worth ten times as much as in the next place. -/
def wholeValue : Text → Nat
  | [] => 0
  | c :: s => digitValue c * 10 ^ s.length + wholeValue s

/-- The value of digits behind a point. -/
def fractionValue : Text → ℚ
  | [] => 0
  | c :: s => (digitValue c + fractionValue s) / 10

theorem foldl_digitValue (n : Nat) (s : Text) :
    s.foldl (fun n c => 10 * n + digitValue c) n = n * 10 ^ s.length + wholeValue s := by
  induction s generalizing n with
  | nil => simp [wholeValue]
  | cons c s ih =>
    rw [List.foldl_cons, ih, wholeValue, List.length_cons, Nat.pow_succ]
    ring

/-- Digits are summed up from the left. -/
theorem ofDigits_eq_wholeValue (s : Text) : ofDigits s = wholeValue s := by
  rw [ofDigits, foldl_digitValue, Nat.zero_mul, Nat.zero_add]

theorem wholeValue_append (s t : Text) :
    wholeValue (s ++ t) = wholeValue s * 10 ^ t.length + wholeValue t := by
  rw [← ofDigits_eq_wholeValue, ofDigits, List.foldl_append, foldl_digitValue]
  rw [foldl_digitValue, Nat.zero_mul, Nat.zero_add]

/-- Moving the point to the right end makes digits behind it whole. -/
theorem fractionValue_eq (s : Text) : fractionValue s = wholeValue s / 10 ^ s.length := by
  induction s with
  | nil => simp [fractionValue, wholeValue]
  | cons c s ih =>
    rw [fractionValue, wholeValue, ih, List.length_cons]
    push_cast
    field_simp
    ring

/-! ## Exponents -/

/-- The value of an exponent, zero for none. -/
def exponentValue : Option Exponent → Int
  | none => 0
  | some e => if e.sign? = some true then -wholeValue e.digits.text else wholeValue e.digits.text

theorem signed_ofDigits (e : Exponent) :
    signed (e.sign? == some true) (ofDigits e.digits.text) = exponentValue (some e) := by
  rw [ofDigits_eq_wholeValue, signed, exponentValue]
  simp only [beq_iff_eq]

/-- A sign that was read is written in front of what is left. -/
theorem exists_signText (s : Text) :
    ∃ sign?, signText sign? ++ (spanSign s).2 = s ∧ (spanSign s).1 = (sign? == some true) := by
  unfold spanSign
  split
  · exact ⟨some false, rfl, rfl⟩
  · exact ⟨some true, rfl, rfl⟩
  · exact ⟨none, rfl, rfl⟩

/-- Digits that were read are written in front of what is left. -/
theorem append_of_spanDigits {s digits rest : Text} (h : spanDigits s = (digits, rest)) :
    digits ++ rest = s ∧ ∀ c ∈ digits, c.isDigit = true := by
  cases h
  exact ⟨List.takeWhile_append_dropWhile, fun _ hc => List.mem_takeWhile_imp hc⟩

/-- Behind its letter and its sign an exponent has digits and nothing else. -/
theorem exponent?_cons_eq_some_iff {letter : Char} {s : Text} {n : Int} :
    exponent? (letter :: s) = some n ↔
      (letter = 'e' ∨ letter = 'E') ∧ ∃ d : Json.Digits, (spanSign s).2 = d.text ∧
        signed (spanSign s).1 (ofDigits d.text) = n := by
  rw [exponent?]
  by_cases hletter : letter = 'e' ∨ letter = 'E'
  · rw [if_pos hletter]
    generalize spanSign s = signedRest
    dsimp only
    constructor
    · intro h
      split at h
      · rename_i c digits hspan
        obtain ⟨hrest, hdigits⟩ := append_of_spanDigits hspan
        rw [List.append_nil] at hrest
        rw [← hrest] at h ⊢
        exact ⟨hletter, ⟨c :: digits, by simp, hdigits⟩, rfl, Option.some.inj h⟩
      · cases h
    · rintro ⟨-, d, hd, rfl⟩
      have hnil : ∀ c ∈ ([] : Text).head?, c.isDigit = false := by simp
      have hspan := spanDigits_append d hnil
      obtain ⟨c, digits, hcons⟩ := List.exists_cons_of_ne_nil d.ne_nil
      rw [List.append_nil, hcons] at hspan
      rw [hd, hcons, hspan]
  · rw [if_neg hletter]
    simp [hletter]

/-- Exponents are read iff they are spelled as exponents. -/
theorem exponent?_eq_some_iff {s : Text} {n : Int} :
    exponent? s = some n ↔ ∃ e?, exponentText e? = s ∧ exponentValue e? = n := by
  constructor
  · intro h
    cases s with
    | nil =>
      cases h
      exact ⟨none, rfl, rfl⟩
    | cons letter s =>
      obtain ⟨hletter, d, hd, rfl⟩ := exponent?_cons_eq_some_iff.mp h
      obtain ⟨sign?, hs, hsign⟩ := exists_signText s
      rw [hd] at hs
      refine ⟨some ⟨letter, hletter, sign?, d⟩, congrArg (letter :: ·) hs, ?_⟩
      rw [hsign, ← signed_ofDigits]
  · rintro ⟨e?, rfl, rfl⟩
    cases e? with
    | none => rfl
    | some e =>
      have hsign := spanSign_append e.sign? e.digits []
      rw [List.append_nil] at hsign
      refine exponent?_cons_eq_some_iff.mpr ⟨e.isLetter, e.digits, ?_, ?_⟩
      · rw [hsign]
      · rw [hsign, signed_ofDigits]

/-! ## Numbers -/

/-- A decimal number as it is written. -/
structure DecimalSpelling where
  /-- The sign, if one is written; `true` stands for a minus sign. -/
  sign? : Option Bool
  /-- The digits in front of the point, or all of them. -/
  whole : Text
  /-- The digits behind the point, if there is a point. -/
  fraction? : Option Text
  exponent? : Option Exponent
  isDigit_whole : ∀ c ∈ whole, c.isDigit = true
  isDigit_fraction : ∀ c ∈ fraction?.getD [], c.isDigit = true
  /-- There is a digit on one side of the point. -/
  exists_digit : ¬(whole = [] ∧ fraction?.getD [] = [])

/-- The end of a number with a point. -/
def fractionText : Option Text → Text
  | none => []
  | some digits => '.' :: digits

namespace DecimalSpelling

/-- The digits behind the point. -/
def fraction (x : DecimalSpelling) : Text := x.fraction?.getD []

/-- What follows the sign. -/
def unsigned (x : DecimalSpelling) : Text :=
  x.whole ++ (fractionText x.fraction? ++ exponentText x.exponent?)

def text (x : DecimalSpelling) : Text := signText x.sign? ++ x.unsigned

/-- The number that is denoted. -/
def value (x : DecimalSpelling) : ℚ :=
  withSign (x.sign? == some true)
    ((wholeValue x.whole + fractionValue x.fraction) * 10 ^ exponentValue x.exponent?)

/-- The number that is read. -/
def decimal (x : DecimalSpelling) : Decimal where
  negative := x.sign? == some true
  coefficient := ofDigits (x.whole ++ x.fraction)
  exponent := exponentValue x.exponent? - x.fraction.length

theorem value_decimal (x : DecimalSpelling) : x.decimal.value = x.value := by
  rw [Decimal.value, Decimal.magnitude, value]
  refine congrArg (withSign _) ?_
  show ((ofDigits (x.whole ++ x.fraction) : Nat) : ℚ) *
    10 ^ (exponentValue x.exponent? - x.fraction.length) = _
  rw [ofDigits_eq_wholeValue, wholeValue_append, fractionValue_eq, zpow_sub₀ (by norm_num),
    zpow_natCast]
  push_cast
  field_simp

/-! ## Reading -/

theorem head?_exponentText (e? : Option Exponent) :
    ∀ c ∈ (exponentText e?).head?, c.isDigit = false ∧ c ≠ '.' := by
  have hend : Json.EndsNumber [] := by simp [Json.EndsNumber]
  have h := Json.NumberSpelling.head?_exponentText e? hend
  rwa [List.append_nil] at h

/-- Splits a point and the digits behind it from a text, if it begins with a point. -/
def spanFraction : Text → Text × Text
  | '.' :: s => spanDigits s
  | s => ([], s)

/-- A number is read as a sign, digits, a point with digits, and an exponent. -/
theorem ofText?_eq (s : Text) :
    Decimal.ofText? s =
      let whole := spanDigits (spanSign s).2
      let fraction := spanFraction whole.2
      if whole.1 = [] ∧ fraction.1 = [] then none
      else (Number.exponent? fraction.2).map fun e =>
        ⟨(spanSign s).1, ofDigits (whole.1 ++ fraction.1), e - fraction.1.length⟩ := rfl

theorem spanFraction_append {fraction? : Option Text} (e? : Option Exponent)
    (hdigits : ∀ c ∈ fraction?.getD [], c.isDigit = true) :
    spanFraction (fractionText fraction? ++ exponentText e?) =
      (fraction?.getD [], exponentText e?) := by
  have hhead := head?_exponentText e?
  cases fraction? with
  | none =>
    rw [fractionText, List.nil_append]
    unfold spanFraction
    split
    · rename_i heq
      exact absurd rfl (hhead '.' (by rw [heq]; rfl)).2
    · rfl
  | some digits => exact spanDigits_run hdigits fun c hc => (hhead c hc).1

/-- A point that was read is written in front of its digits, and these in front of what is left. -/
theorem append_of_spanFraction {s digits rest : Text} (h : spanFraction s = (digits, rest)) :
    ∃ fraction?, fractionText fraction? ++ rest = s ∧ fraction?.getD [] = digits ∧
      ∀ c ∈ digits, c.isDigit = true := by
  unfold spanFraction at h
  split at h
  · obtain ⟨hs, hdigits⟩ := append_of_spanDigits h
    exact ⟨some digits, congrArg ('.' :: ·) hs, rfl, hdigits⟩
  · cases h
    exact ⟨none, rfl, rfl, by simp⟩

/-- Behind its sign a number begins with a digit or a point. -/
theorem head?_unsigned (x : DecimalSpelling) :
    ∀ c ∈ x.unsigned.head?, c.isDigit = true ∨ c = '.' := by
  intro c hc
  rw [unsigned] at hc
  cases hwhole : x.whole with
  | cons digit digits =>
    rw [hwhole] at hc
    cases hc
    exact .inl (x.isDigit_whole c (by simp [hwhole]))
  | nil =>
    rw [hwhole] at hc
    cases hfraction : x.fraction? with
    | none => exact absurd ⟨hwhole, by rw [hfraction]; rfl⟩ x.exists_digit
    | some digits =>
      rw [hfraction] at hc
      cases hc
      exact .inr rfl

theorem spanSign_text (x : DecimalSpelling) :
    spanSign x.text = (x.sign? == some true, x.unsigned) := by
  refine spanSign_signText x.sign? fun c hc => ?_
  rcases x.head?_unsigned c hc with h | rfl
  · exact Json.ne_sign_of_isDigit h
  · decide

/-- The text of a spelling is read back. -/
theorem ofText?_text (x : DecimalSpelling) : Decimal.ofText? x.text = some x.decimal := by
  have hhead : ∀ c ∈ (fractionText x.fraction? ++ exponentText x.exponent?).head?,
      c.isDigit = false := by
    cases x.fraction? with
    | none => exact fun c hc => (head?_exponentText x.exponent? c hc).1
    | some digits =>
      rintro _ ⟨⟩
      rfl
  have hwhole := spanDigits_run x.isDigit_whole hhead
  have hexponent := exponent?_eq_some_iff.mpr ⟨x.exponent?, rfl, rfl⟩
  rw [ofText?_eq, spanSign_text, unsigned, hwhole]
  dsimp only
  rw [spanFraction_append x.exponent? x.isDigit_fraction, if_neg x.exists_digit, hexponent]
  rfl

/-- What is read is spelled. -/
theorem exists_of_ofText? {s : Text} {d : Decimal} (h : Decimal.ofText? s = some d) :
    ∃ x : DecimalSpelling, x.text = s ∧ x.decimal = d := by
  obtain ⟨sign?, hs, hsign⟩ := exists_signText s
  rw [ofText?_eq, hsign] at h
  cases hwhole : spanDigits (spanSign s).2 with | _ whole rest
  cases hfraction : spanFraction rest with | _ digits tail
  obtain ⟨hrest, hdigits⟩ := append_of_spanDigits hwhole
  obtain ⟨fraction?, htail, rfl, hdigits'⟩ := append_of_spanFraction hfraction
  rw [hwhole] at h
  dsimp only at h
  rw [hfraction] at h
  split at h
  · cases h
  · rename_i hdigit
    obtain ⟨n, hn, rfl⟩ := Option.map_eq_some_iff.mp h
    obtain ⟨e?, rfl, rfl⟩ := exponent?_eq_some_iff.mp hn
    refine ⟨⟨sign?, whole, fraction?, e?, hdigits, hdigits', hdigit⟩, ?_, rfl⟩
    rw [text, unsigned, htail, hrest, hs]

/-- A text denotes at most one value. -/
theorem value_unique {x y : DecimalSpelling} (h : x.text = y.text) : x.value = y.value := by
  have hdecimal : some x.decimal = some y.decimal := by
    rw [← ofText?_text, ← ofText?_text, h]
  rw [← value_decimal, ← value_decimal, Option.some.inj hdecimal]

theorem toLower_of_lt {c : Char} (h : c < 'A') : c.toLower = c :=
  dif_neg fun hupper => absurd h (Nat.not_lt_of_le hupper.1)

theorem lt_of_isDigit {c : Char} (h : c.isDigit = true) : c < 'A' := by
  simp only [Char.isDigit, Bool.and_eq_true, decide_eq_true_eq] at h
  exact Nat.lt_of_le_of_lt h.2 (by decide)

/-- No number is spelled like a name. -/
theorem text_ne_name (x : DecimalSpelling) (sign? : Option Bool) {word : Text}
    (hword : word.map Char.toLower ∈ nanName :: infinityNames) :
    x.text ≠ signText sign? ++ word := by
  intro h
  have hnames : ∀ name ∈ nanName :: infinityNames, name ≠ [] ∧ ∀ c ∈ name, ¬c < 'A' := by decide
  obtain ⟨hne, hall⟩ := hnames _ hword
  obtain ⟨c, rest, rfl⟩ := List.exists_cons_of_ne_nil (mt (congrArg (List.map Char.toLower)) hne)
  -- Signs, digits and the point all come before the letters.
  have hc : ¬c < 'A' := by
    intro hlt
    have hlower := hall _ (List.mem_cons_self ..)
    rw [toLower_of_lt hlt] at hlower
    exact hlower hlt
  have hsign : spanSign (signText sign? ++ c :: rest) = (sign? == some true, c :: rest) := by
    refine spanSign_signText sign? ?_
    rintro _ ⟨⟩
    constructor
    · rintro rfl
      exact hc (by decide)
    · rintro rfl
      exact hc (by decide)
  rw [← h, spanSign_text] at hsign
  have hunsigned : x.unsigned = c :: rest := congrArg Prod.snd hsign
  rcases x.head?_unsigned c (by rw [hunsigned]; rfl) with hdigit | rfl
  · exact hc (lt_of_isDigit hdigit)
  · exact hc (by decide)

end DecimalSpelling

/-- A text is read as a finite number iff it spells a decimal number below the limit. -/
theorem exists_isFinite_iff {s : Text} :
    (∃ x, ofText? s = some x ∧ x.isFinite) ↔
      ∃ x : DecimalSpelling, x.text = s ∧ |x.value| < Binary64.limit := by
  constructor
  · rintro ⟨x, hx, hfinite⟩
    unfold ofText? at hx
    split at hx
    · rename_i d hd
      cases hx
      obtain ⟨spelling, htext, rfl⟩ := DecimalSpelling.exists_of_ofText? hd
      refine ⟨spelling, htext, ?_⟩
      rw [← spelling.value_decimal, Decimal.abs_value]
      exact (Decimal.isFinite_toBinary64_iff _).mp hfinite
    · -- The names are read as numbers that are not finite.
      dsimp only at hx
      split at hx
      · cases hx
        cases hfinite
      split at hx
      · cases hx
        cases hfinite
      · cases hx
  · rintro ⟨spelling, rfl, hlt⟩
    refine ⟨spelling.decimal.toBinary64, ?_, ?_⟩
    · rw [ofText?, spelling.ofText?_text]
    · rw [Decimal.isFinite_toBinary64_iff, ← Decimal.abs_value, spelling.value_decimal]
      exact hlt

end ClassSheet.Number
