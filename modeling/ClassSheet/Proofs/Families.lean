import ClassSheet.Proofs.Number.Spelling
import ClassSheet.Proofs.Sheet.Enumerated
import ClassSheet.Proofs.Utility

/-!
# The two families of class names

A name belongs to the family whose mark it begins with, or to none. What follows the mark is
divided without a loss, at all underscores for a structured class, of which only the first two
matter, and at the first one for an enumerated class.

* `StructuredClass.Shape`: the shapes of what follows the mark of a structured class.
* `StructuredClass.shape_iff`: its body and its multiplier are the ones that the shape tells.
* `StructuredClass.hasValidMultiplier_iff_spelled`: the multipliers that are numbers.
* `Utility.Family`, `Utility.ofName?_divides`: every name belongs to one family, and what is read
  from it is put together to the name again.
-/

namespace ClassSheet

namespace StructuredClass

open Json (signText)
open Number (DecimalSpelling)

variable {rest body body' : Text} {multiplier? multiplier?' : Option Text}

/-! ## Shapes -/

/-- Nothing, or an underscore and anything at all. -/
inductive Trailer : Text → Prop
  | nothing : Trailer []
  | ignored (rest : Text) : Trailer ('_' :: rest)

/-- What follows the mark is a body alone; or a body and an underscore, behind which no multiplier
stands; or a body, an underscore and a multiplier. The last two may have a trailer. -/
inductive Shape : Text → Text → Option Text → Prop
  | bare {body : Text} (hbody : '_' ∉ body) : Shape body body none
  | empty {body trailer : Text} (hbody : '_' ∉ body) (htrailer : Trailer trailer) :
      Shape (body ++ '_' :: trailer) body none
  | multiplied {body m trailer : Text} (hbody : '_' ∉ body) (hm : '_' ∉ m) (hne : m ≠ [])
      (htrailer : Trailer trailer) : Shape (body ++ '_' :: (m ++ trailer)) body (some m)

theorem Trailer.tail {m trailer : Text} (h : Trailer trailer) (hm : '_' ∉ m) :
    Tail ('_' :: (m ++ trailer)) m := by
  cases h with
  | nothing =>
    rw [List.append_nil]
    exact .run hm
  | ignored rest => exact .ignored hm

/-- The body and the multiplier of a class are read iff what follows its mark has their shape. -/
theorem shape_iff (name : Text) :
    Shape rest body multiplier? ↔ ofRest name rest = ⟨name, body, multiplier?⟩ := by
  constructor
  · intro h
    cases h with
    | bare hbody => exact ofRest_eq_of_notMem hbody
    | empty hbody htrailer => exact ofRest_append_tail name hbody (htrailer.tail List.not_mem_nil)
    | multiplied hbody hm hne htrailer =>
      rw [ofRest_append_tail name hbody (htrailer.tail hm), if_neg hne]
  · intro h
    obtain ⟨left, tail, m, rfl, hleft, htail⟩ := exists_tail rest
    rw [ofRest_append_tail name hleft htail] at h
    cases h
    cases htail with
    | nothing =>
      rw [List.append_nil]
      exact .bare hleft
    | run hm =>
      split
      · rename_i hempty
        rw [hempty]
        exact .empty hleft .nothing
      · rename_i hne
        have hshape := Shape.multiplied hleft hm hne .nothing
        rwa [List.append_nil] at hshape
    | @ignored m rest hm =>
      split
      · rename_i hempty
        rw [hempty]
        exact .empty hleft (.ignored rest)
      · rename_i hne
        exact .multiplied hleft hm hne (.ignored rest)

/-- A text has at most one shape. -/
theorem Shape.unique (h : Shape rest body multiplier?) (h' : Shape rest body' multiplier?') :
    body = body' ∧ multiplier? = multiplier?' := by
  have heq := ((shape_iff []).mp h).symm.trans ((shape_iff []).mp h')
  cases heq
  exact ⟨rfl, rfl⟩

theorem Shape.underscore_notMem (h : Shape rest body multiplier?) :
    '_' ∉ body ∧ ∀ m ∈ multiplier?, '_' ∉ m ∧ m ≠ [] := by
  cases h with
  | bare hbody => exact ⟨hbody, by simp⟩
  | empty hbody _ => exact ⟨hbody, by simp⟩
  | multiplied hbody hm hne _ => exact ⟨hbody, by simp [hm, hne]⟩

/-! ## Multipliers -/

/-- A multiplier is valid iff it spells a decimal number whose value, of which there is only one, is
below the middle between the greatest finite number and the one that would come next. How many
digits it has does not matter, nor how large the exponent is. The names of numbers that are not
finite are no multipliers, in letters of any size and with any sign. What is behind the limit is the
rounding to the nearest number, `Number.Decimal.toBinary64_nearest`. -/
theorem hasValidMultiplier_iff_spelled {c : StructuredClass} {m : Text}
    (hm : c.multiplier? = some m) :
    (c.hasValidMultiplier ↔
      ∃ x : DecimalSpelling, x.text = m ∧ |x.value| < 2 ^ 1024 - 2 ^ 970) ∧
    (∀ x y : DecimalSpelling, x.text = m → y.text = m → x.value = y.value) ∧
    ∀ sign? word, m = signText sign? ++ word →
      word.map Char.toLower ∈ ["nan".toList, "inf".toList, "infinity".toList] →
        ¬c.hasValidMultiplier := by
  have hvalid : c.hasValidMultiplier ↔
      ∃ x : DecimalSpelling, x.text = m ∧ |x.value| < 2 ^ 1024 - 2 ^ 970 := by
    rw [hasValidMultiplier_iff, hm, ← Number.cast_limit, ← Number.exists_isFinite_iff]
    simp only [Option.mem_some_iff, forall_eq']
  refine ⟨hvalid, fun x y hx hy => DecimalSpelling.value_unique (hx.trans hy.symm), ?_⟩
  rintro sign? word rfl hword h
  obtain ⟨x, hx, -⟩ := hvalid.mp h
  exact x.text_ne_name sign? hword hx

/-- The limit, with all its digits. -/
def limitSpelling : DecimalSpelling where
  sign? := none
  whole := Text.ofNat Number.Binary64.limit
  fraction? := none
  exponent? := none
  isDigit_whole := fun _ h => Nat.isDigit_of_mem_toDigits (by decide) (by decide) h
  isDigit_fraction := by decide
  exists_digit := by decide +kernel

theorem value_limitSpelling : limitSpelling.value = 2 ^ 1024 - 2 ^ 970 := by
  have hwhole : Number.wholeValue limitSpelling.whole = Number.Binary64.limit := by decide +kernel
  have hfraction : Number.fractionValue limitSpelling.fraction = 0 := rfl
  have hexponent : Number.exponentValue limitSpelling.exponent? = 0 := rfl
  have hsign : limitSpelling.sign? = none := rfl
  rw [DecimalSpelling.value, hwhole, hfraction, hexponent, hsign, add_zero, zpow_zero, mul_one,
    ← Number.cast_limit]
  rfl

/-- Zero, with a large exponent. -/
def zeroSpelling : DecimalSpelling where
  sign? := some true
  whole := "00".toList
  fraction? := some "0".toList
  exponent? := some ⟨'e', .inl rfl, none, ⟨"999999".toList, by decide, by decide⟩⟩
  isDigit_whole := by decide
  isDigit_fraction := by decide
  exists_digit := by decide

theorem value_zeroSpelling : zeroSpelling.value = 0 := by
  have hwhole : Number.wholeValue zeroSpelling.whole = 0 := by decide
  have hfraction : Number.wholeValue zeroSpelling.fraction = 0 := by decide
  rw [DecimalSpelling.value, Number.fractionValue_eq, hwhole, hfraction, Nat.cast_zero, zero_div,
    add_zero, zero_mul]
  exact neg_zero

/-- The limit itself is too large, as nothing that is spelled alike has another value. Zero is not,
whatever its exponent. -/
theorem hasValidMultiplier_iff_spelled_limit_and_zero :
    (∃ c, Utility.ofName? ("oo-gap_".toList ++ limitSpelling.text) = some (.structured c) ∧
      c.multiplier? = some limitSpelling.text ∧ ¬c.hasValidMultiplier) ∧
    ∃ c, Utility.ofName? "oo-gap_-00.0e999999_x".toList = some (.structured c) ∧
      c.multiplier? = some "-00.0e999999".toList ∧ c.hasValidMultiplier := by
  constructor
  · let c : StructuredClass :=
      ⟨"oo-gap_".toList ++ limitSpelling.text, "gap".toList, some limitSpelling.text⟩
    have hm : c.multiplier? = some limitSpelling.text := rfl
    obtain ⟨hiff, hunique, -⟩ := hasValidMultiplier_iff_spelled hm
    refine ⟨c, by decide +kernel, hm, fun hvalid => ?_⟩
    obtain ⟨x, hx, hlt⟩ := hiff.mp hvalid
    rw [hunique x limitSpelling hx rfl, value_limitSpelling] at hlt
    exact (le_abs_self _).not_gt hlt
  · let c : StructuredClass :=
      ⟨"oo-gap_-00.0e999999_x".toList, "gap".toList, some "-00.0e999999".toList⟩
    have hm : c.multiplier? = some "-00.0e999999".toList := rfl
    refine ⟨c, by decide, hm, (hasValidMultiplier_iff_spelled hm).1.mpr ?_⟩
    refine ⟨zeroSpelling, by decide, ?_⟩
    rw [value_zeroSpelling, abs_zero, ← Number.cast_limit]
    exact Nat.cast_pos.mpr (by decide +kernel)

end StructuredClass

namespace Utility

open StructuredClass (Shape)

variable {name rest : Text}

/-! ## Families -/

/-- The families of class names, with one for the names of neither. -/
inductive Family where
  | structured
  | enumerated
  | other
  deriving DecidableEq, Repr

/-- A name belongs to a family iff it begins with the mark and is read as a class of the family. -/
def Family.Has (name : Text) : Family → Prop
  | .structured => structuredMark <+: name ∧ ∃ c, ofName? name = some (.structured c)
  | .enumerated => enumeratedMark <+: name ∧ ∃ c, ofName? name = some (.enumerated c)
  | .other => ofName? name = none

/-- Every name belongs to exactly one family. -/
theorem existsUnique_family (name : Text) : ∃! family : Family, family.Has name := by
  obtain h | ⟨c | c, h⟩ := (ofName? name).eq_none_or_eq_some
  · refine ⟨.other, h, ?_⟩
    rintro (_ | _ | _) hfamily
    · simp [Family.Has, h] at hfamily
    · simp [Family.Has, h] at hfamily
    · rfl
  · refine ⟨.structured, ⟨structuredMark_prefix_iff.mpr ⟨c, h⟩, c, h⟩, ?_⟩
    rintro (_ | _ | _) hfamily
    · rfl
    · simp [Family.Has, h] at hfamily
    · simp [Family.Has, h] at hfamily
  · refine ⟨.enumerated, ⟨enumeratedMark_prefix_iff.mpr ⟨c, h⟩, c, h⟩, ?_⟩
    rintro (_ | _ | _) hfamily
    · simp [Family.Has, h] at hfamily
    · rfl
    · simp [Family.Has, h] at hfamily

/-! ## What follows the mark -/

theorem stripMark_structured (rest : Text) : stripMark (structuredMark ++ rest) = rest := by
  rw [stripMark, Text.after?_append]
  rfl

theorem stripMark_enumerated (rest : Text) : stripMark (enumeratedMark ++ rest) = rest := by
  -- The two marks differ in their first character.
  have hnone : Text.after? structuredMark (enumeratedMark ++ rest) = none := rfl
  rw [stripMark, hnone, Text.after?_append]
  rfl

/-- A name of neither family begins with neither mark. -/
theorem not_mark_prefix (h : ofName? name = none) :
    ¬structuredMark <+: name ∧ ¬enumeratedMark <+: name := by
  simp [structuredMark_prefix_iff, enumeratedMark_prefix_iff, h]

/-- Nothing is taken away from a name without a mark. -/
theorem stripMark_other (h : ofName? name = none) : stripMark name = name := by
  unfold ofName? at h
  split at h
  · cases h
  · rename_i hstructured
    rw [stripMark, hstructured, Option.map_eq_none_iff.mp h]
    rfl

/-- Every name belongs to exactly one family, and nothing of it is lost. A class is named as it was
read, and its name is the mark of its family and what follows it, while a name of neither family
begins with neither mark and is left as it is. What follows the mark of a structured class has one
of three shapes, which tells the body and the multiplier of the class, neither of them with an
underscore and the multiplier not empty; no text has more than one shape. The declaration of an
enumerated class is a property and a value iff they stand on the two sides of the first underscore,
and both are there. -/
theorem ofName?_divides (name : Text) :
    (∃! family : Family, family.Has name) ∧
    (∀ c, ofName? name = some (.structured c) →
      c.name = name ∧ name = "oo-".toList ++ stripMark name ∧
      '_' ∉ c.body ∧ (∀ m ∈ c.multiplier?, '_' ∉ m ∧ m ≠ []) ∧
      ∀ body multiplier?, Shape (stripMark name) body multiplier? ↔
        body = c.body ∧ multiplier? = c.multiplier?) ∧
    (∀ c, ofName? name = some (.enumerated c) →
      c.name = name ∧ name = "ee-".toList ++ stripMark name ∧
      ∀ property value, c.declaration? = some (property, value) ↔
        stripMark name = property ++ '_' :: value ∧
          property ≠ [] ∧ '_' ∉ property ∧ value ≠ []) ∧
    (ofName? name = none →
      ¬"oo-".toList <+: name ∧ ¬"ee-".toList <+: name ∧ stripMark name = name) := by
  refine ⟨existsUnique_family name, fun c hc => ?_, fun c hc => ?_, fun h => ?_⟩
  · obtain ⟨rest, rfl, rfl⟩ := ofName?_eq_structured_iff.mp hc
    rw [stripMark_structured]
    have hread : StructuredClass.ofRest (structuredMark ++ rest) rest =
        ⟨structuredMark ++ rest, _, _⟩ := rfl
    have hshape := (StructuredClass.shape_iff _).mpr hread
    obtain ⟨hbody, hmultiplier⟩ := hshape.underscore_notMem
    refine ⟨rfl, rfl, hbody, hmultiplier, fun body multiplier? => ⟨fun h => h.unique hshape, ?_⟩⟩
    rintro ⟨rfl, rfl⟩
    exact hshape
  · obtain ⟨rest, rfl, rfl⟩ := ofName?_eq_enumerated_iff.mp hc
    rw [stripMark_enumerated]
    refine ⟨rfl, rfl, fun property value => ?_⟩
    rw [EnumeratedClass.declaration?_eq_some_iff]
    constructor
    · rintro ⟨heq, hproperty, hmem, hvalue⟩
      exact ⟨heq, hproperty, hmem, hvalue⟩
    · rintro ⟨heq, hproperty, hmem, hvalue⟩
      exact ⟨heq, hproperty, hmem, hvalue⟩
  · obtain ⟨hstructured, henumerated⟩ := not_mark_prefix h
    exact ⟨hstructured, henumerated, stripMark_other h⟩

/-- Behind a doubled underscore stands no multiplier. -/
theorem ofName?_divides_doubled_underscore :
    ∃ c, ofName? "oo-gap__2".toList = some (.structured c) ∧ c.body = "gap".toList ∧
      c.multiplier? = none := by
  let c := StructuredClass.ofRest "oo-gap__2".toList "gap__2".toList
  have hc : ofName? "oo-gap__2".toList = some (.structured c) := rfl
  obtain ⟨-, hstructured, -⟩ := ofName?_divides "oo-gap__2".toList
  obtain ⟨-, -, -, -, hshapes⟩ := hstructured c hc
  have hbody : '_' ∉ "gap".toList := by decide
  have hshape : Shape (stripMark "oo-gap__2".toList) "gap".toList none :=
    .empty hbody (.ignored "2".toList)
  obtain ⟨hbody, hmultiplier⟩ := (hshapes _ _).mp hshape
  exact ⟨c, hc, hbody.symm, hmultiplier.symm⟩

end Utility

end ClassSheet
