import ClassSheet.Proofs.Sheet.Accounting

/-!
# How enumerated classes are spelled

An enumerated class says all by itself. So whether it has a rule depends on its spelling alone, the
text of that rule on the unit besides, and no theme or policy ever enters.

* `SignedDigits`: how whole numbers are spelled.
* `EnumeratedClass.Spells`: a property and a value with an underscore between them.
* `Style.rule?_enumerated_eq_some_iff`: the rules of names that begin like enumerated classes.
* `Style.declarations_filter`: names that ask for no declaration can be left out of a root block.
* `Style.enumerated_rule_iff_spelled`: the spelling of classes with a rule, its text, and what it
  does not depend on.
-/

namespace ClassSheet

open Utility (ofName?)

/-! ## Whole numbers -/

/-- An optional sign and at least one decimal digit, of any number. -/
inductive SignedDigits : Text → Prop
  | unsigned {digits : Text} (hne : digits ≠ []) (hall : ∀ c ∈ digits, '0' ≤ c ∧ c ≤ '9') :
      SignedDigits digits
  | plus {digits : Text} (hne : digits ≠ []) (hall : ∀ c ∈ digits, '0' ≤ c ∧ c ≤ '9') :
      SignedDigits ('+' :: digits)
  | minus {digits : Text} (hne : digits ≠ []) (hall : ∀ c ∈ digits, '0' ≤ c ∧ c ≤ '9') :
      SignedDigits ('-' :: digits)

theorem isDigit_iff {c : Char} : c.isDigit ↔ '0' ≤ c ∧ c ≤ '9' := by
  simp only [Char.isDigit, Bool.and_eq_true, decide_eq_true_eq]
  rfl

/-- A run of digits without a sign. -/
theorem all_isDigit_iff {digits : Text} :
    (!digits.isEmpty && digits.all Char.isDigit) = true ↔
      digits ≠ [] ∧ ∀ c ∈ digits, '0' ≤ c ∧ c ≤ '9' := by
  simp only [Bool.and_eq_true, Bool.not_eq_true', List.isEmpty_eq_false_iff, List.all_eq_true,
    isDigit_iff]

/-- Whole numbers are the texts that are spelled as an optional sign and digits. -/
theorem isWholeNumber_iff {value : Text} : isWholeNumber value ↔ SignedDigits value := by
  constructor
  · intro h
    unfold isWholeNumber at h
    split at h
    · obtain ⟨hne, hall⟩ := all_isDigit_iff.mp h
      exact .plus hne hall
    · obtain ⟨hne, hall⟩ := all_isDigit_iff.mp h
      exact .minus hne hall
    · obtain ⟨hne, hall⟩ := all_isDigit_iff.mp h
      exact .unsigned hne hall
  · intro h
    cases h with
    | plus hne hall => exact all_isDigit_iff.mpr ⟨hne, hall⟩
    | minus hne hall => exact all_isDigit_iff.mpr ⟨hne, hall⟩
    | unsigned hne hall =>
      -- A sign is no digit, so the text is not one that begins with a sign.
      unfold isWholeNumber
      split
      · exact absurd (hall '+' (List.mem_cons_self ..)) (by decide)
      · exact absurd (hall '-' (List.mem_cons_self ..)) (by decide)
      · exact all_isDigit_iff.mpr ⟨hne, hall⟩

instance : DecidablePred SignedDigits := fun _ => decidable_of_iff _ isWholeNumber_iff

/-! ## Properties and values -/

/-- The text is a property and a value, neither of them empty, on the two sides of an underscore.
The property has no underscore itself. -/
structure EnumeratedClass.Spells (body property value : Text) : Prop where
  eq : body = property ++ '_' :: value
  property_ne : property ≠ []
  notMem : '_' ∉ property
  value_ne : value ≠ []

namespace EnumeratedClass

variable {body property value property' value' : Text}

/-- A text is a property and a value in at most one way. -/
theorem Spells.unique (h : Spells body property value) (h' : Spells body property' value') :
    property = property' ∧ value = value' := by
  have hcut := Text.cut?_eq_some_iff.mpr ⟨h.notMem, h.eq⟩
  rw [Text.cut?_eq_some_iff.mpr ⟨h'.notMem, h'.eq⟩] at hcut
  cases hcut
  exact ⟨rfl, rfl⟩

theorem declaration?_eq_some_iff {name : Text} :
    declaration? ⟨name, body⟩ = some (property, value) ↔ Spells body property value := by
  unfold declaration?
  rw [Option.filter_eq_some_iff, Text.cut?_eq_some_iff]
  simp only [Bool.and_eq_true, bne_iff_ne, ne_eq]
  constructor
  · rintro ⟨⟨hmem, heq⟩, hproperty, hvalue⟩
    exact ⟨heq, hproperty, hmem, hvalue⟩
  · rintro ⟨heq, hproperty, hmem, hvalue⟩
    exact ⟨⟨hmem, heq⟩, hproperty, hvalue⟩

end EnumeratedClass

namespace Style

open EnumeratedClass (Spells)

variable {style : Style} {body : Text} {rule : Rule}

/-! ## Rules -/

theorem ofName?_enumerated (body : Text) :
    ofName? (enumeratedMark ++ body) = some (.enumerated ⟨enumeratedMark ++ body, body⟩) :=
  Utility.ofName?_eq_enumerated_iff.mpr ⟨body, rfl, rfl⟩

/-- A name that begins like an enumerated class has the rule of the property and the value that it
spells. -/
theorem rule?_enumerated_eq_some_iff :
    style.rule? (enumeratedMark ++ body) = some rule ↔
      ∃ property value, Spells body property value ∧
        rule = .enumerated (enumeratedMark ++ body) property value
          (if SignedDigits value then style.options.unit else []) := by
  rw [rule?, ofName?_enumerated]
  show style.enumeratedRule? ⟨enumeratedMark ++ body, body⟩ = some rule ↔ _
  simp only [enumeratedRule?, Option.map_eq_some_iff, Prod.exists,
    EnumeratedClass.declaration?_eq_some_iff, isWholeNumber_iff, @eq_comm _ rule]

/-! ## Declarations -/

theorem declarationOf?_enumerated : style.declarationOf? (enumeratedMark ++ body) = none := by
  rw [declarationOf?, ofName?_enumerated]

/-- Names that ask for no declaration can be left out. -/
theorem declarations_filter {p : Text → Bool}
    (hp : ∀ name, ¬p name → style.declarationOf? name = none) (names : List Text) :
    style.declarations (names.filter p) = style.declarations names := by
  rw [declarations, declarations, ← filter_eraseDups]
  exact filterMap_filter_of_none hp _

/-- A name that begins like an enumerated class adds nothing to a root block, wherever it stands. -/
theorem countedRootBlock_enumerated (xs ys : List Text) :
    style.countedRootBlock (xs ++ (enumeratedMark ++ body) :: ys) =
      style.countedRootBlock (xs ++ ys) := by
  have hnone : ∀ name, ¬(name != enumeratedMark ++ body) → style.declarationOf? name = none := by
    intro name hname
    have heq : name = enumeratedMark ++ body := by simpa using hname
    rw [heq, declarationOf?_enumerated]
  have hdeclarations : style.declarations (xs ++ (enumeratedMark ++ body) :: ys) =
      style.declarations (xs ++ ys) := by
    rw [← declarations_filter hnone, ← declarations_filter hnone (xs ++ ys), List.filter_append,
      List.filter_append, List.filter_cons_of_neg (by simp)]
  rw [countedRootBlock_eq, countedRootBlock_eq, hdeclarations]

/-- A name behind the mark of enumerated classes has a rule iff it is spelled as a property and a
value, in the only way in which it can be. The text of the rule is then made of the name, the
property and the value, with the unit behind a value that is an optional sign and digits. The rule
depends on nothing else of the style than that unit, and there is one or not whatever the unit. The
name asks for no declaration, and leaves every root block as it is without that name. -/
theorem enumerated_rule_iff_spelled (body : Text) :
    (∀ (style : Style) (text : Text),
      (∃ rule, style.rule? ("ee-".toList ++ body) = some rule ∧ rule.write = text) ↔
        ∃ property value, Spells body property value ∧
          text = ".".toList ++ ("ee-".toList ++ body) ++ "\x7b".toList ++ property ++ ":".toList ++
            value ++ (if SignedDigits value then style.options.unit else []) ++ "\x7d".toList) ∧
    (∀ property value property' value', Spells body property value →
      Spells body property' value' → property = property' ∧ value = value') ∧
    (∀ style style' : Style, style.options.unit = style'.options.unit →
      style.rule? ("ee-".toList ++ body) = style'.rule? ("ee-".toList ++ body)) ∧
    (∀ style style' : Style, (style.rule? ("ee-".toList ++ body)).isSome =
      (style'.rule? ("ee-".toList ++ body)).isSome) ∧
    ∀ style : Style, style.declarationOf? ("ee-".toList ++ body) = none ∧
      ∀ xs ys, style.countedRootBlock (xs ++ ("ee-".toList ++ body) :: ys) =
        style.countedRootBlock (xs ++ ys) := by
  have hsome : ∀ style style' : Style, (style.rule? (enumeratedMark ++ body)).isSome →
      (style'.rule? (enumeratedMark ++ body)).isSome := by
    intro style style' h
    obtain ⟨rule, hrule⟩ := Option.isSome_iff_exists.mp h
    obtain ⟨property, value, hspells, -⟩ := rule?_enumerated_eq_some_iff.mp hrule
    exact Option.isSome_iff_exists.mpr
      ⟨_, rule?_enumerated_eq_some_iff.mpr ⟨property, value, hspells, rfl⟩⟩
  refine ⟨fun style text => ?_, fun _ _ _ _ h h' => h.unique h', fun style style' hunit => ?_,
    fun style style' => Bool.eq_iff_iff.mpr ⟨hsome style style', hsome style' style⟩,
    fun style => ⟨declarationOf?_enumerated, countedRootBlock_enumerated⟩⟩
  · constructor
    · rintro ⟨rule, hrule, rfl⟩
      obtain ⟨property, value, hspells, rfl⟩ := rule?_enumerated_eq_some_iff.mp hrule
      exact ⟨property, value, hspells, rfl⟩
    · rintro ⟨property, value, hspells, rfl⟩
      exact ⟨_, rule?_enumerated_eq_some_iff.mpr ⟨property, value, hspells, rfl⟩, rfl⟩
  · refine Option.ext fun rule => ?_
    have heq : style.rule? (enumeratedMark ++ body) = some rule ↔
        style'.rule? (enumeratedMark ++ body) = some rule := by
      rw [rule?_enumerated_eq_some_iff, rule?_enumerated_eq_some_iff, hunit]
    exact heq

/-- The value is cut off at the first underscore, and its sign and zeros are kept. -/
theorem enumerated_rule_iff_spelled_negative :
    Spells "margin_-007".toList "margin".toList "-007".toList ∧
      SignedDigits "-007".toList ∧
      ∃ rule, shadowing.rule? "ee-margin_-007".toList = some rule ∧
        rule.write = ".ee-margin_-007\x7bmargin:-007rem\x7d".toList := by
  have hspells : Spells "margin_-007".toList "margin".toList "-007".toList :=
    ⟨rfl, by decide, by decide, by decide⟩
  refine ⟨hspells, by decide, ?_⟩
  exact ((enumerated_rule_iff_spelled "margin_-007".toList).1 shadowing _).mpr
    ⟨_, _, hspells, by decide⟩

end Style

end ClassSheet
