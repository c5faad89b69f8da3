import ClassSheet.Proofs.Distinct
import ClassSheet.Proofs.Markup.Pieces
import ClassSheet.Proofs.Markup.Spans
import Mathlib.Data.List.Forall2

/-!
# The class names of a text, described by a grammar

* `Value.Brings`: the class names that a value brings, in order.
* `Occurs`: the class names of a text, in order, as its greedy sequence of spans brings them.
* `occurrences_iff_grammar`: the class names that are found are exactly those, and a name that was
  found before is left out of the list without repeats.
-/

namespace ClassSheet.Markup

/-- The class names that a value brings: the fragments between blanks of a quoted value, or of the
pieces of a value between braces, each if it is not empty. -/
inductive Value.Brings : Value → List Text → Prop
  | quoted (inside : Text) :
      Brings (.quoted inside) ((inside.splitOnP Text.isBlank).filter (· != []))
  | braced {inside : Text} {ps : List Text} (h : Scan inside ps) :
      Brings (.braced inside)
        (ps.flatMap fun piece => (piece.splitOnP Text.isBlank).filter (· != []))

/-- The class names of a text, in order, as often as they occur. -/
def Occurs (text : Text) (names : List Text) : Prop :=
  ∃ values parts, Greedy text 0 values ∧ List.Forall₂ Value.Brings values parts ∧
    names = parts.flatten

theorem Value.classNames_eq_iff_brings {v : Value} {names : List Text} :
    v.classNames = names ↔ v.Brings names := by
  constructor
  · rintro rfl
    cases v with
    | quoted inside => exact .quoted inside
    | braced inside => exact .braced (pieces_eq_iff_scan.mp rfl)
  · intro h
    cases h with
    | quoted => rfl
    | braced hscan =>
      rw [Value.classNames, pieces_eq_iff_scan.mpr hscan]
      rfl

theorem forall₂_brings_iff {values : List Value} {parts : List (List Text)} :
    List.Forall₂ Value.Brings values parts ↔ parts = values.map Value.classNames := by
  induction values generalizing parts with
  | nil => simp
  | cons v values ih =>
    cases parts with
    | nil => simp
    | cons names parts =>
      rw [List.forall₂_cons, ih, ← Value.classNames_eq_iff_brings, List.map_cons,
        List.cons.injEq, eq_comm]

/-- The class names of a text are exactly those of its greedy sequence of class attributes; and the
list without repeats leaves out every name at a place before which it occurs. -/
theorem occurrences_iff_grammar (text : Text) (names : List Text) :
    (occurrences text = names ↔ Occurs text names) ∧
      classNames text = firstOccurrences (occurrences text) := by
  refine ⟨?_, eraseDups_eq_firstOccurrences _⟩
  constructor
  · rintro rfl
    have hvalues : Greedy text 0 (values text) := values_eq_iff_greedy.mp rfl
    refine ⟨values text, (values text).map Value.classNames, hvalues, ?_, ?_⟩
    · exact forall₂_brings_iff.mpr rfl
    · rw [occurrences, List.flatMap_def]
  · rintro ⟨vs, parts, hvalues, hparts, rfl⟩
    have hvs : values text = vs := values_eq_iff_greedy.mpr hvalues
    rw [occurrences, hvs, forall₂_brings_iff.mp hparts, List.flatMap_def]

end ClassSheet.Markup
