import ClassSheet.Proofs.Outcome
import ClassSheet.Sources
import Mathlib.Data.List.Forall2

/-!
# Source texts as lists of file texts

The files with the extension that the walks from the roots meet are read one after the other. The
source text is there iff all of them hold texts, and it is those texts joined.

* `Sources.selected`: the files that are read, in order.
* `Sources.IsTextOf`: a text is what a file holds.
* `Sources.collect_eq`: reading several roots is one pass over the steps of all walks.
* `Sources.collect_eq_ok_iff`: the source text in terms of the texts of the files.
-/

namespace ClassSheet.Sources

/-- The file of a step, if it has the extension. -/
def selectedFile? (extension : Text) : Walk.Step → Option (Path × ByteArray)
  | .file path bytes => if path.hasExtension extension then some (path, bytes) else none
  | .passed _ => none

/-- The files with the extension that the walks from the roots meet, in order. -/
def selected (disk : Disk) (extension : Text) (roots : List Path) : List (Path × ByteArray) :=
  (roots.flatMap disk.walk).filterMap (selectedFile? extension)

/-- The text is what the file holds. -/
def IsTextOf (file : Path × ByteArray) (text : Text) : Prop := Disk.decodeText file.2 = .ok text

variable {disk : Disk} {extension text : Text}

theorem isTextOf_utf8_iff {path : Path} {s : Text} : IsTextOf (path, s.utf8) text ↔ text = s := by
  simp only [IsTextOf, Disk.decodeText, Text.ofUtf8?_utf8, Except.ok.injEq]
  exact eq_comm

/-! ## One pass over the steps of all walks -/

theorem joinSteps_append (steps steps' : List Walk.Step) :
    joinSteps extension (steps ++ steps') = (do
      let text ← joinSteps extension steps
      let texts ← joinSteps extension steps'
      return text ++ texts) := by
  induction steps with
  | nil =>
    rw [List.nil_append, joinSteps]
    cases joinSteps extension steps' <;> rfl
  | cons step steps ih =>
    rw [List.cons_append, joinSteps, joinSteps, ih]
    cases stepText extension step with
    | error e => rfl
    | ok text =>
      cases joinSteps extension steps with
      | error e => rfl
      | ok texts =>
        cases joinSteps extension steps' with
        | error e => rfl
        | ok texts' => simp [bind, Except.bind, pure, Except.pure]

/-- From a root that is not there the walk has no steps. -/
theorem read_eq (disk : Disk) (root : Path) (extension : Text) :
    read disk root extension = joinSteps extension (disk.walk root) := by
  unfold read
  split
  · rfl
  · rename_i hroot
    have hnone : disk.find? root = none := by simpa [Disk.contains] using hroot
    rw [Disk.walk, hnone]
    rfl

theorem collect_eq (disk : Disk) (extension : Text) (roots : List Path) :
    collect disk extension roots = joinSteps extension (roots.flatMap disk.walk) := by
  induction roots with
  | nil => rfl
  | cons root roots ih => rw [collect, read_eq, ih, List.flatMap_cons, joinSteps_append]

/-! ## The text of the selected files -/

/-- A step adds the text of its file if it has the extension, and else nothing. -/
theorem stepText_eq_ok_iff {step : Walk.Step} :
    stepText extension step = .ok text ↔
      match selectedFile? extension step with
      | some file => IsTextOf file text
      | none => text = [] := by
  cases step with
  | passed path =>
    simp only [stepText, selectedFile?, Except.ok.injEq]
    exact eq_comm
  | file path bytes =>
    simp only [stepText, selectedFile?]
    by_cases hextension : path.hasExtension extension
    · simp only [hextension, if_true, IsTextOf]
      cases Disk.decodeText bytes <;> simp
    · simp only [hextension, Bool.false_eq_true, if_false, Except.ok.injEq]
      exact eq_comm

theorem joinSteps_eq_ok_iff {steps : List Walk.Step} :
    joinSteps extension steps = .ok text ↔
      ∃ texts, List.Forall₂ IsTextOf (steps.filterMap (selectedFile? extension)) texts ∧
        text = texts.flatten := by
  induction steps generalizing text with
  | nil => simp [joinSteps, eq_comm]
  | cons step steps ih =>
    simp only [joinSteps, bind_eq_ok_iff, ih, stepText_eq_ok_iff, List.filterMap_cons]
    cases selectedFile? extension step with
    | none =>
      constructor
      · rintro ⟨_, rfl, _, ⟨texts, htexts, rfl⟩, h⟩
        cases h
        exact ⟨texts, htexts, rfl⟩
      · rintro ⟨texts, htexts, rfl⟩
        exact ⟨[], rfl, _, ⟨texts, htexts, rfl⟩, rfl⟩
    | some file =>
      constructor
      · rintro ⟨fileText, hfile, _, ⟨texts, htexts, rfl⟩, h⟩
        cases h
        exact ⟨fileText :: texts, .cons hfile htexts, rfl⟩
      · rintro ⟨_, h, rfl⟩
        cases h with
        | @cons _ fileText _ texts hfile htexts =>
          exact ⟨fileText, hfile, _, ⟨texts, htexts, rfl⟩, rfl⟩

/-- The source text is there iff all selected files hold texts, and it is those texts joined. -/
theorem collect_eq_ok_iff {roots : List Path} :
    collect disk extension roots = .ok text ↔
      ∃ texts, List.Forall₂ IsTextOf (selected disk extension roots) texts ∧
        text = texts.flatten := by
  rw [collect_eq, joinSteps_eq_ok_iff, selected]

end ClassSheet.Sources
