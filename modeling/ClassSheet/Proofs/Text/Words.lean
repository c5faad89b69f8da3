import ClassSheet.Text.Blank

/-!
# Words and the blanks around them

* Properties of all characters of a text, decided by these characters alone.
* `span_append`, `head?_dropWhile`: where the maximal run at the beginning of a text ends.
* `runs`: the maximal runs of a text between characters of some kind. The words are those between
  blanks.
* `runs_append_cons`, `runs_append`: a character of that kind ends a run.
* `IsWord`, `isWord_of_mem_words`: a run that no blank divides.
* `Spaced`: a text is made of given words and of blanks, at least one between two words.
* `Spaced.mem`: such a text has no other characters.
* `Spaced.words_eq`: the words of a text are the ones that it is made of.
-/

namespace ClassSheet.Text

/-! ## Properties of all characters of a text -/

section Decide

variable {p : Char → Prop} [DecidablePred p]

-- Batteries has an instance that tries all characters there are. Where it is imported it would be
-- found for these bounded properties too, so they have instances of their own, which go before it.

instance decidableForallMem (s : Text) : Decidable (∀ c ∈ s, p c) := List.decidableBAll p s

instance decidableForallMemOption (o : Option Char) : Decidable (∀ c ∈ o, p c) :=
  Option.decidableForallMem o

end Decide

/-! ## Maximal runs -/

/-- A run of characters with a property, behind which another character stands, is the maximal
one. -/
theorem span_append {p : Char → Bool} {run rest : Text} (hrun : ∀ c ∈ run, p c = true)
    (hrest : ∀ c ∈ rest.head?, p c = false) :
    (run ++ rest).takeWhile p = run ∧ (run ++ rest).dropWhile p = rest := by
  rw [List.takeWhile_append_of_pos hrun, List.dropWhile_append_of_pos hrun]
  cases rest with
  | nil => simp
  | cons c rest => simp [hrest c rfl]

/-- The character behind a maximal run has not the property. -/
theorem head?_dropWhile {p : Char → Bool} (s : Text) :
    ∀ c ∈ (s.dropWhile p).head?, p c = false := by
  intro c hc
  have h := List.head?_dropWhile_not p s
  rw [Option.mem_def.mp hc] at h
  simpa using h

/-! ## Runs -/

/-- What stands between separators has none. -/
theorem eq_false_of_mem_splitOnP {α : Type} {isSeparator : α → Bool} {s part : List α}
    (h : part ∈ s.splitOnP isSeparator) : ∀ c ∈ part, isSeparator c = false := by
  induction s generalizing part with
  | nil =>
    rw [List.splitOnP_nil, List.mem_singleton] at h
    simp [h]
  | cons d s ih =>
    rw [List.splitOnP_cons_eq_if_modifyHead] at h
    split at h
    · rcases List.mem_cons.mp h with rfl | h
      · simp
      · exact ih h
    · rename_i hd
      obtain ⟨first, rest, hparts⟩ := List.exists_cons_of_ne_nil (List.splitOnP_ne_nil isSeparator s)
      rw [hparts, List.modifyHead_cons] at h
      rw [hparts] at ih
      rcases List.mem_cons.mp h with rfl | h
      · exact List.forall_mem_cons.mpr ⟨Bool.eq_false_iff.mpr hd, ih List.mem_cons_self⟩
      · exact ih (List.mem_cons_of_mem _ h)

/-- The maximal runs of characters that are not separators, in order. -/
def runs (isSeparator : Char → Bool) (s : Text) : List Text :=
  (s.splitOnP isSeparator).filter (· != [])

theorem words_eq_runs (s : Text) : words s = runs isBlank s := rfl

variable {isSeparator : Char → Bool}

@[simp]
theorem runs_nil : runs isSeparator [] = [] := by
  simp [runs, List.splitOnP_nil]

/-- A separator ends a run. -/
theorem runs_append_cons {c : Char} (hc : isSeparator c) (s t : Text) :
    runs isSeparator (s ++ c :: t) = runs isSeparator s ++ runs isSeparator t := by
  unfold runs
  rw [List.splitOnP_append_cons s t hc, List.filter_append]

theorem runs_cons {c : Char} (hc : isSeparator c) (s : Text) :
    runs isSeparator (c :: s) = runs isSeparator s := by
  have hcut := runs_append_cons hc [] s
  rwa [List.nil_append, runs_nil, List.nil_append] at hcut

/-- A text that is not empty and has no separator is the only run in itself. -/
theorem runs_eq_singleton {run : Text} (hne : run ≠ []) (hrun : ∀ c ∈ run, isSeparator c = false) :
    runs isSeparator run = [run] := by
  simp [runs, List.splitOnP_eq_singleton hrun, hne]

/-- A run ends where a separator or nothing follows. -/
theorem runs_append {run rest : Text} (hne : run ≠ []) (hrun : ∀ c ∈ run, isSeparator c = false)
    (hrest : ∀ c ∈ rest.head?, isSeparator c) :
    runs isSeparator (run ++ rest) = run :: runs isSeparator rest := by
  cases rest with
  | nil => rw [List.append_nil, runs_eq_singleton hne hrun, runs_nil]
  | cons c rest =>
    have hc : isSeparator c := hrest c rfl
    rw [runs_append_cons hc, runs_eq_singleton hne hrun, runs_cons hc, List.singleton_append]

/-! ## Words -/

/-- A run of characters that is not empty and has no blank. -/
def IsWord (w : Text) : Prop := w ≠ [] ∧ ∀ c ∈ w, ¬isBlank c

theorem isWord_of_mem_words {s w : Text} (h : w ∈ words s) : IsWord w :=
  ⟨ne_nil_of_mem_words h, fun c hc => by
    simp [eq_false_of_mem_splitOnP (List.mem_filter.mp h).1 c hc]⟩

/-- A text is made of the given words, with any number of blanks around them and at least one
between two of them. -/
inductive Spaced : List Text → Text → Prop
  | blank {pad : Text} (hpad : ∀ c ∈ pad, isBlank c) : Spaced [] pad
  | last {pad w : Text} (hpad : ∀ c ∈ pad, isBlank c) (hw : IsWord w) : Spaced [w] (pad ++ w)
  | word {pad w s : Text} {c : Char} {ws : List Text} (hpad : ∀ c ∈ pad, isBlank c)
      (hw : IsWord w) (hc : isBlank c) (hrest : Spaced ws s) :
      Spaced (w :: ws) (pad ++ w ++ c :: s)

/-- Such a text has the characters of its words, and blanks. -/
theorem Spaced.mem {ws : List Text} {s : Text} {c : Char} (h : Spaced ws s) (hc : c ∈ s) :
    isBlank c ∨ ∃ w ∈ ws, c ∈ w := by
  induction h with
  | blank hpad => exact .inl (hpad c hc)
  | last hpad _ =>
    rcases List.mem_append.mp hc with hc | hc
    · exact .inl (hpad c hc)
    · exact .inr ⟨_, List.mem_cons_self, hc⟩
  | word hpad _ hblank _ ih =>
    rcases List.mem_append.mp hc with hc | hc
    · rcases List.mem_append.mp hc with hc | hc
      · exact .inl (hpad c hc)
      · exact .inr ⟨_, List.mem_cons_self, hc⟩
    · rcases List.mem_cons.mp hc with rfl | hc
      · exact .inl hblank
      · exact (ih hc).imp_right fun ⟨w, hw, hcw⟩ => ⟨w, List.mem_cons_of_mem _ hw, hcw⟩

/-- A word is the only one in itself. -/
theorem IsWord.words_eq {w : Text} (hw : IsWord w) : words w = [w] :=
  runs_eq_singleton hw.1 fun c hc => Bool.eq_false_iff.mpr (hw.2 c hc)

/-- Blanks in front of a text bring no word. -/
theorem words_blanks_append {pad : Text} (hpad : ∀ c ∈ pad, isBlank c) (s : Text) :
    words (pad ++ s) = words s := by
  induction pad with
  | nil => rfl
  | cons c pad ih =>
    rw [List.forall_mem_cons] at hpad
    rw [List.cons_append, words_eq_runs, runs_cons hpad.1]
    exact ih hpad.2

/-- The words of a text are the ones that it is made of. -/
theorem Spaced.words_eq {ws : List Text} {s : Text} (h : Spaced ws s) : words s = ws := by
  induction h with
  | @blank pad hpad =>
    have hwords := words_blanks_append hpad []
    rwa [List.append_nil, words_eq_runs [], runs_nil] at hwords
  | last hpad hw => rw [words_blanks_append hpad, hw.words_eq]
  | @word pad w s c ws hpad hw hc _ ih =>
    have hcut : words (pad ++ w ++ c :: s) = words (pad ++ w) ++ words s := runs_append_cons hc _ _
    rw [hcut, words_blanks_append hpad, hw.words_eq, ih, List.singleton_append]

end ClassSheet.Text
