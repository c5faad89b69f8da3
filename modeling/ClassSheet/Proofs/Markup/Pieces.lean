import ClassSheet.Markup.ClassNames
import ClassSheet.Proofs.Text.Words
import Mathlib.Data.List.TakeWhile

/-!
# The pieces of an expression

What a value between braces brings is described by a scan from left to right, in which every step
says what has to begin the expression and what must not.

* `IsQuote`, `IsNameChar`: the characters that matter, one by one.
* `Quoted`: a quoted run begins the expression.
* `Scan`: at each place a quoted run is taken, else a maximal bare name, else one character is
  passed over.
* `pieces_of_quoted`, `pieces_of_name`, `pieces_of_other`: the three steps of `pieces`.
* `pieces_eq_iff_scan`: the pieces of an expression are those of its scan.
-/

namespace ClassSheet.Markup

/-- One of the three quote characters. -/
def IsQuote (c : Char) : Prop := c = '"' ∨ c = '\'' ∨ c = '\x60'

instance : DecidablePred IsQuote := fun _ => inferInstanceAs (Decidable (_ ∨ _))

/-- A character of the class `[a-zA-Z0-9_-]`. -/
def IsNameChar (c : Char) : Prop :=
  ('a' ≤ c ∧ c ≤ 'z') ∨ ('A' ≤ c ∧ c ≤ 'Z') ∨ ('0' ≤ c ∧ c ≤ '9') ∨ c = '_' ∨ c = '-'

instance : DecidablePred IsNameChar :=
  fun _ => inferInstanceAs (Decidable ((_ ∧ _) ∨ (_ ∧ _) ∨ (_ ∧ _) ∨ _ ∨ _))

/-- A run without quotes, that is not empty and stands between two quotes of any kind, begins the
expression, and `rest` follows. -/
def Quoted (s run rest : Text) : Prop :=
  ∃ q q', IsQuote q ∧ IsQuote q' ∧ run ≠ [] ∧ (∀ c ∈ run, ¬IsQuote c) ∧
    s = q :: run ++ q' :: rest

/-- The scan of an expression from left to right, with the pieces that it takes. -/
inductive Scan : Text → List Text → Prop
  | done : Scan [] []
  | quoted {s run rest : Text} {ps : List Text} (h : Quoted s run rest) (hrest : Scan rest ps) :
      Scan s (run :: ps)
  | name {run rest : Text} {ps : List Text}
      (hquoted : ∀ run' rest', ¬Quoted (run ++ rest) run' rest')
      (hne : run ≠ []) (hrun : ∀ c ∈ run, IsNameChar c) (hmax : ∀ c ∈ rest.head?, ¬IsNameChar c)
      (hrest : Scan rest ps) : Scan (run ++ rest) (run :: ps)
  | skip {c : Char} {s : Text} {ps : List Text} (hquoted : ∀ run rest, ¬Quoted (c :: s) run rest)
      (hc : ¬IsNameChar c) (hrest : Scan s ps) : Scan (c :: s) ps

/-! ## The characters -/

theorem isQuote_iff {c : Char} : isQuote c = true ↔ IsQuote c := by
  simp only [isQuote, IsQuote, Bool.or_eq_true, beq_iff_eq, or_assoc]

theorem not_isQuote_iff {c : Char} : (!isQuote c) = true ↔ ¬IsQuote c := by
  rw [Bool.not_eq_true', Bool.eq_false_iff, ne_eq, isQuote_iff]

theorem isIdentifier_iff {c : Char} : isIdentifier c = true ↔ IsNameChar c := by
  have hclass : isIdentifier c =
      (((decide ('A' ≤ c ∧ c ≤ 'Z') || decide ('a' ≤ c) && decide (c ≤ 'z') ||
        decide ('0' ≤ c) && decide (c ≤ '9')) || c == '_') || c == '-') := rfl
  simp only [hclass, IsNameChar, Bool.or_eq_true, Bool.and_eq_true, decide_eq_true_eq,
    beq_iff_eq]
  constructor
  · rintro ((((h | h) | h) | rfl) | rfl)
    · exact .inr (.inl h)
    · exact .inl h
    · exact .inr (.inr (.inl h))
    · exact .inr (.inr (.inr (.inl rfl)))
    · exact .inr (.inr (.inr (.inr rfl)))
  · rintro (h | h | h | rfl | rfl)
    · exact .inl (.inl (.inl (.inr h)))
    · exact .inl (.inl (.inl (.inl h)))
    · exact .inl (.inl (.inr h))
    · exact .inl (.inr rfl)
    · exact .inr rfl

theorem isIdentifier_eq_false_iff {c : Char} : isIdentifier c = false ↔ ¬IsNameChar c := by
  rw [← isIdentifier_iff, Bool.not_eq_true]

/-- A text of name characters has no other ones. -/
theorem notMem_of_isNameChar {x : Char} (hx : ¬IsNameChar x) {s : Text}
    (hs : ∀ c ∈ s, IsNameChar c) : x ∉ s := fun hmem => hx (hs x hmem)

theorem not_isQuote_of_isNameChar {c : Char} (h : IsNameChar c) : ¬IsQuote c := by
  rintro (rfl | rfl | rfl) <;> revert h <;> unfold IsNameChar <;> decide

/-! ## Quoted runs -/

theorem quoted_cons_iff {c : Char} {s run rest : Text} :
    Quoted (c :: s) run rest ↔
      IsQuote c ∧ run ≠ [] ∧ s.takeWhile (!isQuote ·) = run ∧
        ∃ q, s.dropWhile (!isQuote ·) = q :: rest := by
  constructor
  · rintro ⟨q, q', hq, hq', hne, hrun, hs⟩
    rw [List.cons_append, List.cons.injEq] at hs
    obtain ⟨rfl, rfl⟩ := hs
    have hend : ∀ c ∈ (q' :: rest).head?, (!isQuote c) = false := by
      intro c hc
      cases hc
      simpa using isQuote_iff.mpr hq'
    obtain ⟨htake, hdrop⟩ := Text.span_append (fun c hc => not_isQuote_iff.mpr (hrun c hc)) hend
    exact ⟨hq, hne, htake, q', hdrop⟩
  · rintro ⟨hc, hne, rfl, q, hq⟩
    refine ⟨c, q, hc, ?_, hne, ?_, ?_⟩
    · have h := Text.head?_dropWhile (p := (!isQuote ·)) s q (by rw [hq]; rfl)
      rw [← isQuote_iff]
      simpa using h
    · intro d hd
      have h := List.mem_takeWhile_imp hd
      exact not_isQuote_iff.mp h
    · rw [← hq, List.cons_append, List.takeWhile_append_dropWhile]

theorem Quoted.length_lt {s run rest : Text} (h : Quoted s run rest) :
    rest.length < s.length := by
  obtain ⟨q, q', -, -, -, -, rfl⟩ := h
  simp only [List.length_append, List.length_cons]
  omega

/-! ## The three steps -/

theorem pieces_of_quoted {s run rest : Text} (h : Quoted s run rest) :
    pieces s = run :: pieces rest := by
  cases s with
  | nil =>
    have := h.length_lt
    simp at this
  | cons c s =>
    obtain ⟨hc, hne, htake, q, hdrop⟩ := quoted_cons_iff.mp h
    rw [pieces, if_pos (isQuote_iff.mpr hc)]
    split
    · rename_i d run' q' rest' htake' hdrop'
      rw [hdrop] at hdrop'
      rw [htake] at htake'
      cases hdrop'
      cases htake'
      rfl
    · rename_i hno
      cases run with
      | nil => exact absurd rfl hne
      | cons d run => exact absurd htake (fun e => hno d run q rest e hdrop)

theorem pieces_of_name {c : Char} {s : Text} (hc : IsNameChar c) :
    pieces (c :: s) =
      (c :: s.takeWhile isIdentifier) :: pieces (s.dropWhile isIdentifier) := by
  have hquote : ¬isQuote c = true := by
    rw [isQuote_iff]
    exact not_isQuote_of_isNameChar hc
  rw [pieces, if_neg hquote, if_pos (isIdentifier_iff.mpr hc)]

theorem pieces_of_other {c : Char} {s : Text} (hquoted : ∀ run rest, ¬Quoted (c :: s) run rest)
    (hc : ¬IsNameChar c) : pieces (c :: s) = pieces s := by
  rw [pieces]
  split
  · rename_i hquote
    split
    · rename_i d run q rest htake hdrop
      have h := quoted_cons_iff.mpr
        ⟨isQuote_iff.mp hquote, List.cons_ne_nil d run, htake, q, hdrop⟩
      exact absurd h (hquoted _ _)
    · rfl
  · rw [if_neg (by rwa [isIdentifier_iff])]

/-! ## The scan -/

/-- Whatever a scan takes is what `pieces` takes. -/
theorem Scan.pieces_eq {s : Text} {ps : List Text} (h : Scan s ps) : pieces s = ps := by
  induction h with
  | done => rw [pieces]
  | quoted hquoted _ ih => rw [pieces_of_quoted hquoted, ih]
  | @name run rest ps hquoted hne hrun hmax _ ih =>
    cases run with
    | nil => exact absurd rfl hne
    | cons c run =>
      have hspan := Text.span_append (p := isIdentifier)
        (fun d hd => isIdentifier_iff.mpr (hrun d (List.mem_cons_of_mem c hd)))
        (fun d hd => isIdentifier_eq_false_iff.mpr (hmax d hd))
      rw [List.cons_append, pieces_of_name (hrun c List.mem_cons_self), hspan.1, hspan.2, ih]
  | skip hquoted hc _ ih => rw [pieces_of_other hquoted hc, ih]

/-- What `pieces` takes is a scan. The induction is on what is left of the expression, and the cases
are those of the scan. -/
theorem scan_pieces (s : Text) : Scan s (pieces s) := by
  by_cases hquoted : ∃ run rest, Quoted s run rest
  · obtain ⟨run, rest, h⟩ := hquoted
    have := h.length_lt
    rw [pieces_of_quoted h]
    exact .quoted h (scan_pieces rest)
  · have hquoted : ∀ run rest, ¬Quoted s run rest := by
      intro run rest h
      exact hquoted ⟨run, rest, h⟩
    cases s with
    | nil =>
      rw [pieces]
      exact .done
    | cons c s =>
      by_cases hc : IsNameChar c
      · have hle := (List.dropWhile_sublist isIdentifier (l := s)).length_le
        have hrest := scan_pieces (s.dropWhile isIdentifier)
        rw [pieces_of_name hc]
        have hs : c :: s = (c :: s.takeWhile isIdentifier) ++ s.dropWhile isIdentifier := by
          rw [List.cons_append, List.takeWhile_append_dropWhile]
        rw [hs] at hquoted ⊢
        refine .name hquoted (List.cons_ne_nil _ _) ?_ ?_ hrest
        · intro d hd
          rcases List.mem_cons.mp hd with rfl | hd
          · exact hc
          · exact isIdentifier_iff.mp (List.mem_takeWhile_imp hd)
        · intro d hd
          exact isIdentifier_eq_false_iff.mp (Text.head?_dropWhile s d hd)
      · rw [pieces_of_other hquoted hc]
        exact .skip hquoted hc (scan_pieces s)
termination_by s.length

/-- The pieces of an expression are those of its scan. -/
theorem pieces_eq_iff_scan {s : Text} {ps : List Text} : pieces s = ps ↔ Scan s ps := by
  constructor
  · rintro rfl
    exact scan_pieces s
  · exact Scan.pieces_eq

end ClassSheet.Markup
