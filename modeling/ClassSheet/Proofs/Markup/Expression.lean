import ClassSheet.Proofs.Markup.Pieces
import ClassSheet.Proofs.Markup.Spans
import ClassSheet.Proofs.Text.Words

/-!
# Expressions with string literals

A value between braces is an expression: code, and string literals in it, each between two quotes
of the same kind. A literal brings the words between its quotes, and code brings its maximal bare
names, unless a literal is empty. Nothing is found between its two quotes, so the second of them is
free to open a quoted run, which takes the code behind it up to the next literal. From there on code
and literals have changed places.

* `Expression`: code and literals by turns.
* `Expression.names`: the class names of its parts, each part for itself.
* `Expression.found`: the class names when the second quote of an empty literal opens a run.
* `Expression.Settled`: no code stands between an empty literal and another literal.
* `pieces_code_append`, `pieces_quotes`: what is found in code, and in two quotes with nothing
  between them.
* `occurrences_expression`: what is found in every expression, and that in settled ones it is what
  the parts bring.
* `literal_after_empty_is_cut`: in others it need not be.
-/

namespace ClassSheet.Markup

/-- A text without quotes. -/
abbrev Plain : Type := { s : Text // ∀ c ∈ s, ¬IsQuote c }

/-- A string literal: a text without quotes, possibly empty, between two equal quotes. -/
structure Literal where
  quote : Char
  content : Plain
  isQuote : IsQuote quote

/-- Code in front of the first literal, and the literals, each with the code behind it. -/
structure Expression where
  head : Plain
  literals : List (Literal × Plain)

/-- A literal as it is written. -/
def Literal.text (l : Literal) : Text := l.quote :: (l.content.val ++ [l.quote])

namespace Expression

/-- Literals as they are written, each with the code behind it. -/
def literalsText (literals : List (Literal × Plain)) : Text :=
  literals.flatMap fun p => p.1.text ++ p.2.val

/-- An expression as it is written. -/
def text (e : Expression) : Text := e.head.val ++ literalsText e.literals

/-- An attribute with the expression as its value. -/
def inBraces (e : Expression) : Text := "className".toList ++ '=' :: '{' :: (e.text ++ ['}'])

end Expression

/-- The maximal bare names of code. -/
def bareNames (code : Text) : List Text := Text.runs (!isIdentifier ·) code

namespace Expression

/-- The class names of an expression: the bare names of its code and the words of its literals, in
order. -/
def names (e : Expression) : List Text :=
  bareNames e.head.val ++
    e.literals.flatMap fun p => Text.words p.1.content.val ++ bareNames p.2.val

/-- The class names that are found in code, possibly with a quote in front of it that has opened
nothing yet, and in the literals behind it. Such a quote opens a run over the code, if there is some
and a literal ends it, and then what the literal contains is taken for code. -/
def foundFrom (quotePending : Bool) (code : Plain) : List (Literal × Plain) → List Text
  | [] => bareNames code.val
  | (l, next) :: literals =>
    if quotePending ∧ code.val ≠ [] then
      Text.words code.val ++ bareNames l.content.val ++ foundFrom true next literals
    else
      bareNames code.val ++ Text.words l.content.val ++
        foundFrom (l.content.val = []) next literals

/-- The class names that are found in an expression. -/
def found (e : Expression) : List Text := foundFrom false e.head e.literals

/-- Every empty literal is the last one or has another literal right behind it. -/
def Settled (e : Expression) : Prop :=
  ∀ p ∈ e.literals.dropLast, p.1.content.val = [] → p.2.val = []

instance (e : Expression) : Decidable e.Settled :=
  inferInstanceAs (Decidable (∀ p ∈ e.literals.dropLast, p.1.content.val = [] → p.2.val = []))

end Expression

/-! ## Code -/

/-- Name characters lie between the hyphen and the small `z`, and no blank does. -/
theorem not_isBlank_of_isNameChar {c : Char} (h : IsNameChar c) : ¬Text.isBlank c := by
  have hrange : 0x2D ≤ c.toNat ∧ c.toNat ≤ 0x7A := by
    simp only [IsNameChar, Char.le_def, UInt32.le_iff_toNat_le] at h
    rcases h with ⟨hlow, hhigh⟩ | ⟨hlow, hhigh⟩ | ⟨hlow, hhigh⟩ | rfl | rfl
    · change 97 ≤ c.toNat at hlow
      change c.toNat ≤ 122 at hhigh
      omega
    · change 65 ≤ c.toNat at hlow
      change c.toNat ≤ 90 at hhigh
      omega
    · change 48 ≤ c.toNat at hlow
      change c.toNat ≤ 57 at hhigh
      omega
    · decide
    · decide
  intro hblank
  simp only [Text.isBlank, Text.blankRanges, List.any_cons, List.any_nil, Bool.or_false,
    Bool.or_eq_true, Bool.and_eq_true, decide_eq_true_eq] at hblank
  omega

theorem bareNames_of_name {c : Char} {s : Text} (hc : IsNameChar c) :
    bareNames (c :: s) =
      (c :: s.takeWhile isIdentifier) :: bareNames (s.dropWhile isIdentifier) := by
  have hrun : ∀ d ∈ c :: s.takeWhile isIdentifier, (!isIdentifier d) = false := by
    intro d hd
    rcases List.mem_cons.mp hd with rfl | hd
    · simpa using isIdentifier_iff.mpr hc
    · simpa using List.mem_takeWhile_imp hd
  have hrest : ∀ d ∈ (s.dropWhile isIdentifier).head?, !isIdentifier d := by
    intro d hd
    simpa using Text.head?_dropWhile s d hd
  have hsplit : c :: s = (c :: s.takeWhile isIdentifier) ++ s.dropWhile isIdentifier := by
    rw [List.cons_append, List.takeWhile_append_dropWhile]
  rw [bareNames, hsplit]
  exact Text.runs_append (List.cons_ne_nil _ _) hrun hrest

theorem bareNames_of_other {c : Char} {s : Text} (hc : ¬IsNameChar c) :
    bareNames (c :: s) = bareNames s :=
  Text.runs_cons (by simpa using isIdentifier_eq_false_iff.mpr hc) s

/-- Code up to the next quote, or up to the end, brings its bare names. The induction is on what is
left of the code; each bare name is a word by itself. -/
theorem pieces_code_append {code s : Text} (hcode : ∀ c ∈ code, ¬IsQuote c)
    (hs : ∀ c ∈ s.head?, IsQuote c) :
    (pieces (code ++ s)).flatMap Text.words =
      bareNames code ++ (pieces s).flatMap Text.words := by
  match code, hcode with
  | [], _ => rw [List.nil_append, bareNames, Text.runs_nil, List.nil_append]
  | c :: code, hcode =>
    rw [List.forall_mem_cons] at hcode
    by_cases hc : IsNameChar c
    · have hname : ∀ d ∈ code.takeWhile isIdentifier, isIdentifier d = true :=
        fun d hd => List.mem_takeWhile_imp hd
      have hend : ∀ d ∈ (code.dropWhile isIdentifier ++ s).head?, isIdentifier d = false := by
        intro d hd
        cases hrest : code.dropWhile isIdentifier with
        | nil =>
          rw [hrest, List.nil_append] at hd
          exact isIdentifier_eq_false_iff.mpr fun h => not_isQuote_of_isNameChar h (hs d hd)
        | cons d' rest =>
          rw [hrest] at hd
          exact Text.head?_dropWhile code d (by rw [hrest]; exact hd)
      have hsplit : code ++ s =
          code.takeWhile isIdentifier ++ (code.dropWhile isIdentifier ++ s) := by
        rw [← List.append_assoc, List.takeWhile_append_dropWhile]
      obtain ⟨htake, hdrop⟩ := Text.span_append hname hend
      rw [← hsplit] at htake hdrop
      have hword : Text.IsWord (c :: code.takeWhile isIdentifier) := by
        refine ⟨List.cons_ne_nil _ _, fun d hd => not_isBlank_of_isNameChar ?_⟩
        rcases List.mem_cons.mp hd with rfl | hd
        · exact hc
        · exact isIdentifier_iff.mp (hname d hd)
      have hle := (List.dropWhile_sublist isIdentifier (l := code)).length_le
      have hplain : ∀ d ∈ code.dropWhile isIdentifier, ¬IsQuote d :=
        fun d hd => hcode.2 d ((List.dropWhile_sublist _).subset hd)
      have hrest := pieces_code_append hplain hs
      rw [List.cons_append, pieces_of_name hc, htake, hdrop, List.flatMap_cons, hword.words_eq,
        hrest, bareNames_of_name hc, List.singleton_append, List.cons_append]
    · have hquoted : ∀ run rest, ¬Quoted (c :: (code ++ s)) run rest := by
        intro run rest h
        exact hcode.1 (quoted_cons_iff.mp h).1
      rw [List.cons_append, pieces_of_other hquoted hc, bareNames_of_other hc]
      exact pieces_code_append hcode.2 hs
termination_by code.length

/-! ## Literals -/

theorem not_isNameChar_of_isQuote {q : Char} (hq : IsQuote q) : ¬IsNameChar q :=
  fun h => not_isQuote_of_isNameChar h hq

/-- A quote with another one right behind it opens nothing. -/
theorem pieces_quotes {q q' : Char} (hq : IsQuote q) (hq' : IsQuote q') (s : Text) :
    pieces (q :: q' :: s) = pieces (q' :: s) := by
  refine pieces_of_other (fun run rest h => ?_) (not_isNameChar_of_isQuote hq)
  obtain ⟨-, hne, htake, -⟩ := quoted_cons_iff.mp h
  have hend : (!isQuote q') = false := by simpa using isQuote_iff.mpr hq'
  rw [List.takeWhile_cons, hend] at htake
  exact hne htake.symm

/-- A quote with none behind it opens nothing. -/
theorem pieces_quote_of_plain {q : Char} (hq : IsQuote q) (code : Plain) :
    pieces (q :: code.val) = pieces code.val := by
  refine pieces_of_other (fun run rest h => ?_) (not_isNameChar_of_isQuote hq)
  obtain ⟨-, -, -, q', hdrop⟩ := quoted_cons_iff.mp h
  have hall : code.val.dropWhile (!isQuote ·) = [] := by
    rw [List.dropWhile_eq_nil_iff]
    exact fun c hc => not_isQuote_iff.mpr (code.property c hc)
  rw [hall] at hdrop
  cases hdrop

/-- A run between two quotes is a piece, whatever stands around them. -/
theorem pieces_run {q q' : Char} (hq : IsQuote q) (hq' : IsQuote q') {run : Plain}
    (hrun : run.val ≠ []) (s : Text) :
    pieces (q :: (run.val ++ q' :: s)) = run.val :: pieces s :=
  pieces_of_quoted ⟨q, q', hq, hq', hrun, run.property, rfl⟩

namespace Expression

theorem literalsText_cons (l : Literal) (next : Plain) (literals : List (Literal × Plain)) :
    literalsText ((l, next) :: literals) =
      l.quote :: (l.content.val ++ l.quote :: (next.val ++ literalsText literals)) := by
  simp [literalsText, Literal.text]

theorem pieces_plain (code : Plain) :
    (pieces code.val).flatMap Text.words = bareNames code.val := by
  have h := pieces_code_append (s := []) code.property (by simp)
  have hnil : pieces [] = [] := by rw [pieces]
  rwa [List.append_nil, hnil, List.flatMap_nil, List.append_nil] at h

section Step

variable {literals : List (Literal × Plain)} {next : Plain}

/-- A literal brings its words. If it is empty, its second quote is pending behind it. -/
theorem pieces_literal (l : Literal)
    (hnext : (pieces (next.val ++ literalsText literals)).flatMap Text.words =
      foundFrom false next literals)
    (hpending : ∀ q, IsQuote q →
      (pieces (q :: (next.val ++ literalsText literals))).flatMap Text.words =
        foundFrom true next literals) :
    (pieces (literalsText ((l, next) :: literals))).flatMap Text.words =
      Text.words l.content.val ++ foundFrom (l.content.val = []) next literals := by
  rw [literalsText_cons]
  by_cases hempty : l.content.val = []
  · have hwords : Text.words [] = [] := Text.runs_nil
    rw [hempty, List.nil_append, pieces_quotes l.isQuote l.isQuote, hpending _ l.isQuote, hwords,
      List.nil_append, decide_eq_true rfl]
  · rw [pieces_run l.isQuote l.isQuote hempty, List.flatMap_cons, hnext, decide_eq_false hempty]

/-- A pending quote takes the code up to the next literal, and what that contains is taken for
code. The second quote of the literal is pending again. -/
theorem pieces_pending {q : Char} (hq : IsQuote q) {code : Plain} (hcode : code.val ≠ [])
    (l : Literal)
    (hpending : ∀ q, IsQuote q →
      (pieces (q :: (next.val ++ literalsText literals))).flatMap Text.words =
        foundFrom true next literals) :
    (pieces (q :: (code.val ++ literalsText ((l, next) :: literals)))).flatMap Text.words =
      Text.words code.val ++ bareNames l.content.val ++ foundFrom true next literals := by
  rw [literalsText_cons, pieces_run hq l.isQuote hcode, List.flatMap_cons,
    pieces_code_append l.content.property, hpending _ l.isQuote, List.append_assoc]
  intro c hc
  cases hc
  exact l.isQuote

end Step

/-- What is found in code and the literals behind it, without a pending quote in front of the code
and with one. The induction is on the literals, for both at once. -/
theorem flatMap_words_pieces (literals : List (Literal × Plain)) (code : Plain) :
    (pieces (code.val ++ literalsText literals)).flatMap Text.words =
        foundFrom false code literals ∧
      ∀ q, IsQuote q → (pieces (q :: (code.val ++ literalsText literals))).flatMap Text.words =
        foundFrom true code literals := by
  induction literals generalizing code with
  | nil =>
    rw [literalsText, List.flatMap_nil, List.append_nil]
    refine ⟨pieces_plain code, fun q hq => ?_⟩
    rw [pieces_quote_of_plain hq, pieces_plain]
    rfl
  | cons p literals ih =>
    obtain ⟨l, next⟩ := p
    obtain ⟨hnext, hpending⟩ := ih next
    have hliteral := pieces_literal l hnext hpending
    have hquote : ∀ c ∈ (literalsText ((l, next) :: literals)).head?, IsQuote c := by
      intro c hc
      rw [literalsText_cons] at hc
      cases hc
      exact l.isQuote
    constructor
    · rw [pieces_code_append code.property hquote, hliteral, foundFrom,
        if_neg (fun h => Bool.false_ne_true h.1), List.append_assoc]
    · intro q hq
      by_cases hempty : code.val = []
      · rw [foundFrom, if_neg (fun h => h.2 hempty), hempty, List.nil_append, bareNames,
          Text.runs_nil, List.nil_append, ← hliteral, literalsText_cons,
          pieces_quotes hq l.isQuote]
      · rw [pieces_pending hq hempty l hpending, foundFrom, if_pos ⟨rfl, hempty⟩]

/-- Without code between an empty literal and the next literal, each part brings its own names. -/
theorem foundFrom_eq {quotePending : Bool} {code : Plain} {literals : List (Literal × Plain)}
    (hpending : quotePending → literals ≠ [] → code.val = [])
    (hsettled : ∀ p ∈ literals.dropLast, p.1.content.val = [] → p.2.val = []) :
    foundFrom quotePending code literals = bareNames code.val ++
      literals.flatMap fun p => Text.words p.1.content.val ++ bareNames p.2.val := by
  induction literals generalizing quotePending code with
  | nil => rw [foundFrom, List.flatMap_nil, List.append_nil]
  | cons p literals ih =>
    obtain ⟨l, next⟩ := p
    have hcode : ¬(quotePending ∧ code.val ≠ []) :=
      fun h => h.2 (hpending h.1 (List.cons_ne_nil _ _))
    rw [foundFrom, if_neg hcode, List.flatMap_cons, ih, List.append_assoc, List.append_assoc]
    · intro hempty hne
      have hmem : (l, next) ∈ ((l, next) :: literals).dropLast := by
        rw [List.dropLast_cons_of_ne_nil hne]
        exact List.mem_cons_self
      exact hsettled _ hmem (of_decide_eq_true hempty)
    · intro p hp
      have hne : literals ≠ [] := by
        rintro rfl
        simp at hp
      refine hsettled p ?_
      rw [List.dropLast_cons_of_ne_nil hne]
      exact List.mem_cons_of_mem _ hp

/-! ## Expressions as values -/

theorem occurrences_inBraces (e : Expression) (hbrace : '}' ∉ e.text) :
    occurrences e.inBraces = (pieces e.text).flatMap Text.words := by
  unfold inBraces
  generalize e.text = s at hbrace ⊢
  by_cases hempty : s = []
  · have hpieces : pieces [] = [] := by rw [pieces]
    subst hempty
    rw [hpieces]
    decide +kernel
  · have hbegins :
        Begins true ("className".toList ++ '=' :: '{' :: (s ++ ['}'])) (.braced s) [] := by
      refine ⟨[], "className".toList, _, .inr ⟨rfl, rfl⟩, .inl rfl,
        .brace hempty hbrace, ?_⟩
      rw [List.nil_append, List.append_nil]
    rw [occurrences, values, valuesFrom_of_begins hbegins, valuesFrom_nil, List.flatMap_singleton,
      Value.classNames]

/-- The class names of an expression are found with the second quote of every empty literal open
for a run; and if every empty literal is the last one or has another literal right behind it, they
are the bare names of the code and the words of the literals, in order. -/
theorem occurrences_expression (e : Expression) (hbrace : '}' ∉ e.text) :
    occurrences e.inBraces = e.found ∧ (e.Settled → occurrences e.inBraces = e.names) := by
  have hfound : occurrences e.inBraces = e.found := by
    rw [occurrences_inBraces e hbrace]
    exact (flatMap_words_pieces e.literals e.head).1
  refine ⟨hfound, fun hsettled => ?_⟩
  rw [hfound]
  exact foundFrom_eq (fun h => absurd h Bool.false_ne_true) hsettled

/-- The expression `cx("md:flex"+""'a b', "")`. -/
def emptyBetween : Expression where
  head := ⟨"cx(".toList, by decide⟩
  literals :=
    [(⟨'"', ⟨"md:flex".toList, by decide⟩, by decide⟩, ⟨"+".toList, by decide⟩),
     (⟨'"', ⟨[], by decide⟩, by decide⟩, ⟨[], by decide⟩),
     (⟨'\'', ⟨"a b".toList, by decide⟩, by decide⟩, ⟨", ".toList, by decide⟩),
     (⟨'"', ⟨[], by decide⟩, by decide⟩, ⟨")".toList, by decide⟩)]

/-- Empty literals do no harm right in front of another literal, and at the end. -/
theorem occurrences_expression_empty_between :
    '}' ∉ emptyBetween.text ∧ emptyBetween.Settled ∧
      occurrences emptyBetween.inBraces =
        ["cx".toList, "md:flex".toList, "a".toList, "b".toList] := by
  have hbrace : '}' ∉ emptyBetween.text := by decide
  have hsettled : emptyBetween.Settled := by decide
  obtain ⟨-, hnames⟩ := occurrences_expression emptyBetween hbrace
  refine ⟨hbrace, hsettled, ?_⟩
  rw [hnames hsettled]
  decide +kernel

/-- The expression `cx("", "md:flex")`. -/
def emptyFirst : Expression where
  head := ⟨"cx(".toList, by decide⟩
  literals :=
    [(⟨'"', ⟨[], by decide⟩, by decide⟩, ⟨", ".toList, by decide⟩),
     (⟨'"', ⟨"md:flex".toList, by decide⟩, by decide⟩, ⟨")".toList, by decide⟩)]

/-- Behind an empty literal the comma is taken for a class name, and the name in the next literal is
cut at its colon. -/
theorem literal_after_empty_is_cut :
    '}' ∉ emptyFirst.text ∧
      occurrences emptyFirst.inBraces =
        ["cx".toList, ",".toList, "md".toList, "flex".toList] ∧
      emptyFirst.names = ["cx".toList, "md:flex".toList] := by
  refine ⟨by decide, ?_, ?_⟩
  · decide +kernel
  · decide +kernel

end Expression

end ClassSheet.Markup
