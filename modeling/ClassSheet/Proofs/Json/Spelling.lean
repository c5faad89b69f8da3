import ClassSheet.Json.Read
import ClassSheet.Proofs.Text.Words

/-!
# How JSON values are spelled

A value has many spellings: there may be blanks between any two parts of it, the characters of a
string may be escaped, and numbers are written in several ways. A spelling is a value with all these
choices made. It has a text, and it has a tree, in which the choices do not show.

* `Json.Blanks`, `Json.Symbol`, `Json.NumberSpelling`: the parts of spellings.
* `Json.Spelling`, `Json.ItemSpellings`, `Json.MemberSpellings`: values, items and members.
* `Json.DocumentSpelling`: a value with blanks around it, which is a whole text.
* `Json.readParts_symbols`, `Json.NumberSpelling.readNumber_append`: the parts are read back.
* `Json.Spelling.readTree_append`: what is read from the text of a spelling is its tree.
* `Json.Spelling.skip_tree`: nothing in that tree is broken.
* `Json.DocumentSpelling.ofText_toText`, `Json.DocumentSpelling.readDocument_toText`: so it is for whole
  texts.
-/

namespace ClassSheet.Json

open Number (ofDigits spanDigits spanSign signed)

/-! ## Blanks -/

/-- Any number of blanks. -/
structure Blanks where
  text : Text
  blank : ∀ c ∈ text, isJsonBlank c = true

theorem skipBlanks_append (pad : Blanks) (s : Text) : skipBlanks (pad.text ++ s) = skipBlanks s := by
  rw [skipBlanks, List.dropWhile_append_of_pos pad.blank]
  rfl

theorem skipBlanks_cons {c : Char} (h : isJsonBlank c = false) (s : Text) :
    skipBlanks (c :: s) = c :: s := by
  rw [skipBlanks, List.dropWhile_cons_of_neg (by simp [h])]

/-! ## Strings -/

/-- Whether a character can stand for itself in a string. -/
def isPlain (c : Char) : Bool := c != '"' && c != '\\' && ' ' ≤ c

/-- A character of a string as it is written, or half of one. -/
inductive Symbol where
  | plain (c : Char) (h : isPlain c = true)
  /-- The letter behind a backslash, and what it stands for. -/
  | escape (letter c : Char) (h : simpleEscape? letter = some c)
  /-- The four digits of a code. -/
  | code (a b c d : Char) (n : Nat) (h : hexCode? a b c d = some n)

namespace Symbol

def text : Symbol → Text
  | plain c _ => [c]
  | escape letter _ _ => ['\\', letter]
  | code a b c d _ _ => ['\\', 'u', a, b, c, d]

/-- What the symbol stands for. -/
def part : Symbol → StringPart
  | plain c _ => .char c
  | escape _ c _ => .char c
  | code _ _ _ _ n _ => .code n

/-- The text of a string, if no half of a surrogate pair stands alone in it. -/
def value? (symbols : List Symbol) : Option Text :=
  (joinParts .malformed (symbols.map part)).toOption

theorem readParts_cons (x : Symbol) (s : Text) :
    readParts (x.text ++ s) = (x.part :: (readParts s).1, (readParts s).2) := by
  cases x with
  | plain c h =>
    simp only [isPlain, Bool.and_eq_true, bne_iff_ne, decide_eq_true_eq] at h
    obtain ⟨⟨hquote, hback⟩, hcontrol⟩ := h
    have hlt : ¬c < ' ' := by simpa using hcontrol
    show readParts (c :: s) = _
    rw [readParts]
    · rw [if_neg hlt]
      rfl
    all_goals simp_all
  | escape letter c h =>
    have hletter : letter ≠ 'u' := by
      rintro rfl
      cases h
    show readParts ('\\' :: letter :: s) = _
    rw [readParts]
    · rw [h]
      rfl
    all_goals simp_all
  | code a b c d n h =>
    show readParts ('\\' :: 'u' :: a :: b :: c :: d :: s) = _
    rw [readParts, h]
    rfl

end Symbol

/-- The symbols of a string are read up to its closing quote. -/
theorem readParts_symbols (symbols : List Symbol) (rest : Text) :
    readParts (symbols.flatMap Symbol.text ++ '"' :: rest) = (symbols.map Symbol.part, .ok rest) := by
  induction symbols with
  | nil => rfl
  | cons x symbols ih =>
    rw [List.flatMap_cons, List.append_assoc, Symbol.readParts_cons, ih]
    rfl

theorem readString_symbols (symbols : List Symbol) (rest : Text) :
    readString (symbols.flatMap Symbol.text ++ '"' :: rest) =
      (.ok (Symbol.value? symbols), rest) := by
  rw [readString, readParts_symbols]
  rfl

/-! ## Numbers -/

/-- A run of digits. -/
structure Digits where
  text : Text
  ne_nil : text ≠ []
  isDigit : ∀ c ∈ text, c.isDigit = true

/-- The end of a number with an exponent. -/
structure Exponent where
  letter : Char
  isLetter : letter = 'e' ∨ letter = 'E'
  /-- The sign, if one is written; `true` stands for a minus sign. -/
  sign? : Option Bool
  digits : Digits

/-- A number as it is written. -/
structure NumberSpelling where
  negative : Bool
  whole : Digits
  /-- A leading zero stands alone. -/
  leading : whole.text.head? = some '0' → whole.text = ['0']
  fraction? : Option Digits
  exponent? : Option Exponent

/-- The sign of an exponent as it is written. -/
def signText : Option Bool → Text
  | none => []
  | some false => ['+']
  | some true => ['-']

namespace Exponent

def text (e : Exponent) : Text := e.letter :: (signText e.sign? ++ e.digits.text)

def value (e : Exponent) : Int := signed (e.sign? == some true) (ofDigits e.digits.text)

end Exponent

/-- A text goes on with something that does not belong to a number. -/
def EndsNumber (rest : Text) : Prop :=
  ∀ c ∈ rest.head?, c.isDigit = false ∧ c ≠ '.' ∧ c ≠ 'e' ∧ c ≠ 'E'

/-- Digits are read up to what is none, and there may be no digit at all. -/
theorem spanDigits_run {digits rest : Text} (hdigits : ∀ c ∈ digits, c.isDigit = true)
    (h : ∀ c ∈ rest.head?, c.isDigit = false) : spanDigits (digits ++ rest) = (digits, rest) := by
  obtain ⟨htake, hdrop⟩ := Text.span_append hdigits h
  rw [spanDigits, htake, hdrop]

theorem spanDigits_append (d : Digits) {rest : Text} (h : ∀ c ∈ rest.head?, c.isDigit = false) :
    spanDigits (d.text ++ rest) = (d.text, rest) :=
  spanDigits_run d.isDigit h

theorem ne_sign_of_isDigit {c : Char} (h : c.isDigit = true) : c ≠ '+' ∧ c ≠ '-' := by
  constructor
  · rintro rfl
    cases h
  · rintro rfl
    cases h

/-- A sign is read if one is written, in front of a text that does not begin like one itself. -/
theorem spanSign_signText (sign? : Option Bool) {rest : Text}
    (h : ∀ c ∈ rest.head?, c ≠ '+' ∧ c ≠ '-') :
    spanSign (signText sign? ++ rest) = (sign? == some true, rest) := by
  match sign? with
  | some true => rfl
  | some false => rfl
  | none =>
    rw [signText, List.nil_append]
    unfold spanSign
    split
    · exact absurd rfl (h '+' rfl).1
    · exact absurd rfl (h '-' rfl).2
    · rfl

theorem spanSign_append (sign? : Option Bool) (d : Digits) (rest : Text) :
    spanSign (signText sign? ++ (d.text ++ rest)) = (sign? == some true, d.text ++ rest) := by
  obtain ⟨c, digits, hd⟩ := List.exists_cons_of_ne_nil d.ne_nil
  have hc : c.isDigit = true := d.isDigit c (by simp [hd])
  refine spanSign_signText sign? ?_
  rw [hd]
  rintro _ ⟨⟩
  exact ne_sign_of_isDigit hc

namespace NumberSpelling

variable {negative point : Bool} {whole fraction rest : Text}

def fractionText : Option Digits → Text
  | none => []
  | some d => '.' :: d.text

def exponentText : Option Exponent → Text
  | none => []
  | some e => e.text

def text (x : NumberSpelling) : Text :=
  (if x.negative then ['-'] else []) ++
    (x.whole.text ++ (fractionText x.fraction? ++ exponentText x.exponent?))

/-- The number, unless it is out of range. -/
def numeral? (x : NumberSpelling) : Option Numeral :=
  match x.fraction?, x.exponent? with
  | none, none => Numeral.ofWhole? x.negative x.whole.text
  | some d, none => Numeral.ofParts? x.negative x.whole.text d.text 0
  | none, some e => Numeral.ofParts? x.negative x.whole.text [] e.value
  | some d, some e => Numeral.ofParts? x.negative x.whole.text d.text e.value

/-- A number begins with a minus sign or a digit. -/
theorem exists_cons (x : NumberSpelling) :
    ∃ c s, x.text = c :: s ∧ (c == '-' || c.isDigit) = true := by
  obtain ⟨c, digits, hwhole⟩ := List.exists_cons_of_ne_nil x.whole.ne_nil
  have hc : c.isDigit = true := x.whole.isDigit c (by simp [hwhole])
  rw [text, hwhole]
  cases x.negative with
  | true => exact ⟨_, _, rfl, rfl⟩
  | false => exact ⟨c, _, rfl, by simp [hc]⟩

/-- Behind its digits a number goes on with a letter, or ends. -/
theorem head?_exponentText (e? : Option Exponent) (hrest : EndsNumber rest) :
    ∀ c ∈ (exponentText e? ++ rest).head?, c.isDigit = false ∧ c ≠ '.' := by
  cases e? with
  | none => exact fun c hc => ⟨(hrest c hc).1, (hrest c hc).2.1⟩
  | some e =>
    rintro c ⟨⟩
    rcases e.isLetter with h | h
    · simp [h]
    · simp [h]

theorem readExponent_append (e : Exponent) (hrest : EndsNumber rest) :
    readExponent negative whole fraction point (e.text ++ rest) =
      (.number (Numeral.ofParts? negative whole fraction e.value), rest) := by
  have hsign := spanSign_append e.sign? e.digits rest
  have hdigits := spanDigits_append e.digits fun c hc => (hrest c hc).1
  rw [Exponent.text, List.cons_append, List.append_assoc, readExponent]
  dsimp only
  rw [if_pos e.isLetter, hsign]
  dsimp only
  rw [hdigits]
  split
  · rename_i h
    exact absurd (congrArg Prod.fst h) e.digits.ne_nil
  · rename_i h
    cases h
    rfl

theorem readExponent_of_ends (hrest : EndsNumber rest) :
    readExponent negative whole fraction point rest =
      (.number (if point then Numeral.ofParts? negative whole fraction 0
        else Numeral.ofWhole? negative whole), rest) := by
  cases rest with
  | nil => rfl
  | cons c rest =>
    obtain ⟨-, -, he, hE⟩ := hrest c rfl
    have hletter : ¬(c = 'e' ∨ c = 'E') := by simp [he, hE]
    rw [readExponent]
    dsimp only
    rw [if_neg hletter]

theorem readFraction_of_no_point {s : Text} (h : ∀ c ∈ s.head?, c ≠ '.') :
    readFraction negative whole s = readExponent negative whole [] false s := by
  unfold readFraction
  split
  · exact absurd rfl (h '.' rfl)
  · rfl

theorem readFraction_append (d : Digits) {s : Text} (h : ∀ c ∈ s.head?, c.isDigit = false) :
    readFraction negative whole ('.' :: (d.text ++ s)) =
      readExponent negative whole d.text true s := by
  rw [readFraction, spanDigits_append d h]
  split
  · rename_i h
    exact absurd (congrArg Prod.fst h) d.ne_nil
  · rename_i h
    cases h
    rfl

theorem readUnsigned_append (x : NumberSpelling) (hrest : EndsNumber rest) :
    readUnsigned negative (x.whole.text ++
        (fractionText x.fraction? ++ exponentText x.exponent? ++ rest)) =
      readFraction negative x.whole.text
        (fractionText x.fraction? ++ exponentText x.exponent? ++ rest) := by
  have hend : ∀ c ∈ (fractionText x.fraction? ++ exponentText x.exponent? ++ rest).head?,
      c.isDigit = false := by
    cases x.fraction? with
    | none => exact fun c hc => (head?_exponentText x.exponent? hrest c hc).1
    | some d =>
      rintro c ⟨⟩
      rfl
  rw [readUnsigned, spanDigits_append x.whole hend]
  split
  · rename_i h
    exact absurd (congrArg Prod.fst h) x.whole.ne_nil
  · -- A leading zero stands alone.
    rename_i h
    have hwhole := congrArg Prod.fst h
    dsimp only at hwhole
    have hzero := x.leading (by rw [hwhole]; rfl)
    rw [hwhole] at hzero
    cases hzero
  · rename_i h
    cases h
    rfl

theorem readNumber_append (x : NumberSpelling) (hrest : EndsNumber rest) :
    readNumber (x.text ++ rest) = (.number x.numeral?, rest) := by
  have hunsigned : readNumber (x.text ++ rest) = readUnsigned x.negative (x.whole.text ++
      (fractionText x.fraction? ++ exponentText x.exponent? ++ rest)) := by
    obtain ⟨c, digits, hwhole⟩ := List.exists_cons_of_ne_nil x.whole.ne_nil
    have hc : c.isDigit = true := x.whole.isDigit c (by simp [hwhole])
    rw [text, List.append_assoc, List.append_assoc]
    cases x.negative with
    | true => rfl
    | false =>
      simp only [Bool.false_eq_true, if_false, List.nil_append, hwhole, List.cons_append]
      rw [readNumber]
      rintro s h
      cases h
      cases hc
  have hpoint := head?_exponentText x.exponent? hrest
  rw [hunsigned, readUnsigned_append x hrest, numeral?]
  cases hfraction : x.fraction? with
  | none =>
    rw [fractionText, List.nil_append, readFraction_of_no_point fun c hc => (hpoint c hc).2]
    cases x.exponent? with
    | none => exact readExponent_of_ends hrest
    | some e => exact readExponent_append e hrest
  | some d =>
    rw [fractionText, List.cons_append, List.cons_append, List.append_assoc,
      readFraction_append d fun c hc => (hpoint c hc).1]
    cases x.exponent? with
    | none => exact readExponent_of_ends hrest
    | some e => exact readExponent_append e hrest

end NumberSpelling

/-! ## Values -/

/-- The list of some items. -/
def Items.ofList : List Tree → Items
  | [] => .closed
  | item :: items => .cons item (ofList items)

/-- The object of some members. -/
def Members.ofList : List (Option Text × Tree) → Members
  | [] => .closed
  | member :: members => .cons member.1 member.2 (ofList members)

/-- The name of a member as it is written, up to the colon. -/
structure NameSpelling where
  before : Blanks
  symbols : List Symbol
  behind : Blanks

namespace NameSpelling

def text (x : NameSpelling) : Text :=
  x.before.text ++ '"' :: (x.symbols.flatMap Symbol.text ++ '"' :: x.behind.text)

/-- The name, if no half of a surrogate pair stands alone in it. -/
def name? (x : NameSpelling) : Option Text := Symbol.value? x.symbols

end NameSpelling

mutual

/-- A value as it is written. -/
inductive Spelling where
  | null
  | boolean (b : Bool)
  | number (x : NumberSpelling)
  | text (symbols : List Symbol)
  | emptyList (inside : Blanks)
  | list (items : ItemSpellings)
  | emptyObject (inside : Blanks)
  | object (members : MemberSpellings)

/-- The items of a list as they are written. -/
inductive ItemSpellings where
  | last (before : Blanks) (item : Spelling) (behind : Blanks)
  | more (before : Blanks) (item : Spelling) (behind : Blanks) (rest : ItemSpellings)

/-- The members of an object as they are written. -/
inductive MemberSpellings where
  | last (name : NameSpelling) (before : Blanks) (value : Spelling) (behind : Blanks)
  | more (name : NameSpelling) (before : Blanks) (value : Spelling) (behind : Blanks)
    (rest : MemberSpellings)

end

mutual

/-- The text of a value. -/
def Spelling.toText : Spelling → Text
  | .null => "null".toList
  | .boolean b => (if b then "true" else "false").toList
  | .number x => x.text
  | .text symbols => '"' :: (symbols.flatMap Symbol.text ++ ['"'])
  | .emptyList inside => '[' :: (inside.text ++ [']'])
  | .list items => '[' :: (items.toText ++ [']'])
  | .emptyObject inside => '{' :: (inside.text ++ ['}'])
  | .object members => '{' :: (members.toText ++ ['}'])

/-- The text between the brackets of a list. -/
def ItemSpellings.toText : ItemSpellings → Text
  | .last before item behind => before.text ++ (item.toText ++ behind.text)
  | .more before item behind rest =>
    before.text ++ (item.toText ++ (behind.text ++ ',' :: rest.toText))

/-- The text between the braces of an object. -/
def MemberSpellings.toText : MemberSpellings → Text
  | .last name before value behind =>
    name.text ++ ':' :: (before.text ++ (value.toText ++ behind.text))
  | .more name before value behind rest =>
    name.text ++ ':' :: (before.text ++ (value.toText ++ (behind.text ++ ',' :: rest.toText)))

end

mutual

/-- What a value says. -/
def Spelling.tree : Spelling → Tree
  | .null => .null
  | .boolean b => .boolean b
  | .number x => .number x.numeral?
  | .text symbols => .text (Symbol.value? symbols)
  | .emptyList _ => .list (.ofList [])
  | .list items => .list (.ofList items.trees)
  | .emptyObject _ => .object (.ofList [])
  | .object members => .object (.ofList members.trees)

def ItemSpellings.trees : ItemSpellings → List Tree
  | .last _ item _ => [item.tree]
  | .more _ item _ rest => item.tree :: rest.trees

def MemberSpellings.trees : MemberSpellings → List (Option Text × Tree)
  | .last name _ value _ => [(name.name?, value.tree)]
  | .more name _ value _ rest => (name.name?, value.tree) :: rest.trees

end

/-! ## What begins a value and what ends it -/

theorem endsNumber_cons {c : Char} (h : c = ']' ∨ c = '}' ∨ c = ',') (s : Text) :
    EndsNumber (c :: s) := by
  rintro d ⟨⟩
  rcases h with rfl | rfl | rfl <;> decide

theorem endsNumber_append (pad : Blanks) {s : Text} (h : EndsNumber s) :
    EndsNumber (pad.text ++ s) := by
  cases hpad : pad.text with
  | nil => exact h
  | cons c rest =>
    have hblank : isJsonBlank c = true := pad.blank c (by simp [hpad])
    rintro d ⟨⟩
    simp only [isJsonBlank, Bool.or_eq_true, beq_iff_eq] at hblank
    rcases hblank with ((rfl | rfl) | rfl) | rfl <;> decide

/-- Neither a blank nor the end of a list begins a value. -/
theorem Spelling.exists_cons (x : Spelling) :
    ∃ c s, x.toText = c :: s ∧ isJsonBlank c = false ∧ c ≠ ']' := by
  cases x with
  | null => exact ⟨_, _, rfl, by decide, by decide⟩
  | boolean b => cases b <;> exact ⟨_, _, rfl, by decide, by decide⟩
  | number x =>
    obtain ⟨c, s, htext, hc⟩ := x.exists_cons
    refine ⟨c, s, htext, ?_, ?_⟩
    · rw [Bool.eq_false_iff]
      intro hblank
      simp only [isJsonBlank, Bool.or_eq_true, beq_iff_eq] at hblank
      rcases hblank with ((rfl | rfl) | rfl) | rfl <;> cases hc
    · rintro rfl
      cases hc
  | text symbols => exact ⟨_, _, rfl, by decide, by decide⟩
  | emptyList inside => exact ⟨_, _, rfl, by decide, by decide⟩
  | list items => exact ⟨_, _, rfl, by decide, by decide⟩
  | emptyObject inside => exact ⟨_, _, rfl, by decide, by decide⟩
  | object members => exact ⟨_, _, rfl, by decide, by decide⟩

/-- Blanks in front of a value are skipped. -/
theorem Spelling.skipBlanks_append (x : Spelling) (pad : Blanks) (s : Text) :
    skipBlanks (pad.text ++ (x.toText ++ s)) = x.toText ++ s := by
  obtain ⟨c, rest, htext, hblank, -⟩ := x.exists_cons
  rw [Json.skipBlanks_append, htext, List.cons_append, skipBlanks_cons hblank]

theorem Spelling.length_pos (x : Spelling) : 0 < x.toText.length := by
  obtain ⟨c, rest, htext, -⟩ := x.exists_cons
  simp [htext]

/-! ## Reading values -/

theorem readWord_append (word : Text) (value : Tree) (s : Text) :
    readWord word value (word ++ s) = (value, s) := by
  rw [readWord, Text.after?_append]

theorem readTree_number (x : NumberSpelling) (n : Nat) (s : Text) :
    readTree (n + 1) (x.text ++ s) = readNumber (x.text ++ s) := by
  obtain ⟨c, s', htext, hc⟩ := x.exists_cons
  rw [htext, List.cons_append, readTree]
  · rw [if_pos hc]
  all_goals
    rintro rfl
    cases hc

/-- Behind the bracket of a list with items, the first of them is read. -/
theorem readItems_items (xs : ItemSpellings) (n : Nat) (s : Text) :
    readItems (n + 1) (skipBlanks (xs.toText ++ s)) = readItem n (skipBlanks (xs.toText ++ s)) := by
  have hstart : ∃ (x : Spelling) (s' : Text), skipBlanks (xs.toText ++ s) = x.toText ++ s' := by
    cases xs with
    | last before item behind =>
      rw [ItemSpellings.toText, List.append_assoc, List.append_assoc, item.skipBlanks_append]
      exact ⟨item, _, rfl⟩
    | more before item behind more =>
      rw [ItemSpellings.toText, List.append_assoc, List.append_assoc, item.skipBlanks_append]
      exact ⟨item, _, rfl⟩
  obtain ⟨x, s', hx⟩ := hstart
  obtain ⟨c, rest, htext, -, hc⟩ := x.exists_cons
  rw [hx, htext, List.cons_append, readItems]
  · intro h
    cases h
  · intro s' h
    exact hc (List.cons.inj h).1

/-- In front of the name of a member, only blanks are skipped. -/
theorem NameSpelling.skipBlanks_append (x : NameSpelling) (s : Text) :
    skipBlanks (x.text ++ s) =
      '"' :: (x.symbols.flatMap Symbol.text ++ '"' :: (x.behind.text ++ s)) := by
  rw [NameSpelling.text, List.append_assoc, Json.skipBlanks_append, List.cons_append,
    skipBlanks_cons (by decide), List.append_assoc, List.cons_append]

/-- Behind the brace of an object with members, the first of them is read. -/
theorem readMembers_members (xs : MemberSpellings) (n : Nat) (s : Text) :
    readMembers (n + 1) (skipBlanks (xs.toText ++ s)) =
      readMember n (skipBlanks (xs.toText ++ s)) := by
  have hstart : ∃ s', skipBlanks (xs.toText ++ s) = '"' :: s' := by
    cases xs with
    | last name before value behind =>
      rw [MemberSpellings.toText, List.append_assoc, name.skipBlanks_append]
      exact ⟨_, rfl⟩
    | more name before value behind more =>
      rw [MemberSpellings.toText, List.append_assoc, name.skipBlanks_append]
      exact ⟨_, rfl⟩
  obtain ⟨s', hs'⟩ := hstart
  rw [hs', readMembers]
  · intro h
    cases h
  · intro s' h
    cases h

/-- A member is read if its value is, and what follows the value. -/
theorem readMember_name (x : NameSpelling) {n : Nat} {value : Tree} {s rest left : Text}
    {members : Members} (hvalue : readTree n (skipBlanks s) = (value, rest))
    (hmore : readMoreMembers (n + 1) (skipBlanks rest) = (members, left)) :
    readMember (n + 2) (skipBlanks (x.text ++ ':' :: s)) =
      (.cons x.name? value members, left) := by
  have hcolon : skipBlanks (x.behind.text ++ ':' :: s) = ':' :: s := by
    rw [skipBlanks_append, skipBlanks_cons (by decide)]
  rw [x.skipBlanks_append, readMember, readString_symbols]
  dsimp only
  rw [hcolon, readMemberValue, hvalue, hmore]
  rfl

-- The induction is on the spelling. Each character of it pays for three steps of the reader.
mutual

/-- What is read from the text of a value is its tree. -/
theorem Spelling.readTree_append (x : Spelling) (rest : Text) (hrest : EndsNumber rest) {n : Nat}
    (hn : 3 * x.toText.length ≤ n) : readTree n (x.toText ++ rest) = (x.tree, rest) := by
  obtain ⟨n, rfl⟩ : ∃ m, n = m + 3 := ⟨n - 3, by have := x.length_pos; omega⟩
  cases x with
  | null => exact readWord_append "ull".toList .null rest
  | boolean b =>
    cases b with
    | true => exact readWord_append "rue".toList (.boolean true) rest
    | false => exact readWord_append "alse".toList (.boolean false) rest
  | number x =>
    rw [Spelling.toText, readTree_number, x.readNumber_append hrest]
    rfl
  | text symbols =>
    rw [Spelling.toText, List.cons_append, List.append_assoc, readTree, List.singleton_append,
      readString_symbols]
    rfl
  | emptyList inside =>
    rw [Spelling.toText, List.cons_append, List.append_assoc, readTree, skipBlanks_append,
      List.singleton_append, skipBlanks_cons (by decide)]
    rfl
  | list items =>
    simp only [Spelling.toText, List.length_cons, List.length_append, List.length_nil] at hn
    have hitems := items.readItem_append rest (n := n + 1) (by omega)
    rw [Spelling.toText, List.cons_append, List.append_assoc, readTree, List.singleton_append,
      readItems_items, hitems]
    rfl
  | emptyObject inside =>
    rw [Spelling.toText, List.cons_append, List.append_assoc, readTree, skipBlanks_append,
      List.singleton_append, skipBlanks_cons (by decide)]
    rfl
  | object members =>
    simp only [Spelling.toText, List.length_cons, List.length_append, List.length_nil] at hn
    have hmembers := members.readMember_append rest (n := n + 1) (by omega)
    rw [Spelling.toText, List.cons_append, List.append_assoc, readTree, List.singleton_append,
      readMembers_members, hmembers]
    rfl

/-- The items of a list are read up to its end. -/
theorem ItemSpellings.readItem_append (xs : ItemSpellings) (rest : Text) {n : Nat}
    (hn : 3 * (xs.toText.length + 1) ≤ n) :
    readItem n (skipBlanks (xs.toText ++ ']' :: rest)) = (.ofList xs.trees, rest) := by
  obtain ⟨n, rfl⟩ : ∃ m, n = m + 2 := ⟨n - 2, by omega⟩
  cases xs with
  | last before item behind =>
    simp only [ItemSpellings.toText, List.length_append] at hn
    have hitem := item.readTree_append (behind.text ++ ']' :: rest)
      (endsNumber_append behind (endsNumber_cons (.inl rfl) rest)) (n := n + 1) (by omega)
    rw [ItemSpellings.toText, List.append_assoc, List.append_assoc, item.skipBlanks_append,
      readItem, hitem]
    dsimp only
    rw [skipBlanks_append, skipBlanks_cons (by decide), readMoreItems]
    rfl
  | more before item behind more =>
    simp only [ItemSpellings.toText, List.length_append, List.length_cons] at hn
    have hitem := item.readTree_append (behind.text ++ ',' :: (more.toText ++ ']' :: rest))
      (endsNumber_append behind (endsNumber_cons (.inr (.inr rfl)) _)) (n := n + 1) (by omega)
    have hmore := more.readItem_append rest (n := n) (by omega)
    rw [ItemSpellings.toText, List.append_assoc, List.append_assoc, List.append_assoc,
      List.cons_append, item.skipBlanks_append, readItem, hitem]
    dsimp only
    rw [skipBlanks_append, skipBlanks_cons (by decide), readMoreItems, hmore]
    rfl

/-- The members of an object are read up to its end. -/
theorem MemberSpellings.readMember_append (xs : MemberSpellings) (rest : Text) {n : Nat}
    (hn : 3 * (xs.toText.length + 1) ≤ n) :
    readMember n (skipBlanks (xs.toText ++ '}' :: rest)) = (.ofList xs.trees, rest) := by
  obtain ⟨n, rfl⟩ : ∃ m, n = m + 2 := ⟨n - 2, by omega⟩
  cases xs with
  | last name before value behind =>
    simp only [MemberSpellings.toText, List.length_append, List.length_cons] at hn
    have hvalue := value.readTree_append (behind.text ++ '}' :: rest)
      (endsNumber_append behind (endsNumber_cons (.inr (.inl rfl)) rest)) (n := n) (by omega)
    have hmore : readMoreMembers (n + 1) (skipBlanks (behind.text ++ '}' :: rest)) =
        (.closed, rest) := by
      rw [skipBlanks_append, skipBlanks_cons (by decide), readMoreMembers]
    rw [← value.skipBlanks_append before] at hvalue
    rw [MemberSpellings.toText, List.append_assoc, List.cons_append, List.append_assoc,
      List.append_assoc, readMember_name name hvalue hmore]
    rfl
  | more name before value behind more =>
    simp only [MemberSpellings.toText, List.length_append, List.length_cons] at hn
    have hvalue := value.readTree_append (behind.text ++ ',' :: (more.toText ++ '}' :: rest))
      (endsNumber_append behind (endsNumber_cons (.inr (.inr rfl)) _)) (n := n) (by omega)
    have hmore : readMoreMembers (n + 1)
        (skipBlanks (behind.text ++ ',' :: (more.toText ++ '}' :: rest))) =
          (.ofList more.trees, rest) := by
      rw [skipBlanks_append, skipBlanks_cons (by decide), readMoreMembers]
      exact more.readMember_append rest (by omega)
    rw [← value.skipBlanks_append before] at hvalue
    rw [MemberSpellings.toText, List.append_assoc, List.cons_append, List.append_assoc,
      List.append_assoc, List.append_assoc, List.cons_append, readMember_name name hvalue hmore]
    rfl

end

/-! ## Skipping values -/

mutual

/-- Nothing is broken in what a value says. -/
theorem Spelling.skip_tree (x : Spelling) : skip x.tree = .ok () := by
  cases x with
  | null => rfl
  | boolean b => rfl
  | number x => rfl
  | text symbols => rfl
  | emptyList inside => rfl
  | list items => exact items.skip_trees
  | emptyObject inside => rfl
  | object members => exact members.skip_trees

theorem ItemSpellings.skip_trees (xs : ItemSpellings) : skipItems (.ofList xs.trees) = .ok () := by
  cases xs with
  | last before item behind =>
    rw [ItemSpellings.trees, Items.ofList, skipItems, item.skip_tree]
    rfl
  | more before item behind more =>
    rw [ItemSpellings.trees, Items.ofList, skipItems, item.skip_tree]
    exact more.skip_trees

theorem MemberSpellings.skip_trees (xs : MemberSpellings) :
    skipMembers (.ofList xs.trees) = .ok () := by
  cases xs with
  | last name before value behind =>
    rw [MemberSpellings.trees, Members.ofList, skipMembers, value.skip_tree]
    rfl
  | more name before value behind more =>
    rw [MemberSpellings.trees, Members.ofList, skipMembers, value.skip_tree]
    exact more.skip_trees

end

/-! ## Whole texts -/

/-- A whole text as it is written: a value and blanks around it. -/
structure DocumentSpelling where
  before : Blanks
  value : Spelling
  behind : Blanks

namespace DocumentSpelling

def toText (x : DocumentSpelling) : Text := x.before.text ++ (x.value.toText ++ x.behind.text)

/-- What is read from a whole text is what its value says, and nothing is left of it. -/
theorem ofText_toText (x : DocumentSpelling) : Document.ofText x.toText = ⟨x.value.tree, false⟩ := by
  have hbehind : EndsNumber x.behind.text := by
    have := endsNumber_append x.behind (s := []) (by simp [EndsNumber])
    rwa [List.append_nil] at this
  have hrest : skipBlanks x.behind.text = [] := by
    have := skipBlanks_append x.behind []
    rwa [List.append_nil] at this
  have htree := x.value.readTree_append x.behind.text hbehind (n := 3 * x.toText.length + 3) (by
    simp only [toText, List.length_append]
    omega)
  rw [Document.ofText, toText, x.value.skipBlanks_append, ← toText, htree]
  dsimp only
  rw [hrest]
  rfl

/-- To read a value from a whole text is to read it from what the text says. -/
theorem readDocument_toText {α : Type} (read : Tree → Reading α) (x : DocumentSpelling) :
    readDocument read x.toText = read x.value.tree := by
  rw [readDocument, x.ofText_toText]
  cases read x.value.tree <;> rfl

end DocumentSpelling

end ClassSheet.Json
