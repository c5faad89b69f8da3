/-!
# Texts

A text is a list of characters, so that every operation below is a short recursion and can be
evaluated inside a proof.

* `Text.after?`, `Text.before?`: what is left of a text without a given beginning or ending.
* `Text.cut?`: the two sides of the first occurrence of a character.
* `Text.contains`: whether a text has another one inside.
* `Text.ofNat`, `Text.ofInt`: decimal numerals.
* `Text.hexValue?`: hexadecimal digits.
* `Text.utf8`, `Text.ofUtf8?`: the bytes of a text in a file.
* `Text.byteLength`, `Text.takeBytes`, `Text.dropBytes`: places in a text counted in those bytes.
-/

namespace ClassSheet

/-- A sequence of Unicode characters. -/
abbrev Text := List Char

namespace Text

-- Named here, so that all tests of membership among texts use one and the same instance.
instance : LawfulBEq Text := inferInstance

/-- What follows `start` in `s`, if `s` starts with it. -/
def after? (start s : Text) : Option Text :=
  start.isPrefixOf? s

theorem after?_eq_some_iff {start s rest : Text} :
    after? start s = some rest ↔ s = start ++ rest := by
  induction start generalizing s with
  | nil =>
    have step : after? [] s = some s := rfl
    simp [step]
  | cons c start ih =>
    cases s with
    | nil =>
      have step : after? (c :: start) [] = none := rfl
      simp [step]
    | cons d s =>
      have step : after? (c :: start) (d :: s) = if c == d then after? start s else none := rfl
      rw [step]
      by_cases h : c = d
      · subst h
        simp [ih]
      · have h' : ¬d = c := fun e => h e.symm
        simp [h, h']

@[simp]
theorem after?_append (start rest : Text) : after? start (start ++ rest) = some rest :=
  after?_eq_some_iff.mpr rfl

/-- What precedes `ending` in `s`, if `s` ends with it. -/
def before? (ending s : Text) : Option Text :=
  (after? ending.reverse s.reverse).map List.reverse

theorem before?_eq_some_iff {ending s rest : Text} :
    before? ending s = some rest ↔ s = rest ++ ending := by
  simp only [before?, Option.map_eq_some_iff, after?_eq_some_iff]
  constructor
  · rintro ⟨r, hr, rfl⟩
    have := congrArg List.reverse hr
    simpa using this
  · rintro rfl
    exact ⟨rest.reverse, by simp, by simp⟩

/-- The two sides of the first `mark` in `s`, if there is one. -/
def cut? (mark : Char) (s : Text) : Option (Text × Text) :=
  match s.dropWhile (· != mark) with
  | [] => none
  | _ :: right => some (s.takeWhile (· != mark), right)

theorem cut?_eq_some_iff {mark : Char} {s left right : Text} :
    cut? mark s = some (left, right) ↔ mark ∉ left ∧ s = left ++ mark :: right := by
  induction s generalizing left with
  | nil => simp [cut?]
  | cons c s ih =>
    by_cases hc : c = mark
    · subst hc
      cases left with
      | nil => simp [cut?]
      | cons d left =>
        simp only [cut?, List.dropWhile_cons, bne_self_eq_false, Bool.false_eq_true, ↓reduceIte,
          List.takeWhile_cons, Option.some.injEq, Prod.mk.injEq, List.mem_cons, not_or,
          List.cons_append, List.cons.injEq, reduceCtorEq, false_and, false_iff]
        rintro ⟨⟨h, -⟩, h', -⟩
        exact h h'
    · have hb : (c != mark) = true := by simpa using hc
      have step : cut? mark (c :: s) = (cut? mark s).map fun p => (c :: p.1, p.2) := by
        simp only [cut?, List.dropWhile_cons, hb, ↓reduceIte, List.takeWhile_cons]
        split <;> rfl
      rw [step]
      cases left with
      | nil => simp [hc]
      | cons d left =>
        simp only [Option.map_eq_some_iff, Prod.mk.injEq, List.cons.injEq, Prod.exists,
          List.mem_cons, not_or, List.cons_append]
        constructor
        · rintro ⟨a, b, h, ⟨rfl, rfl⟩, rfl⟩
          obtain ⟨h₁, h₂⟩ := ih.mp h
          exact ⟨⟨fun e => hc e.symm, h₁⟩, rfl, h₂⟩
        · rintro ⟨⟨-, h₁⟩, rfl, h₂⟩
          exact ⟨left, right, ih.mpr ⟨h₁, h₂⟩, ⟨rfl, rfl⟩, rfl⟩

theorem cut?_eq_none_iff {mark : Char} {s : Text} : cut? mark s = none ↔ mark ∉ s := by
  induction s with
  | nil => simp [cut?]
  | cons c s ih =>
    by_cases hc : c = mark
    · subst hc
      simp [cut?]
    · have hb : (c != mark) = true := by simpa using hc
      have hc' : ¬mark = c := fun e => hc e.symm
      have step : cut? mark (c :: s) = (cut? mark s).map fun p => (c :: p.1, p.2) := by
        simp only [cut?, List.dropWhile_cons, hb, ↓reduceIte, List.takeWhile_cons]
        split <;> rfl
      simp [step, ih, hc']

/-- Whether `part` occurs in `s`, as a run of neighbouring characters. -/
def contains (part : Text) : Text → Bool
  | [] => part.isEmpty
  | c :: s => part.isPrefixOf (c :: s) || contains part s

theorem contains_iff {part s : Text} : contains part s = true ↔ part <:+: s := by
  induction s with
  | nil => simp [contains]
  | cons c s ih => simp [contains, ih, List.infix_cons_iff]

/-- The decimal numeral of a natural number. -/
def ofNat (n : Nat) : Text := Nat.toDigits 10 n

/-- The decimal numeral of an integer, with a minus sign in front of a negative one. -/
def ofInt : Int → Text
  | .ofNat n => ofNat n
  | .negSucc n => '-' :: ofNat (n + 1)

/-- The value of a hexadecimal digit. -/
def hexValue? (c : Char) : Option Nat :=
  if c.isDigit then some (c.toNat - '0'.toNat)
  else if 'a' ≤ c ∧ c ≤ 'f' then some (c.toNat - 'a'.toNat + 10)
  else if 'A' ≤ c ∧ c ≤ 'F' then some (c.toNat - 'A'.toNat + 10)
  else none

/-- A text as a string. -/
def asString (s : Text) : String := String.ofList s

/-- The UTF-8 form of a text. -/
def utf8 (s : Text) : ByteArray := s.asString.toUTF8

/-- The text whose UTF-8 form the bytes are. -/
def ofUtf8? (bytes : ByteArray) : Option Text := bytes.utf8Decode?.map Array.toList

@[simp]
theorem ofUtf8?_utf8 (s : Text) : ofUtf8? s.utf8 = some s := by
  simp [ofUtf8?, utf8, asString]

/-- How many bytes the UTF-8 form of a text has. -/
def byteLength : Text → Nat
  | [] => 0
  | c :: s => c.utf8Size + byteLength s

/-- The characters that begin before byte `n` of the UTF-8 form. -/
def takeBytes : Nat → Text → Text
  | 0, _ => []
  | _ + 1, [] => []
  | n + 1, c :: s => c :: takeBytes (n + 1 - c.utf8Size) s

/-- The characters that begin at byte `n` of the UTF-8 form or behind it. -/
def dropBytes : Nat → Text → Text
  | 0, s => s
  | _ + 1, [] => []
  | n + 1, c :: s => dropBytes (n + 1 - c.utf8Size) s

end Text

end ClassSheet
