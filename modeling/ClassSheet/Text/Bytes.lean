import ClassSheet.Text.Basic

/-!
# Bytes that need not be a text

File names are bytes. Most of them are the UTF-8 form of a text, but any other bytes may be a name as
well. When such a name is shown, a mark stands in the place of what belongs to no character.

* `Bytes`: a sequence of bytes.
* `Text.bytes`: the UTF-8 form of a text.
* `Bytes.text?`: the text whose UTF-8 form the bytes are.
* `Bytes.shown`: the text that the bytes are shown as.
-/

namespace ClassSheet

/-- A sequence of bytes. -/
abbrev Bytes := List UInt8

namespace Text

/-- The bytes of the UTF-8 form of a text. -/
def bytes (s : Text) : Bytes := s.flatMap String.utf8EncodeChar

/-- Where bytes are wanted, a text stands for its UTF-8 form. -/
instance : Coe Text Bytes := ⟨bytes⟩

theorem utf8_eq_bytes (s : Text) : s.utf8 = s.bytes.toByteArray := by
  simp [utf8, asString, bytes, List.utf8Encode]

end Text

namespace Bytes

/-! ## Texts -/

/-- The text whose UTF-8 form the bytes are. -/
def text? (s : Bytes) : Option Text := Text.ofUtf8? s.toByteArray

@[simp]
theorem text?_bytes (s : Text) : text? s.bytes = some s := by
  rw [text?, ← Text.utf8_eq_bytes, Text.ofUtf8?_utf8]

theorem text?_eq_some_iff {s : Bytes} {t : Text} : text? s = some t ↔ s = t.bytes := by
  constructor
  · intro h
    obtain ⟨cs, hcs, rfl⟩ := Option.map_eq_some_iff.mp h
    have hsome : s.toByteArray.utf8Decode?.isSome = true := by
      rw [hcs]
      rfl
    have hencode := ByteArray.utf8Encode_get_utf8Decode? (h := hsome)
    simp only [hcs, Option.get_some] at hencode
    rw [← List.toByteArray_inj, ← Text.utf8_eq_bytes, ← hencode]
    simp [Text.utf8, Text.asString]
  · rintro rfl
    exact text?_bytes t

/-! ## Showing bytes -/

/-- A character that has begun: the number that its bytes make up so far, and the ranges in which the
other ones have to lie. -/
structure Begun where
  number : Nat
  range : UInt8 × UInt8
  ranges : List (UInt8 × UInt8)

/-- What stands in the place of bytes that belong to no character. -/
def replacement : Char := '\uFFFD'

/-- The range of most bytes behind the first one of a character. -/
def usual : UInt8 × UInt8 := (0x80, 0xBF)

/-- What the first byte of a character comes to: the character, the mark, or a character that has
begun. -/
def begin (b : UInt8) : Text × Option Begun :=
  let n := b.toNat
  if b < 0x80 then ([Char.ofNat n], none)
  else if b < 0xC2 then ([replacement], none)
  else if b < 0xE0 then ([], some ⟨n % 32, usual, []⟩)
  else if b = 0xE0 then ([], some ⟨n % 16, (0xA0, 0xBF), [usual]⟩)
  else if b = 0xED then ([], some ⟨n % 16, (0x80, 0x9F), [usual]⟩)
  else if b < 0xF0 then ([], some ⟨n % 16, usual, [usual]⟩)
  else if b = 0xF0 then ([], some ⟨n % 8, (0x90, 0xBF), [usual, usual]⟩)
  else if b < 0xF4 then ([], some ⟨n % 8, usual, [usual, usual]⟩)
  else if b = 0xF4 then ([], some ⟨n % 8, (0x80, 0x8F), [usual, usual]⟩)
  else ([replacement], none)

/-- What one more byte comes to. If it does not belong to the character that has begun, the mark stands
for that one, and the byte is the first one of a character. -/
def next (begun? : Option Begun) (b : UInt8) : Text × Option Begun :=
  match begun? with
  | none => begin b
  | some ⟨number, (low, high), ranges⟩ =>
    if low ≤ b ∧ b ≤ high then
      let number := number * 64 + b.toNat % 64
      match ranges with
      | [] => ([Char.ofNat number], none)
      | range :: ranges => ([], some ⟨number, range, ranges⟩)
    else
      let (s, begun?) := begin b
      (replacement :: s, begun?)

/-- The characters of bytes, with a mark for each run of bytes that belongs to none. -/
def marked (begun? : Option Begun) : Bytes → Text
  | [] => if begun?.isSome then [replacement] else []
  | b :: s =>
    let (t, begun?) := next begun? b
    t ++ marked begun? s

/-- The text that the bytes are shown as. -/
def shown (s : Bytes) : Text := (text? s).getD (marked none s)

@[simp]
theorem shown_bytes (s : Text) : shown s.bytes = s := by
  rw [shown, text?_bytes, Option.getD_some]

/-- The mark stands once for what could have become a character. -/
example : marked none [0x61, 0xF0, 0x9F, 0x98, 0xE2, 0xC3, 0xA9, 0xFF] =
    ['a', replacement, replacement, 'é', replacement] := by decide

end Bytes

end ClassSheet
