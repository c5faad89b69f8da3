import ClassSheet.Text.Basic

/-!
# Blanks and words

* `Text.isBlank`: the characters with the Unicode property White_Space.
* `Text.words`: the maximal runs of other characters, in order.
-/

namespace ClassSheet.Text

/-- The code points with the property White_Space, as closed ranges. -/
def blankRanges : List (Nat × Nat) :=
  [(0x09, 0x0D), (0x20, 0x20), (0x85, 0x85), (0xA0, 0xA0), (0x1680, 0x1680), (0x2000, 0x200A),
    (0x2028, 0x2029), (0x202F, 0x202F), (0x205F, 0x205F), (0x3000, 0x3000)]

/-- Whether a character separates words. -/
def isBlank (c : Char) : Bool :=
  blankRanges.any fun r => r.1 ≤ c.toNat && c.toNat ≤ r.2

/-- The maximal runs of characters that are not blank, in order. -/
def words (s : Text) : List Text :=
  (s.splitOnP isBlank).filter (· != [])

/-- A word is not empty. -/
theorem ne_nil_of_mem_words {s w : Text} (h : w ∈ words s) : w ≠ [] := by
  simpa using (List.mem_filter.mp h).2

end ClassSheet.Text
