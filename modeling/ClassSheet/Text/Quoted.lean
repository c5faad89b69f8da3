import ClassSheet.Text.Basic
import ClassSheet.Text.Visible

/-!
# Quoted texts

Messages show a text between double quotes, on one line and without hidden characters.

* `Text.escape`: the written form of one character.
* `Text.quoted`: the written form of a text.
-/

namespace ClassSheet.Text

/-- A character as it stands between quotes: the quote, the backslash and the four control
characters with a letter of their own after a backslash, every other hidden character by its code
point in hexadecimal. -/
def escape (c : Char) : Text :=
  match c with
  | '\x00' => ['\\', '0']
  | '\t' => ['\\', 't']
  | '\r' => ['\\', 'r']
  | '\n' => ['\\', 'n']
  | '\\' => ['\\', '\\']
  | '"' => ['\\', '"']
  | _ =>
    if isVisible c then [c]
    else "\\u\x7b".toList ++ Nat.toDigits 16 c.toNat ++ "\x7d".toList

/-- A text between double quotes, with its characters escaped. -/
def quoted (s : Text) : Text :=
  '"' :: s.flatMap escape ++ ['"']

end ClassSheet.Text
