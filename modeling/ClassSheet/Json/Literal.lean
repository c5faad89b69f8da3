import ClassSheet.Json.Tree

/-!
# Strings and numbers in JSON texts

* `Json.StringPart`: a character of a string, or an escaped 16-bit code.
* `Json.readParts`: the parts of a string up to its closing quote.
* `Json.joinParts`: the text of a string's parts; halves of surrogate pairs have to be paired.
* `Json.readString`, `Json.readNumber`: a string or a number as a leaf of a tree, and what follows.
-/

namespace ClassSheet.Json

open Number (ofDigits spanDigits spanSign signed)

/-! ## Strings -/

/-- A part of a string. -/
inductive StringPart where
  | char (c : Char)
  | code (n : Nat)
  deriving DecidableEq, Repr

/-- The character that stands for itself or for a control character behind a backslash. -/
def simpleEscape? : Char → Option Char
  | '"' => some '"'
  | '\\' => some '\\'
  | '/' => some '/'
  | 'b' => some '\x08'
  | 'f' => some '\x0c'
  | 'n' => some '\n'
  | 'r' => some '\r'
  | 't' => some '\t'
  | _ => none

/-- The number of four hexadecimal digits. -/
def hexCode? (a b c d : Char) : Option Nat :=
  match Text.hexValue? a, Text.hexValue? b, Text.hexValue? c, Text.hexValue? d with
  | some a, some b, some c, some d => some (((a * 16 + b) * 16 + c) * 16 + d)
  | _, _, _, _ => none

/-- The problem with an escaped code that is not four hexadecimal digits: fewer than four bytes are
left, or they are no digits. -/
def codeProblem (s : Text) : Problem :=
  if Text.byteLength s < 4 then .cutOff else .malformed

/-- The parts of a string up to the closing quote, and what follows it or why there is none. -/
def readParts : Text → List StringPart × Except Problem Text
  | [] => ([], .error .cutOff)
  | '"' :: s => ([], .ok s)
  | '\\' :: 'u' :: a :: b :: c :: d :: s =>
    match hexCode? a b c d with
    | some n =>
      let (parts, rest) := readParts s
      (.code n :: parts, rest)
    | none => ([], .error (codeProblem [a, b, c, d]))
  | '\\' :: 'u' :: s => ([], .error (codeProblem s))
  | '\\' :: e :: s =>
    match simpleEscape? e with
    | some c =>
      let (parts, rest) := readParts s
      (.char c :: parts, rest)
    | none => ([], .error .malformed)
  | ['\\'] => ([], .error .cutOff)
  | c :: s =>
    if c < ' ' then ([], .error .malformed)
    else
      let (parts, rest) := readParts s
      (.char c :: parts, rest)

/-- Whether a code is the first half of a surrogate pair. -/
def isLeading (n : Nat) : Bool := 0xD800 ≤ n && n ≤ 0xDBFF

/-- Whether a code is the second half of a surrogate pair. -/
def isTrailing (n : Nat) : Bool := 0xDC00 ≤ n && n ≤ 0xDFFF

/-- The character of a surrogate pair. -/
def pairedChar (leading trailing : Nat) : Char :=
  Char.ofNat (0x10000 + (leading - 0xD800) * 0x400 + (trailing - 0xDC00))

/-- The text of a string's parts. A half of a surrogate pair that stands alone is malformed; for a
first half at the very end, `atEnd` says what the problem is. -/
def joinParts (atEnd : Problem) : List StringPart → Except Problem Text
  | [] => .ok []
  | .char c :: parts => (joinParts atEnd parts).map (c :: ·)
  | [.code n] =>
    if isLeading n then .error atEnd
    else if isTrailing n then .error .malformed
    else .ok [Char.ofNat n]
  | .code n :: .code m :: parts =>
    if isLeading n then
      if isTrailing m then (joinParts atEnd parts).map (pairedChar n m :: ·)
      else .error .malformed
    else if isTrailing n then .error .malformed
    else (joinParts atEnd (.code m :: parts)).map (Char.ofNat n :: ·)
  | .code n :: .char c :: parts =>
    if isLeading n || isTrailing n then .error .malformed
    else (joinParts atEnd (.char c :: parts)).map (Char.ofNat n :: ·)

/-- A string, from behind its opening quote: its text, or the problem when it is read and the one
when it is skipped; and what follows. -/
def readString (s : Text) : Except (Problem × Problem) (Option Text) × Text :=
  match readParts s with
  | (parts, .ok rest) => (.ok (joinParts .malformed parts).toOption, rest)
  | (parts, .error problem) =>
    match joinParts problem parts with
    | .error reading => (.error (reading, problem), [])
    | .ok _ => (.error (problem, problem), [])

/-! ## Numbers -/

/-- A number that goes wrong before `s`, where a digit should stand. Whoever skips it does not ask
whether the text ends there. -/
def brokenNumber (s : Text) : Tree × Text :=
  (.broken (if s = [] then .cutOff else .malformed) .malformed, [])

/-- What follows the digits of a number and, with `point`, its fraction: an exponent, or nothing
that belongs to the number. -/
def readExponent (negative : Bool) (whole fraction : Text) (point : Bool) (s : Text) :
    Tree × Text :=
  let plain :=
    if point then Numeral.ofParts? negative whole fraction 0 else Numeral.ofWhole? negative whole
  match s with
  | c :: exponent =>
    if c = 'e' ∨ c = 'E' then
      let (below, exponent) := spanSign exponent
      match spanDigits exponent with
      | ([], rest) => brokenNumber rest
      | (digits, rest) =>
        let e := signed below (ofDigits digits)
        (.number (Numeral.ofParts? negative whole fraction e), rest)
    else (.number plain, s)
  | [] => (.number plain, [])

/-- What follows the whole digits of a number. -/
def readFraction (negative : Bool) (whole s : Text) : Tree × Text :=
  match s with
  | '.' :: fraction =>
    match spanDigits fraction with
    | ([], rest) => brokenNumber rest
    | (fraction, rest) => readExponent negative whole fraction true rest
  | _ => readExponent negative whole [] false s

/-- A number from its first digit on. A leading zero stands alone. -/
def readUnsigned (negative : Bool) (s : Text) : Tree × Text :=
  match spanDigits s with
  | ([], rest) => brokenNumber rest
  | ('0' :: _ :: _, _) => (.broken .malformed .malformed, [])
  | (digits, rest) => readFraction negative digits rest

/-- A number, and what follows it. -/
def readNumber : Text → Tree × Text
  | '-' :: s => readUnsigned true s
  | s => readUnsigned false s

end ClassSheet.Json
