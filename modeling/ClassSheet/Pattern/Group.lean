import ClassSheet.Pattern.Basic
import ClassSheet.Text.Alphanumeric

/-!
# Groups and flags

What an opening parenthesis begins: a group, which may have a name or flags of its own, or flags
for the rest of the group around it. Groups that look ahead or behind are not supported.

* `Pattern.Opening`: what an opening parenthesis begins.
* `Pattern.Mode.withFlags`: how a pattern is read behind some flags.
* `Pattern.readOpening?`: what stands behind an opening parenthesis.
-/

namespace ClassSheet.Pattern

/-- What an opening parenthesis begins. -/
inductive Opening where
  /-- A group, perhaps with a name, and how it is read. -/
  | group (name? : Option Text) (mode : Mode)
  /-- Flags, closed already, and how the rest of the group around them is read. -/
  | flags (mode : Mode)
  deriving DecidableEq, Repr

/-! ## Names -/

/-- Whether a text may be the name of a group: a letter or a low line, followed by letters, numbers
and some signs. -/
def isName : Text → Bool
  | [] => false
  | c :: s =>
    (c == '_' || Text.isAlphabetic c) &&
      s.all fun c => c ∈ "_.[]".toList || Text.isAlphanumeric c

/-- The name of a group up to the closing angle bracket, and what follows it. -/
def readName (mode : Mode) (s : Text) : Option (Opening × Text) := do
  let (name, s) ← Text.cut? '>' s
  if isName name then some (.group (some name) mode, s) else none

/-! ## Flags -/

/-- Whether a text may be the flags of a group: each at most once, and one behind the hyphen. -/
def areFlags (s : Text) : Bool :=
  s.all (· ∈ "imsUuRx-".toList) && decide s.Nodup && s.getLast? != some '-'

/-- What flags say about one of them: a hyphen turns those behind it off. -/
def flag? (flags : Text) (c : Char) : Option Bool :=
  if c ∈ flags then some (c ∈ flags.takeWhile (· != '-')) else none

/-- How a pattern is read behind flags: what they do not mention stays as it was. -/
def Mode.withFlags (mode : Mode) (flags : Text) : Mode where
  spaced := (flag? flags 'x').getD mode.spaced
  unicode := (flag? flags 'u').getD mode.unicode

/-- The flags of a group or of what follows, and what comes behind them. -/
def readFlags (mode : Mode) (s : Text) : Option (Opening × Text) :=
  let (flags, s) := s.span fun c => c != ':' && c != ')'
  if areFlags flags then
    match s with
    | ':' :: s => some (.group none (mode.withFlags flags), s)
    | _ :: s => if flags = [] then none else some (.flags (mode.withFlags flags), s)
    | [] => none
  else none

/-- What stands behind an opening parenthesis, and what follows it. -/
def readOpening? (mode : Mode) (s : Text) : Option (Opening × Text) :=
  match mode.skip s with
  | '?' :: '=' :: _ | '?' :: '!' :: _ | '?' :: '<' :: '=' :: _ | '?' :: '<' :: '!' :: _ => none
  | '?' :: 'P' :: '<' :: s | '?' :: '<' :: s => readName mode s
  | '?' :: s => readFlags mode s
  | s => some (.group none mode, s)

end ClassSheet.Pattern
