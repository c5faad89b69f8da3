import ClassSheet.Json.Document
import ClassSheet.Json.Mismatch

/-!
# Reading values from JSON trees

Each function reads one kind of value. It goes through the tree from left to right and stops at
the first fault.

* `Json.fault`: the fault of a tree that is not what was wanted.
* `Json.skip`: passes over a value that nobody wants.
* `Json.check`: passes over a value that must be well formed in all its parts.
* `Json.readText`, `Json.readNumberValue`, `Json.readList`, `Json.readChoice`: the kinds of values.
* `Json.readDocument`: a value that is a whole text.
-/

namespace ClassSheet.Json

open Number (Binary64)

/-- A value, or the first fault. -/
abbrev Reading := Except Fault

/-- Stops at a problem of the text. -/
def problem {α : Type} (p : Problem) : Reading α := .error (.problem p)

/-- Stops at something that should not stand there. -/
def mismatch {α : Type} (m : Mismatch) : Reading α := .error (.mismatch m)

/-- The fault of a tree where something else was wanted. A leaf is read to its end first. -/
def fault (wanted : Wanted) : Tree → Fault
  | .null => .mismatch (.wrongKind .null wanted)
  | .boolean b => .mismatch (.wrongKind (.boolean b) wanted)
  | .number (some n) => .mismatch (.wrongKind (.ofNumeral n) wanted)
  | .number none => .problem .malformed
  | .text (some s) => .mismatch (.wrongKind (.text s) wanted)
  | .text none => .problem .malformed
  | .list _ => .mismatch (.wrongKind .list wanted)
  | .object _ => .mismatch (.wrongKind .object wanted)
  | .absent p => .problem p
  | .broken reading _ | .brokenText reading _ => .problem reading

/-! ## Passing over values -/

mutual

/-- Passes over a value that nobody wants. -/
def skip : Tree → Reading Unit
  | .list items => skipItems items
  | .object members => skipMembers members
  | .absent p => problem p
  | .broken _ skipping | .brokenText _ skipping => problem skipping
  | _ => .ok ()

/-- Passes over the rest of a list. -/
def skipItems : Items → Reading Unit
  | .closed => .ok ()
  | .broken p => problem p
  | .cons item rest =>
    match skip item with
    | .error f => .error f
    | .ok () => skipItems rest

/-- Passes over the rest of an object. -/
def skipMembers : Members → Reading Unit
  | .closed => .ok ()
  | .broken p => problem p
  | .brokenName _ skipping => problem skipping
  | .unnamed p => problem p
  | .cons _ value rest =>
    match skip value with
    | .error f => .error f
    | .ok () => skipMembers rest

end

/-- How many lists and objects may lie around each other, the innermost included. -/
def greatestDepth : Nat := 127

mutual

/-- Passes over a value with all its strings and numbers, inside `depth` lists and objects. -/
def check (depth : Nat) : Tree → Reading Unit
  | .number none | .text none => problem .malformed
  | .absent p => problem p
  | .broken reading _ | .brokenText reading _ => problem reading
  | .list items =>
    if depth < greatestDepth then checkItems (depth + 1) items else problem .malformed
  | .object members =>
    if depth < greatestDepth then checkMembers (depth + 1) members else problem .malformed
  | _ => .ok ()

/-- Passes over the rest of a list with all its strings and numbers. -/
def checkItems (depth : Nat) : Items → Reading Unit
  | .closed => .ok ()
  | .broken p => problem p
  | .cons item rest =>
    match check depth item with
    | .error f => .error f
    | .ok () => checkItems depth rest

/-- Passes over the rest of an object with all its strings and numbers. -/
def checkMembers (depth : Nat) : Members → Reading Unit
  | .closed => .ok ()
  | .broken p => problem p
  | .brokenName reading _ => problem reading
  | .unnamed p => problem p
  | .cons none _ _ => problem .malformed
  | .cons (some _) value rest =>
    match check depth value with
    | .error f => .error f
    | .ok () => checkMembers depth rest

end

/-! ## Kinds of values -/

/-- Reads a string that is wanted as a text or as a path. -/
def readText (wanted : Wanted) : Tree → Reading Text
  | .text (some s) => .ok s
  | tree => .error (fault wanted tree)

/-- Reads a number. -/
def readNumberValue : Tree → Reading Binary64
  | .number (some n) => .ok n.toBinary64
  | tree => .error (fault .number tree)

/-- Reads a number or `null`. -/
def readOptionalNumber : Tree → Reading (Option Binary64)
  | .null => .ok none
  | tree => (readNumberValue tree).map some

/-- Reads `null`. -/
def readNull : Tree → Reading Unit
  | .null => .ok ()
  | tree => .error (fault .null tree)

/-- Reads the rest of a list. -/
def readListItems {α : Type} (read : Tree → Reading α) : Items → Reading (List α)
  | .closed => .ok []
  | .broken p => problem p
  | .cons item rest => do
    let a ← read item
    let as ← readListItems read rest
    return a :: as

/-- Reads a list. -/
def readList {α : Type} (read : Tree → Reading α) : Tree → Reading (List α)
  | .list items => readListItems read items
  | tree => .error (fault .list tree)

/-- The choice of a name. -/
def chosen {α : Type} (choices : List (Text × α)) (word : Text) : Reading α :=
  match choices.lookup word with
  | some a => .ok a
  | none => mismatch (.unknownChoice word (choices.map (·.1)))

/-- Reads the end of an object that has to have one member. No comma may follow that member, not
even where the text ends behind it. -/
def readOnlyMember : Members → Reading Unit
  | .closed => .ok ()
  | .broken p => problem p
  | _ => problem .malformed

/-- Reads one of several choices: its name, or an object whose only member has that name and the
value `null`. Anything else that begins here is not even looked at. -/
def readChoice {α : Type} (choices : List (Text × α)) : Tree → Reading α
  | .text (some word) => chosen choices word
  | .absent p => problem p
  | .brokenText reading _ => problem reading
  | .object (.cons (some word) value rest) => do
    let a ← chosen choices word
    readNull value
    readOnlyMember rest
    return a
  | .object (.brokenName reading _) => problem reading
  | .object (.broken p) => problem p
  | .object (.unnamed p) => problem p
  | _ => problem .malformed

/-- Reads a whole text. Nothing but blanks may follow the value. -/
def readDocument {α : Type} (read : Tree → Reading α) (s : Text) : Reading α := do
  let document := Document.ofText s
  let a ← read document.tree
  if document.trailing then problem .malformed else return a

end ClassSheet.Json
