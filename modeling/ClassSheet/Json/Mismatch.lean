import ClassSheet.Json.Tree
import ClassSheet.Number.Layout
import ClassSheet.Text.Quoted

/-!
# What a JSON text can have wrong

* `Json.Found`, `Json.Wanted`: what stands in a text and what should stand there.
* `Json.Mismatch`: why a JSON text does not say what it should.
* `Json.Fault`: a text is no JSON, or does not say what it should.
-/

namespace ClassSheet.Json

open Number (Binary64 Layout)

/-- What stands at some place of a text. -/
inductive Found where
  | null
  | boolean (b : Bool)
  | integer (n : Int)
  | floating (x : Binary64)
  | text (s : Text)
  | list
  | object
  deriving DecidableEq, Repr

namespace Found

/-- The words for a number. -/
def ofNumeral : Numeral → Found
  | .integer n => .integer n
  | .floating x => .floating x

/-- The words for what was found. -/
def write : Found → Text
  | .null => "null".toList
  | .boolean b => "boolean `".toList ++ (if b then "true" else "false").toList ++ "`".toList
  | .integer n => "integer `".toList ++ Text.ofInt n ++ "`".toList
  | .floating x => "floating point `".toList ++ Layout.marked.write x ++ "`".toList
  | .text s => "string ".toList ++ Text.quoted s
  | .list => "sequence".toList
  | .object => "map".toList

end Found

/-- What should stand at some place of a text. -/
inductive Wanted where
  | text
  | path
  | number
  | list
  | null
  /-- An object, or a list, with the fields of a record. -/
  | record (name : Text)
  deriving DecidableEq, Repr

/-- The words for what was wanted. -/
def Wanted.write : Wanted → Text
  | .text => "a string".toList
  | .path => "path string".toList
  | .number => "f64".toList
  | .list => "a sequence".toList
  | .null => "unit".toList
  | .record name => "struct ".toList ++ name

/-- Why a JSON text does not say what it should. -/
inductive Mismatch where
  | wrongKind (found : Found) (wanted : Wanted)
  | missingField (name : Text)
  /-- A field is given twice, under whatever names. -/
  | repeatedField (name : Text)
  | unknownChoice (word : Text) (known : List Text)
  /-- A record is given as a list of the first `length` fields, and the next one is needed. -/
  | shortList (length : Nat) (record : Text) (size : Nat)
  /-- A value is of none of the kinds that the named type has. -/
  | noAlternative (type : Text)
  /-- What the text says was refused, in the words of whoever checked it. -/
  | refused (message : Text)
  deriving DecidableEq, Repr

namespace Mismatch

/-- A word between backquotes. -/
def backquoted (word : Text) : Text := "`".toList ++ word ++ "`".toList

/-- The words for a choice between names. -/
def oneOf : List Text → Text
  | [] => "there are no variants".toList
  | [a] => backquoted a
  | [a, b] => backquoted a ++ " or ".toList ++ backquoted b
  | names => "one of ".toList ++ ", ".toList.intercalate (names.map backquoted)

/-- The message for the user. -/
def message : Mismatch → Text
  | .wrongKind found wanted =>
    "invalid type: ".toList ++ found.write ++ ", expected ".toList ++ wanted.write
  | .missingField name => "missing field ".toList ++ backquoted name
  | .repeatedField name => "duplicate field ".toList ++ backquoted name
  | .unknownChoice word known =>
    "unknown variant ".toList ++ backquoted word ++ ", expected ".toList ++ oneOf known
  | .shortList length record size =>
    "invalid length ".toList ++ Text.ofNat length ++ ", expected struct ".toList ++ record ++
      " with ".toList ++ Text.ofNat size ++ " elements".toList
  | .noAlternative type => "data did not match any variant of untagged enum ".toList ++ type
  | .refused message => message

end Mismatch

/-- Why a text could not be read. -/
inductive Fault where
  | problem (p : Problem)
  | mismatch (m : Mismatch)
  deriving DecidableEq, Repr

end ClassSheet.Json
