import ClassSheet.Json.Mismatch
import ClassSheet.Files.Disk

/-!
# Words for foreign causes

Messages hold words for causes that lie outside: what the file system says, and what is wrong with
a text that is no JSON. Whoever shows a message chooses them.

* `Wording`: a choice of such words.
* `Wording.plain`: the words of the command line.
* `Json.Fault.message`: the message of a fault.
-/

namespace ClassSheet

/-- The words for foreign causes. -/
structure Wording where
  file : FileError → Text
  problem : Json.Problem → Text

/-- The words for a text that is no JSON. -/
def Json.Problem.message : Json.Problem → Text
  | .malformed => "malformed JSON text".toList
  | .cutOff => "the JSON text ends too early".toList

/-- The words of the command line. -/
def Wording.plain : Wording := ⟨FileError.message, Json.Problem.message⟩

/-- The message of a fault. -/
def Json.Fault.message (words : Wording) : Json.Fault → Text
  | .problem p => words.problem p
  | .mismatch m => m.message

end ClassSheet
