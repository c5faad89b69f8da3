import ClassSheet.Text.Bytes

/-!
# Paths

A path is kept as it was written. It consists of bytes, since names need not be texts. Its parts are
what stands between slashes; empty parts and single dots are passed over, except a single dot at the
beginning of a relative path.

* `Path.ofText`, `Path.text`: the path that a text is, and the text that a path is shown as.
* `Path.join`: a path below another one.
* `Path.parts`: what stands between slashes, nothing left out.
* `Path.parent?`, `Path.fileName?`: the path without its last part, and that part.
* `Path.hasExtension`: whether the last part ends in a dot and an extension.
-/

namespace ClassSheet

/-- A path as it was written. -/
structure Path where
  bytes : Bytes
  deriving DecidableEq, Repr

namespace Path

/-- The path that is written as a text. -/
def ofText (s : Text) : Path := ⟨s.bytes⟩

/-- The text that the path is shown as. -/
def text (p : Path) : Text := p.bytes.shown

@[simp]
theorem text_ofText (s : Text) : (ofText s).text = s := Bytes.shown_bytes s

/-- The byte between two parts. -/
abbrev slash : UInt8 := 0x2F

/-- The byte that two parts with a meaning of their own are made of. -/
abbrev dot : UInt8 := 0x2E

/-- Whether the path starts at the root of all directories. -/
def isAbsolute (p : Path) : Bool := p.bytes.head? == some slash

/-- The path `q`, taken from the directory `p`. An absolute path stands for itself; in front of any
other one slash is put, unless `p` is empty or ends with a slash. -/
def join (p q : Path) : Path :=
  if q.isAbsolute then q
  else if p.bytes = [] ∨ p.bytes.getLast? = some slash then ⟨p.bytes ++ q.bytes⟩
  else ⟨p.bytes ++ slash :: q.bytes⟩

/-- What stands between slashes, empty parts and dots included. -/
def parts (p : Path) : List Bytes := p.bytes.splitOn slash

/-- Whether a part stands for the directory it is found in. -/
def isIdle (part : Bytes) : Bool := part == [] || part == [dot]

/-- The part that stands for the directory above. -/
def above : Bytes := [dot, dot]

/-- A list of parts without idle parts at its end. -/
def trimEnd (parts : List Bytes) : List Bytes := (parts.reverse.dropWhile isIdle).reverse

/-- The beginning of a path that is no part of its own: a slash, or a single dot. -/
inductive Start where
  | root
  | dot
  | none
  deriving DecidableEq, Repr

/-- The beginning of a path and its parts, without idle ones at the end. -/
def split (p : Path) : Start × List Bytes :=
  match p.parts with
  | [] :: part :: parts => (.root, trimEnd (part :: parts))
  | [0x2E] :: parts => (.dot, trimEnd parts)
  | parts => (.none, trimEnd parts)

/-- The path with the given beginning and parts. -/
def ofSplit (start : Start) (parts : List Bytes) : Path :=
  match start with
  | .root => ⟨slash :: [slash].intercalate parts⟩
  | .dot => ⟨[slash].intercalate ([dot] :: parts)⟩
  | .none => ⟨[slash].intercalate parts⟩

/-- The path without its last part. Neither the empty path nor the root has a last part. -/
def parent? (p : Path) : Option Path :=
  match p.split with
  | (.dot, []) => some ⟨[]⟩
  | (_, []) => none
  | (start, parts) => some (ofSplit start (trimEnd parts.dropLast))

/-- The last part of a path, unless it stands for the directory above. -/
def fileName? (p : Path) : Option Bytes :=
  p.split.2.getLast?.filter (· != above)

/-- An extension without the dots in front of it. -/
def bareExtension (extension : Text) : Text := extension.dropWhile (· == '.')

/-- Whether the file name ends in a dot and the extension, which may be given with or without dots
in front of it. No file has the empty extension, and a file whose name is no text has none. -/
def hasExtension (p : Path) (extension : Text) : Bool :=
  let extension := bareExtension extension
  extension != [] &&
    match (p.fileName?.bind Bytes.text?).bind (Text.before? extension) with
    | some stem => stem.getLast? == some '.'
    | none => false

end Path

end ClassSheet
