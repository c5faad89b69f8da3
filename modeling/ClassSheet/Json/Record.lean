import ClassSheet.Json.Read

/-!
# Reading records

A record is given as an object with named fields in any order, or as a list of its fields in the
order of their declaration. Members of other names are passed over.

* `Json.Field`: a field, and how its value is put into a draft of the record.
* `Json.Record`: the fields of a record, and how a draft is finished.
* `Json.Record.read`: reads a record from a tree.
-/

namespace ClassSheet.Json

/-- A field of a record that is drafted as a `σ`. -/
structure Field (σ : Type) where
  name : Text
  /-- Other names for it. -/
  aliases : List Text := []
  /-- Whether a record without it is incomplete. -/
  required : Bool := true
  /-- Whether the draft has it already. -/
  present : σ → Bool
  /-- Reads its value into the draft. -/
  store : σ → Tree → Reading σ

/-- How to read a `ρ`, drafted as a `σ`. -/
structure Record (σ ρ : Type) where
  name : Text
  fields : List (Field σ)
  /-- The draft that has no field yet. -/
  empty : σ
  /-- The record of a draft that has all required fields. -/
  finish? : σ → Option ρ

namespace Record

variable {σ ρ : Type}

/-- The field that a member of an object stands for. -/
def field? (r : Record σ ρ) (name : Text) : Option (Field σ) :=
  r.fields.find? fun f => f.name = name || name ∈ f.aliases

/-- The first required field that a draft does not have. -/
def firstMissing? (r : Record σ ρ) (draft : σ) : Option (Field σ) :=
  r.fields.find? fun f => f.required && !f.present draft

/-- The record of a draft, or its first missing field. -/
def complete (r : Record σ ρ) (draft : σ) : Reading ρ :=
  match r.firstMissing? draft, r.finish? draft with
  | none, some a => .ok a
  | some f, _ => mismatch (.missingField f.name)
  | none, none => mismatch (.missingField [])

/-- Reads the members of an object into a draft. A field given twice is refused at its second
name. -/
def readMembers (r : Record σ ρ) (draft : σ) : Members → Reading σ
  | .closed => .ok draft
  | .broken p => problem p
  | .brokenName reading _ => problem reading
  | .unnamed p => problem p
  | .cons none _ _ => problem .malformed
  | .cons (some name) value rest =>
    match r.field? name with
    | none => do
      skip value
      r.readMembers draft rest
    | some f =>
      if f.present draft then mismatch (.repeatedField f.name)
      else do
        let draft ← f.store draft value
        r.readMembers draft rest

/-- Reads the items of a list into a draft, the first `index` fields being settled. -/
def readItems (r : Record σ ρ) (index : Nat) (draft : σ) : List (Field σ) → Items → Reading σ
  | [], .closed => .ok draft
  | [], .broken p => problem p
  | [], .cons _ _ => problem .malformed
  | _ :: _, .broken p => problem p
  | f :: fields, .closed =>
    if f.required then mismatch (.shortList index r.name r.fields.length)
    else r.readItems (index + 1) draft fields .closed
  | f :: fields, .cons item rest => do
    let draft ← f.store draft item
    r.readItems (index + 1) draft fields rest

/-- Reads a record. -/
def read (r : Record σ ρ) : Tree → Reading ρ
  | .object members => do
    let draft ← r.readMembers r.empty members
    r.complete draft
  | .list items => do
    let draft ← r.readItems 0 r.empty r.fields items
    r.complete draft
  | tree => .error (fault (.record r.name) tree)

end Record

end ClassSheet.Json
