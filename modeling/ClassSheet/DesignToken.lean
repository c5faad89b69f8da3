import ClassSheet.Number.Layout

/-!
# Design tokens

A design token is a named value for a CSS property. It may be used on some sides of the property
only, each named by a suffix such as `-top`; the empty suffix stands for all sides.

* `DesignToken`: name, property, kind, value, declared suffixes, and bounds for editors.
* `DesignToken.suffixes`: the suffixes a token may be used with.
* `DesignToken.normalize`: the same token with the empty suffix declared.
-/

namespace ClassSheet

open Number (Binary64 Layout)

/-- How a design token is used in rules. -/
inductive TokenKind where
  /-- A number with a unit, multiplied in rules. -/
  | range
  /-- Any text, mostly a color, used as it is. -/
  | color
  deriving DecidableEq, Repr

/-- The value of a design token. -/
inductive TokenValue where
  | number (x : Binary64)
  | text (s : Text)
  deriving DecidableEq, Repr

/-- A value as it stands in a stylesheet. -/
def TokenValue.write : TokenValue → Text
  | .number x => Layout.plain.write x
  | .text s => s

/-- A named value for a CSS property. -/
structure DesignToken where
  name : Text
  /-- The CSS property, without a side. -/
  property : Text
  kind : TokenKind
  value : TokenValue
  /-- The declared suffixes. -/
  directions : List Text := []
  min? : Option Binary64 := none
  max? : Option Binary64 := none
  step? : Option Binary64 := none
  deriving DecidableEq, Repr

namespace DesignToken

/-- A numeric token without suffixes and bounds. -/
def range (name property : Text) (value : Binary64) : DesignToken :=
  { name, property, kind := .range, value := .number value }

/-- A token with a text as its value. -/
def color (name property value : Text) : DesignToken :=
  { name, property, kind := .color, value := .text value }

/-- The token with other declared suffixes. -/
def withDirections (d : DesignToken) (directions : List Text) : DesignToken :=
  { d with directions }

/-- The token with bounds. -/
def withBounds (d : DesignToken) (min max step : Binary64) : DesignToken :=
  { d with min? := some min, max? := some max, step? := some step }

/-- Whether the token is a number with a unit. -/
def isRange (d : DesignToken) : Bool := d.kind = .range

/-- The suffixes the token may be used with. Without declared ones it is used on all sides. -/
def suffixes (d : DesignToken) : List Text :=
  if d.directions = [] then [[]] else d.directions

/-- The token with the empty suffix put in front of declared suffixes that lack it. -/
def normalize (d : DesignToken) : DesignToken :=
  if d.directions = [] ∨ [] ∈ d.directions then d
  else { d with directions := [] :: d.directions }

@[simp]
theorem name_normalize (d : DesignToken) : d.normalize.name = d.name := by
  unfold normalize; split <;> rfl

@[simp]
theorem property_normalize (d : DesignToken) : d.normalize.property = d.property := by
  unfold normalize; split <;> rfl

@[simp]
theorem normalize_normalize (d : DesignToken) : d.normalize.normalize = d.normalize := by
  by_cases h : d.directions = [] ∨ [] ∈ d.directions
  · simp [normalize, h]
  · simp [normalize, h]

end DesignToken

end ClassSheet
