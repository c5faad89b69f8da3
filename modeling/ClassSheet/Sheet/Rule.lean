import ClassSheet.Utility
import ClassSheet.Theme.Match

/-!
# Declarations and rules

What a style says about single class names, as data and as text.

* `Style`: a theme with a unit for its numbers and a policy for matching.
* `Declaration`: a custom property of the root, named like the class that needs it.
* `Rule`: the rule of one class. Rules of structured classes refer to the custom property named
  like their token.
* `Style.declaration?`: the declaration of a structured class; its side and multiplier are ignored.
* `Style.rule?`: the rule of a class name.
-/

namespace ClassSheet

/-- The unit of numbers unless another one is chosen. -/
def defaultUnit : Text := "rem".toList

/-- The choices that a configuration leaves open. -/
structure Options where
  /-- The unit of range values and of whole numbers in enumerated classes. -/
  unit : Text := defaultUnit
  policy : Policy := .exact
  deriving DecidableEq, Repr

/-- All that decides about the stylesheet of a list of class names. -/
structure Style where
  theme : Theme
  options : Options

/-- A custom property of the root. -/
structure Declaration where
  /-- The class name it is named like. -/
  name : Text
  value : TokenValue
  unit : Text
  deriving DecidableEq, Repr

/-- A declaration as it stands in the root block. -/
def Declaration.write (d : Declaration) : Text :=
  "--".toList ++ d.name ++ ": ".toList ++ d.value.write ++ d.unit ++ ";".toList

/-- The rule of one class. -/
inductive Rule where
  /-- Calculates with the number of a token. -/
  | range (name property token : Text) (multiplier? : Option Text)
  /-- Takes the value of a token. -/
  | color (name property token : Text)
  /-- Says all by itself. -/
  | enumerated (name property value unit : Text)
  deriving DecidableEq, Repr

namespace Rule

/-- The name of the custom property of a token, without the two dashes. -/
def variableName (token : Text) : Text := structuredMark ++ token

/-- The factor in a calculation. -/
def factor : Option Text → Text
  | none => []
  | some multiplier => " * ".toList ++ multiplier

/-- A rule as it stands in a stylesheet. -/
def write : Rule → Text
  | .range name property token multiplier? =>
    ".".toList ++ name ++ " \x7b".toList ++ property ++ ":calc(var(--".toList ++
      variableName token ++ ")".toList ++ factor multiplier? ++ ");\x7d".toList
  | .color name property token =>
    ".".toList ++ name ++ " \x7b".toList ++ property ++ ":var(--".toList ++
      variableName token ++ ");\x7d".toList
  | .enumerated name property value unit =>
    ".".toList ++ name ++ "\x7b".toList ++ property ++ ":".toList ++ value ++ unit ++
      "\x7d".toList

end Rule

/-- Whether a value is an optionally signed run of decimal digits, of any length. -/
def isWholeNumber (value : Text) : Bool :=
  let digits := match value with
    | '+' :: digits => digits
    | '-' :: digits => digits
    | digits => digits
  !digits.isEmpty && digits.all Char.isDigit

namespace Style

/-- The token that a structured class means. -/
def token? (style : Style) (c : StructuredClass) : Option DesignToken :=
  style.theme.resolve? style.options.policy c.body

/-- The declaration of a structured class that means a token. -/
def declaration? (style : Style) (c : StructuredClass) : Option Declaration :=
  (style.token? c).map fun d =>
    ⟨c.name, d.value, if d.isRange then style.options.unit else []⟩

/-- The rule of a class that means the given token, if that is a range token, the multiplier is a
number, and the token declares the side. -/
def rangeRuleOf? (d : DesignToken) (c : StructuredClass) : Option Rule :=
  if d.isRange && c.hasValidMultiplier then
    (d.direction? c.body).map fun direction =>
      .range c.name (d.property ++ direction.suffix) d.name c.multiplier?
  else none

/-- The rule of a class that means the given color token. -/
def colorRuleOf (d : DesignToken) (c : StructuredClass) : Rule :=
  .color c.name d.property d.name

/-- The rule of a structured class that means a range token. -/
def rangeRule? (style : Style) (c : StructuredClass) : Option Rule :=
  (style.token? c).bind fun d => rangeRuleOf? d c

/-- The rule of a structured class that means a color token. -/
def colorRule? (style : Style) (c : StructuredClass) : Option Rule :=
  (style.token? c).bind fun d => if d.kind = .color then some (colorRuleOf d c) else none

/-- The rule of an enumerated class that has a property and a value. Whole numbers get the
unit. -/
def enumeratedRule? (style : Style) (c : EnumeratedClass) : Option Rule :=
  c.declaration?.map fun p =>
    .enumerated c.name p.1 p.2 (if isWholeNumber p.2 then style.options.unit else [])

/-- The rule of a class name, if it is the name of a utility class that has one. -/
def rule? (style : Style) (name : Text) : Option Rule :=
  match Utility.ofName? name with
  | none => none
  | some (.structured c) =>
    (style.token? c).bind fun d =>
      match d.kind with
      | .range => rangeRuleOf? d c
      | .color => some (colorRuleOf d c)
  | some (.enumerated c) => style.enumeratedRule? c

end Style

end ClassSheet
