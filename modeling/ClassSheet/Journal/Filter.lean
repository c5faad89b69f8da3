import ClassSheet.Journal.Directive

/-!
# Which events are logged

The choice is a list of directives between commas. Of those that speak about an event the most
special one decides.

* `Journal.Filter`: the directives.
* `Journal.Filter.ofText?`: reads directives; a single wrong one spoils them all.
* `Journal.Filter.admits`: whether an event is logged.
* `Journal.Filter.choose`: the choice of a run.
-/

namespace ClassSheet.Journal

/-- The choice of what is logged. -/
structure Filter where
  directives : List Directive
  deriving DecidableEq, Repr

namespace Filter

/-- One level for everything. -/
def ofLevel (level : Level) : Filter := ⟨[{ level }]⟩

/-- Reads directives. None at all leave the errors. -/
def ofText? (s : Text) : Option Filter := do
  let pieces := (s.splitOn ',').filter (· != [])
  if pieces = [] then return ofLevel .error
  return ⟨← pieces.mapM Directive.ofText?⟩

/-- Of two directives the more special one, of equally special ones the later. -/
def stronger (first? : Option Directive) (second : Directive) : Option Directive :=
  match first? with
  | none => some second
  | some first => if first.le second then some second else some first

/-- The directive that decides about an event. -/
def decisive? (f : Filter) (e : Event) : Option Directive :=
  (f.directives.filter (·.covers e)).foldl stronger none

/-- Whether an event is logged. Without a directive for it, it is not. -/
def admits (f : Filter) (e : Event) : Bool :=
  match f.decisive? e with
  | none => false
  | some d => e.level.rank ≤ d.level.rank

/-- The level for a verbosity. -/
def levelOfVerbosity : Nat → Level
  | 0 => .warn
  | 1 => .info
  | 2 => .debug
  | _ => .trace

/-- The choice of a run: the given directives, if there are any and they make sense, or else what
the verbosity says. -/
def choose (directives? : Option Text) (verbosity : Nat) : Filter :=
  (directives?.bind ofText?).getD (ofLevel (levelOfVerbosity verbosity))

end Filter

end ClassSheet.Journal
