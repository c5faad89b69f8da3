/-!
# Computations that may fail

* `map_eq_ok_iff`, `map_eq_error_iff`: the outcome with another value.
* `bind_eq_ok_iff`: the value of two computations, one after the other.
-/

namespace ClassSheet

variable {ε α β : Type} {x : Except ε α}

theorem map_eq_ok_iff {f : α → β} {b : β} : x.map f = .ok b ↔ ∃ a, x = .ok a ∧ f a = b := by
  cases x <;> simp [Except.map]

theorem map_eq_error_iff {f : α → β} {e : ε} : x.map f = .error e ↔ x = .error e := by
  cases x <;> simp [Except.map]

theorem bind_eq_ok_iff {f : α → Except ε β} {b : β} :
    (x >>= f) = .ok b ↔ ∃ a, x = .ok a ∧ f a = .ok b := by
  cases x <;> simp [bind, Except.bind]

end ClassSheet
