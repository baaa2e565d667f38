import Mathlib.Data.List.Basic
import Mathlib.Tactic.Common

/-!
# Checks made one after the other

A computation in `Except` that only checks fails with the fault of the first
check that finds one. `failure` takes the error of a computation, and
`failure_bind` splits it along a `do` block, one statement after the other, into
the `firstFault` of a list of checks.
-/

namespace Framework

universe u

variable {ε κ ι : Type*} {α β : Type u}

/-- The error of a computation that failed. -/
def failure : Except ε α → Option ε
  | .error e => some e
  | .ok _ => none

@[simp] theorem failure_error (e : ε) : failure (.error e : Except ε α) = some e := rfl
@[simp] theorem failure_ok (a : α) : failure (.ok a : Except ε α) = none := rfl

theorem failure_eq_some_iff {x : Except ε α} {e : ε} : failure x = some e ↔ x = .error e := by
  cases x <;> simp

theorem mapError_eq_error_iff {ε' : Type*} {x : Except ε α} {f : ε → ε'} {e : ε'} :
    x.mapError f = .error e ↔ ∃ e₀, x = .error e₀ ∧ f e₀ = e := by
  cases x <;> simp [Except.mapError]

/-- The rest of a `do` block fails only if its first statement does not. -/
theorem failure_bind {x : Except ε α} {f : α → Except ε β} {r : Option ε}
    (h : ∀ a, x = .ok a → failure (f a) = r) : failure (x >>= f) = (failure x).or r := by
  cases x with
  | error e => rfl
  | ok a => exact h a rfl

/-- What a check finds in an input; `name` says what it is about. -/
structure Check (κ ι ε : Type*) where
  name : κ
  fault : ι → Option ε

/-- The fault of the first check that finds one. -/
def firstFault (checks : List (Check κ ι ε)) (i : ι) : Option ε :=
  checks.findSome? fun check => check.fault i

section

variable {check : Check κ ι ε} {checks checks' : List (Check κ ι ε)} {i : ι} {e : ε}

@[simp] theorem firstFault_nil : firstFault ([] : List (Check κ ι ε)) i = none := rfl

theorem firstFault_cons : firstFault (check :: checks) i = (check.fault i).or (firstFault checks i) := by
  rw [firstFault, List.findSome?_cons]
  cases check.fault i <;> rfl

theorem firstFault_append :
    firstFault (checks ++ checks') i = (firstFault checks i).or (firstFault checks' i) :=
  List.findSome?_append

/-- The checks before the first that finds a fault find none. -/
theorem firstFault_eq_some_iff : firstFault checks i = some e ↔
    ∃ before check after, checks = before ++ check :: after ∧ check.fault i = some e ∧
      ∀ c ∈ before, c.fault i = none :=
  List.findSome?_eq_some_iff

end

end Framework
