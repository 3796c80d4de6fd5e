import Mathlib.Algebra.Order.Ring.Int

/-!
# Computations over a state that may stop

A computation reads and changes a state and ends with a value or with an error.
The state it reached is kept in both cases, so `outcome` gives the pair of the
end and the state, and the lemmas say what the outcome of a composed
computation is.
-/

namespace OnlyJs.Lib.Effects

set_option autoImplicit false

universe u

/-- A computation over `State` that ends with a value or stops with an error. -/
abbrev Effect (State Error Value : Type u) := ExceptT Error (StateM State) Value

variable {State Error Value Result : Type u}

/-- How a computation ends, and the state it leaves. -/
def outcome (computation : Effect State Error Value) (state : State) :
    Except Error Value × State :=
  computation.run.run state

theorem outcome_bind (first : Effect State Error Value) (rest : Value → Effect State Error Result)
    (state : State) :
    outcome (first >>= rest) state =
      match outcome first state with
      | (.ok value, next) => outcome (rest value) next
      | (.error error, next) => (.error error, next) := by
  unfold outcome ExceptT.run StateT.run
  simp only [bind, ExceptT.bind, ExceptT.mk, StateT.bind]
  rcases first state with ⟨ended, next⟩
  cases ended with
  | ok value => rfl
  | error error => rfl

variable {first : Effect State Error Value} {state : State}

theorem outcome_bind_ok {next : State} {value : Value}
    (ended : outcome first state = (.ok value, next)) (rest : Value → Effect State Error Result) :
    outcome (first >>= rest) state = outcome (rest value) next := by
  rw [outcome_bind, ended]

theorem outcome_bind_error {next : State} {error : Error}
    (ended : outcome first state = (.error error, next))
    (rest : Value → Effect State Error Result) :
    outcome (first >>= rest) state = (.error error, next) := by
  rw [outcome_bind, ended]

/-- A composed computation that ends with a value has ended both its parts. -/
theorem bind_ended {rest : Value → Effect State Error Result} {last : State} {result : Result}
    (ended : outcome (first >>= rest) state = (.ok result, last)) :
    ∃ value next, outcome first state = (.ok value, next) ∧
      outcome (rest value) next = (.ok result, last) := by
  rw [outcome_bind] at ended
  rcases started : outcome first state with ⟨end_first, next⟩
  rw [started] at ended
  cases end_first with
  | ok value => exact ⟨value, next, rfl, ended⟩
  | error error => cases ended

/-- A part that reads nothing and changes nothing: it ends as its result says. -/
def settle (result : Except Error Value) : Effect State Error Value :=
  match result with
  | .ok value => pure value
  | .error error => throw error

@[simp] theorem outcome_get (state : State) :
    outcome (get : Effect State Error State) state = (.ok state, state) := rfl

end OnlyJs.Lib.Effects
