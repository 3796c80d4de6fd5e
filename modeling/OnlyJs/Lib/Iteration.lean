import Mathlib.Algebra.Order.Ring.Int

/-!
# Readers and what they yield

A reader is a machine whose turns produce items, finish, fail, panic, or only do
work. `Yields` says that a reader comes to its end without failing or panicking,
and with which items; it therefore includes termination.
-/

namespace OnlyJs.Lib.Iteration

set_option autoImplicit false

universe u w

inductive Turn (State : Type u) (Item : Type w) where
  | finished
  | item (value : Item) (next : State)
  | again (next : State)
  | failed (message : String)
  | panicked

inductive Yields {State : Type u} {Item : Type w} (turn : State → Turn State Item) :
    State → List Item → Prop where
  | finished {state : State} (ends : turn state = .finished) : Yields turn state []
  | item {state next : State} {value : Item} {values : List Item}
      (produces : turn state = .item value next) (rest : Yields turn next values) :
      Yields turn state (value :: values)
  | again {state next : State} {values : List Item} (works : turn state = .again next)
      (rest : Yields turn next values) : Yields turn state values

section OneReader

variable {State : Type u} {Item : Type w} {turn : State → Turn State Item}

variable {state : State} {values : List Item}

theorem yields_finished (yields : Yields turn state values) (ends : turn state = .finished) :
    values = [] := by
  cases yields with
  | finished => rfl
  | item produces => cases ends.symm.trans produces
  | again works => cases ends.symm.trans works

theorem yields_item {next : State} {value : Item} (yields : Yields turn state values)
    (produces : turn state = .item value next) :
    ∃ rest, values = value :: rest ∧ Yields turn next rest := by
  cases yields with
  | finished ends => cases produces.symm.trans ends
  | item other rest =>
    cases produces.symm.trans other
    exact ⟨_, rfl, rest⟩
  | again works => cases produces.symm.trans works

theorem yields_again {next : State} (yields : Yields turn state values)
    (works : turn state = .again next) :
    Yields turn next values := by
  cases yields with
  | finished ends => cases works.symm.trans ends
  | item produces => cases works.symm.trans produces
  | again other rest =>
    cases works.symm.trans other
    exact rest

theorem yields_unique {others : List Item} (first : Yields turn state values)
    (second : Yields turn state others) :
    values = others := by
  induction first generalizing others with
  | finished ends => exact (yields_finished second ends).symm
  | item produces _ ih =>
    obtain ⟨rest, rfl, continued⟩ := yields_item second produces
    rw [ih continued]
  | again works _ ih => exact ih (yields_again second works)

/-- The items of a reader that finishes within the given number of turns. -/
def collect (turn : State → Turn State Item) : Nat → State → Option (List Item)
  | 0, _ => none
  | fuel + 1, state =>
    match turn state with
    | .finished => some []
    | .item value next => (collect turn fuel next).map (value :: ·)
    | .again next => collect turn fuel next
    | .failed _ => none
    | .panicked => none

theorem yields_of_collect {fuel : Nat} (collected : collect turn fuel state = some values) :
    Yields turn state values := by
  induction fuel generalizing state values with
  | zero => cases collected
  | succ fuel ih =>
    simp only [collect] at collected
    split at collected
    · rename_i ends
      cases collected
      exact .finished ends
    · rename_i value next produces
      obtain ⟨rest, continued, rfl⟩ := Option.map_eq_some_iff.mp collected
      exact .item produces (ih continued)
    · rename_i next works
      exact .again works (ih collected)
    · cases collected
    · cases collected

end OneReader

end OnlyJs.Lib.Iteration
