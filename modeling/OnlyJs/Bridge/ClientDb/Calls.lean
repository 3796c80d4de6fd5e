import OnlyJs.Bridge.ClientDb.Consistency

/-!
# Calls on the registry

What a call has done once it has returned: the epoch of its alias is above what it was
when the call began, or nothing has changed. With the account of the order this is what
the registry promises its callers.
-/

namespace OnlyJs.Bridge.ClientDb

open Lib List

theorem epoch_bump (registry : Registry) (name other : String) :
    (registry.bumpEpoch name).epochOf other =
      registry.epochOf other + (decide (other = name)).toNat := by
  by_cases same : other = name
  · subst same
    simp [Registry.epochOf, Registry.bumpEpoch]
  · simp [Registry.epochOf, Registry.bumpEpoch, same]

variable {next state : State} {call : Nat}

theorem epoch_moves (moved : Moves state call next) (name : String) :
    state.registry.epochOf name ≤ next.registry.epochOf name := by
  cases moved with
  | bump request before =>
    have raised := epoch_bump state.registry request.name name
    simp only [State.resume]
    omega
  | _ => exact le_rfl

theorem resumed {before after : Phase} {registry : Registry} {locked : Bool}
    (stood : state.calls[call]? = some before) :
    (state.resume call registry locked after).calls[call]? = some after :=
  getElem?_set_self (List.getElem?_eq_some_iff.mp stood).1

theorem others_moves {other : Nat} (moved : Moves state call next) (distinct : call ≠ other) :
    next.calls[other]? = state.calls[other]? := by
  cases moved <;> exact getElem?_set_ne distinct

/-- The epochs are not below what they were, and above it for a call that has succeeded. -/
structure Raised (since : String → Nat) (call : Nat) (state : State) : Prop where
  kept : ∀ name, since name ≤ state.registry.epochOf name
  done : ∀ request, state.calls[call]? = some (.returned request .done) →
    since request.name < state.registry.epochOf request.name

theorem raised_moves {since : String → Nat} {mover : Nat} (raised : Raised since call state)
    (moved : Moves state mover next) :
    Raised since call next := by
  refine ⟨fun name => (raised.kept name).trans (epoch_moves moved name), ?_⟩
  intro request returned
  by_cases own : mover = call
  · subst own
    cases moved with
    | bump finished before =>
      rw [resumed before] at returned
      simp only [Option.some.injEq, Phase.returned.injEq, and_true] at returned
      subst returned
      have above := epoch_bump state.registry finished.name finished.name
      have kept := raised.kept finished.name
      simp only [decide_true, Bool.toNat_true] at above
      simp only [State.resume]
      omega
    | refuse refused outcome before failed =>
      rw [resumed before] at returned
      simp only [Option.some.injEq, Phase.returned.injEq] at returned
      exact absurd returned.2 failed
    | _ => simp_all [State.resume, getElem?_set]
  · rw [others_moves moved own] at returned
    exact (raised.done request returned).trans_le (epoch_moves moved request.name)

variable {maxEntries maxPerOwner : Nat}

theorem raised_path {start finish : State} {labels : List Label}
    (path : StepSystem.Path (system maxEntries maxPerOwner) StepSystem.Unrestricted start
      labels finish)
    (later : start.calls.length ≤ call) : Raised start.registry.epochOf call finish := by
  have preserved : StepSystem.Preserved (system maxEntries maxPerOwner) StepSystem.Unrestricted
      (Raised start.registry.epochOf call) := by
    intro state label next raised _ fired
    cases label with
    | call request =>
      cases fired
      refine ⟨raised.kept, fun finished returned => ?_⟩
      rw [getElem?_append] at returned
      split at returned
      · exact raised.done finished returned
      · rw [getElem?_singleton] at returned
        split at returned <;> cases returned
    | proceed mover => exact raised_moves raised (proceed_moves fired)
  refine StepSystem.path_preserves preserved path ⟨fun name => le_rfl, fun request returned => ?_⟩
  rw [getElem?_eq_none later] at returned
  cases returned

def Phase.succeeds : Phase → Bool
  | .called _ => false
  | .returned _ outcome => outcome = .done
  | _ => true

theorem succeeds_moves (moved : Moves state call next) :
    (next.registry = state.registry ∧ ∃ request, state.calls[call]? = some (.called request)) ∨
      ∃ phase, next.calls[call]? = some phase ∧ phase.succeeds = true := by
  cases moved with
  | insert name entry before fresh room ownerRoom | replace name old entry before present
  | erase name old before present => exact .inr ⟨_, resumed before, rfl⟩
  | refuse request outcome before failed => exact .inl ⟨rfl, request, before⟩
  | push request before | prune request before | bump request before =>
    exact .inr ⟨_, resumed before, rfl⟩

theorem succeeds_kept {mover : Nat} {phase : Phase} (stood : state.calls[call]? = some phase)
    (succeeds : phase.succeeds = true) (moved : Moves state mover next) :
    ∃ after, next.calls[call]? = some after ∧ after.succeeds = true := by
  by_cases own : mover = call
  · subst own
    rcases succeeds_moves moved with ⟨-, request, before⟩ | kept
    · rw [before] at stood
      cases stood
      cases succeeds
    · exact kept
  · exact ⟨phase, (others_moves moved own).trans stood, succeeds⟩

theorem refused_path {finish : State} {labels : List Label} {request : Request} {outcome : Outcome}
    (fired : step state (.proceed call) = some next)
    (path : StepSystem.Path (system maxEntries maxPerOwner) StepSystem.Unrestricted next
      labels finish)
    (returned : finish.calls[call]? = some (.returned request outcome)) (failed : outcome ≠ .done) :
    next.registry = state.registry := by
  rcases succeeds_moves (proceed_moves fired) with ⟨same, -⟩ | started
  · exact same
  · have preserved : StepSystem.Preserved (system maxEntries maxPerOwner)
        StepSystem.Unrestricted fun state =>
          ∃ phase, state.calls[call]? = some phase ∧ phase.succeeds = true := by
      intro state label next ⟨phase, stood, succeeds⟩ _ fired
      cases label with
      | call request =>
        cases fired
        have bound := (List.getElem?_eq_some_iff.mp stood).1
        exact ⟨phase, (getElem?_append_left bound).trans stood, succeeds⟩
      | proceed mover => exact succeeds_kept stood succeeds (proceed_moves fired)
    obtain ⟨phase, stood, succeeds⟩ := StepSystem.path_preserves preserved path started
    rw [returned] at stood
    cases stood
    simp only [Phase.succeeds, decide_eq_true_eq] at succeeds
    exact absurd succeeds failed

/-- Over every run in which aliases are appended where they are not listed, pruned where
they are, and replaced within the quota of the new owner, the registry is consistent
whenever no call is in progress. In every run, a call that succeeds raises the epoch of
its alias over what it was before the call, and no section of a call that fails changes
anything. -/
theorem registry_consistent {state : State}
    (reached : StepSystem.Reachable (system maxEntries maxPerOwner) Orderly state) :
    (state.quiet = true → state.registry.Consistent) ∧
      ∀ labels finish call request outcome,
        StepSystem.Path (system maxEntries maxPerOwner) StepSystem.Unrestricted state labels
          finish →
        finish.calls[call]? = some (.returned request outcome) →
          (outcome = .done → state.calls.length ≤ call →
            state.registry.epochOf request.name < finish.registry.epochOf request.name) ∧
          (outcome ≠ .done → ∀ rest next, labels = .proceed call :: rest →
            step state (.proceed call) = some next → next.registry = state.registry) := by
  refine ⟨fun quiet => ?_, fun labels finish call request outcome path returned => ⟨?_, ?_⟩⟩
  · have accounted := StepSystem.invariant_of_step (accounted_initial maxEntries maxPerOwner)
      accounted_step reached
    exact consistent_of_quiet accounted quiet
  · intro succeeded later
    subst succeeded
    exact (raised_path path later).done request returned
  · intro failed rest next split fired
    subst split
    obtain ⟨-, second, went, continued⟩ := path
    cases fired.symm.trans went
    exact refused_path fired continued returned failed

/-- One alias registered by one owner. -/
theorem registry_consistent_one :
    ∃ state : State, state.registry.names = ["a"] ∧ state.registry.Consistent := by
  have first : StepSystem.Path (system 1 1) Orderly (State.initial 1 1)
      [.call (.register "a" ⟨some "u"⟩), .proceed 0, .proceed 0, .proceed 0] _ :=
    ⟨trivial, _, rfl, trivial, _, rfl, nofun, _, rfl, trivial, _, rfl, rfl⟩
  exact ⟨_, rfl, (registry_consistent ⟨_, first⟩).1 rfl⟩

/-- An alias is listed that has been removed, its registration having reached the order
after the removal had; and an owner has two entries under a quota of one, the second
taken over from another owner. -/
theorem listed_after_removal :
    (∃ state, StepSystem.Reachable (system 1 1) StepSystem.Unrestricted state ∧
      state.quiet = true ∧ "a" ∈ state.registry.names ∧ state.registry.contains "a" = false) ∧
    ∃ state, StepSystem.Reachable (system 2 1) StepSystem.Unrestricted state ∧
      state.quiet = true ∧ state.registry.maxPerOwner < state.registry.owned (some "u") := by
  constructor
  · have path : StepSystem.Path (system 1 1) StepSystem.Unrestricted (State.initial 1 1)
      [.call (.register "a" ⟨some "u"⟩), .proceed 0, .call (.remove "a"), .proceed 1, .proceed 1,
        .proceed 1, .proceed 0, .proceed 0] _ :=
      StepSystem.path_of_run _ _ _ rfl
    exact ⟨_, ⟨_, path⟩, rfl, mem_singleton_self _, rfl⟩
  · have path : StepSystem.Path (system 2 1) StepSystem.Unrestricted (State.initial 2 1)
      [.call (.register "a" ⟨some "u"⟩), .proceed 0, .proceed 0, .proceed 0,
        .call (.register "b" ⟨some "v"⟩), .proceed 1, .proceed 1, .proceed 1,
        .call (.reRegister "b" ⟨some "u"⟩), .proceed 2, .proceed 2] _ :=
      StepSystem.path_of_run _ _ _ rfl
    exact ⟨_, ⟨_, path⟩, rfl, by decide⟩

end OnlyJs.Bridge.ClientDb
