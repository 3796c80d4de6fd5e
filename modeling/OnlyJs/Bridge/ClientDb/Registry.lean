import OnlyJs.Lib.FiniteMap
import OnlyJs.Lib.StepSystem

/-!
# The registry of client databases

Aliases registered at run time are kept in a map, in a list that gives their order and in
a table of epochs, each behind a lock of its own. A call is a sequence of lock sections;
`register` and `remove` let go of the map before they turn to the list, `re_register`
holds the map until the epoch is raised. Of an entry, the registry reads the owner only.
-/

namespace OnlyJs.Bridge.ClientDb

open Lib

structure Entry where
  registeredBy : Option String
deriving DecidableEq

inductive Refusal where
  | alreadyRegistered (name : String)
  | full (cap : Nat)
  | ownerFull (cap : Nat) (owner : String)
  | notRegistered (name : String)
deriving DecidableEq

structure Registry where
  inner : Finmap fun _ : String => Entry
  order : List String
  epoch : Finmap fun _ : String => Nat
  maxEntries : Nat
  maxPerOwner : Nat

namespace Registry

def withCaps (maxEntries maxPerOwner : Nat) : Registry where
  inner := ∅
  order := []
  epoch := ∅
  maxEntries := maxEntries
  maxPerOwner := maxPerOwner

def new (maxEntries : Nat) : Registry := withCaps maxEntries 8

def epochOf (registry : Registry) (name : String) : Nat :=
  (registry.epoch.lookup name).getD 0

def bumpEpoch (registry : Registry) (name : String) : Registry :=
  { registry with epoch := registry.epoch.insert name (registry.epochOf name + 1) }

def contains (registry : Registry) (name : String) : Bool :=
  (registry.inner.lookup name).isSome

def names (registry : Registry) : List String := registry.order

def len (registry : Registry) : Nat := FiniteMap.size registry.inner

def owned (registry : Registry) (owner : Option String) : Nat :=
  FiniteMap.weight (fun _ entry => if entry.registeredBy = owner then 1 else 0) registry.inner

/-- The section of `register` on the map. -/
def register (registry : Registry) (name : String) (entry : Entry) :
    Except Refusal Registry :=
  if registry.contains name then .error (.alreadyRegistered name)
  else if registry.maxEntries ≤ registry.len then .error (.full registry.maxEntries)
  else if registry.maxPerOwner ≤ registry.owned entry.registeredBy then
    .error (.ownerFull registry.maxPerOwner (entry.registeredBy.getD "-"))
  else .ok { registry with inner := registry.inner.insert name entry }

/-- The replacement in `re_register`, of whichever owner the old entry was. -/
def reRegister (registry : Registry) (name : String) (entry : Entry) :
    Except Refusal Registry :=
  if registry.contains name then
    .ok { registry with inner := registry.inner.insert name entry }
  else .error (.notRegistered name)

/-- The section of `remove` on the map, or nothing if the alias is not there. -/
def remove (registry : Registry) (name : String) : Option Registry :=
  if registry.contains name then some { registry with inner := registry.inner.erase name }
  else none

def push (registry : Registry) (name : String) : Registry :=
  { registry with order := registry.order ++ [name] }

def prune (registry : Registry) (name : String) : Registry :=
  { registry with order := registry.order.filter fun other => other ≠ name }

end Registry

inductive Request where
  | register (name : String) (entry : Entry)
  | reRegister (name : String) (entry : Entry)
  | remove (name : String)
deriving DecidableEq

def Request.name : Request → String
  | .register name _ => name
  | .reRegister name _ => name
  | .remove name => name

inductive Outcome where
  | done
  | refused (reason : Refusal)
  | absent
deriving DecidableEq

inductive Phase where
  | called (request : Request)
  | pushing (request : Request)
  | pruning (request : Request)
  | bumping (request : Request)
  | returned (request : Request) (outcome : Outcome)
deriving DecidableEq

/-- `locked` says that a `re_register` holds the map. A call is known by its place in
the list of all calls. -/
structure State where
  registry : Registry
  locked : Bool
  calls : List Phase

def State.initial (maxEntries maxPerOwner : Nat) : State where
  registry := .withCaps maxEntries maxPerOwner
  locked := false
  calls := []

def State.resume (state : State) (call : Nat) (registry : Registry) (locked : Bool)
    (phase : Phase) : State where
  registry := registry
  locked := locked
  calls := state.calls.set call phase

def enter (state : State) (call : Nat) (request : Request) : State :=
  match request with
  | .register name entry =>
    match state.registry.register name entry with
    | .ok registry => state.resume call registry false (.pushing request)
    | .error reason =>
      state.resume call state.registry false (.returned request (.refused reason))
  | .reRegister name entry =>
    match state.registry.reRegister name entry with
    | .ok registry => state.resume call registry true (.bumping request)
    | .error reason =>
      state.resume call state.registry false (.returned request (.refused reason))
  | .remove name =>
    match state.registry.remove name with
    | some registry => state.resume call registry false (.pruning request)
    | none => state.resume call state.registry false (.returned request .absent)

def Request.holdsMap : Request → Bool
  | .reRegister _ _ => true
  | _ => false

inductive Label where
  | call (request : Request)
  | proceed (call : Nat)

def step (state : State) : Label → Option State
  | .call request => some { state with calls := state.calls ++ [.called request] }
  | .proceed call =>
    match state.calls[call]? with
    | some (.called request) => if state.locked then none else some (enter state call request)
    | some (.pushing request) =>
      some (state.resume call (state.registry.push request.name) state.locked
        (.bumping request))
    | some (.pruning request) =>
      some (state.resume call (state.registry.prune request.name) state.locked
        (.bumping request))
    | some (.bumping request) =>
      some (state.resume call (state.registry.bumpEpoch request.name)
        (state.locked && !request.holdsMap) (.returned request .done))
    | _ => none

def system (maxEntries maxPerOwner : Nat) : StepSystem.System State Label :=
  ⟨.initial maxEntries maxPerOwner, step⟩

def Phase.finished : Phase → Bool
  | .returned _ _ => true
  | _ => false

def State.quiet (state : State) : Bool := state.calls.all Phase.finished

/-- The three structures are one registry, within its quotas. -/
structure Registry.Consistent (registry : Registry) : Prop where
  once : registry.names.Nodup
  listed : ∀ name, name ∈ registry.names ↔ registry.contains name = true
  bounded : registry.len ≤ registry.maxEntries
  shared : ∀ owner, registry.owned owner ≤ registry.maxPerOwner

inductive Moves (state : State) (call : Nat) : State → Prop
  | insert (name : String) (entry : Entry)
      (before : state.calls[call]? = some (.called (.register name entry)))
      (fresh : state.registry.inner.lookup name = none)
      (room : state.registry.len < state.registry.maxEntries)
      (ownerRoom : state.registry.owned entry.registeredBy < state.registry.maxPerOwner) :
      Moves state call (state.resume call
        { state.registry with inner := state.registry.inner.insert name entry } false
        (.pushing (.register name entry)))
  | replace (name : String) (old entry : Entry)
      (before : state.calls[call]? = some (.called (.reRegister name entry)))
      (present : state.registry.inner.lookup name = some old) :
      Moves state call (state.resume call
        { state.registry with inner := state.registry.inner.insert name entry } true
        (.bumping (.reRegister name entry)))
  | erase (name : String) (old : Entry)
      (before : state.calls[call]? = some (.called (.remove name)))
      (present : state.registry.inner.lookup name = some old) :
      Moves state call (state.resume call
        { state.registry with inner := state.registry.inner.erase name } false
        (.pruning (.remove name)))
  | refuse (request : Request) (outcome : Outcome)
      (before : state.calls[call]? = some (.called request)) (failed : outcome ≠ .done) :
      Moves state call (state.resume call state.registry false (.returned request outcome))
  | push (request : Request) (before : state.calls[call]? = some (.pushing request)) :
      Moves state call (state.resume call (state.registry.push request.name) state.locked
        (.bumping request))
  | prune (request : Request) (before : state.calls[call]? = some (.pruning request)) :
      Moves state call (state.resume call (state.registry.prune request.name) state.locked
        (.bumping request))
  | bump (request : Request) (before : state.calls[call]? = some (.bumping request)) :
      Moves state call (state.resume call (state.registry.bumpEpoch request.name)
        (state.locked && !request.holdsMap) (.returned request .done))

theorem Registry.contains_iff (registry : Registry) (name : String) :
    registry.contains name = true ↔ ∃ entry, registry.inner.lookup name = some entry :=
  Option.isSome_iff_exists

theorem enter_moves {state : State} {call : Nat} {request : Request}
    (before : state.calls[call]? = some (.called request)) :
    Moves state call (enter state call request) := by
  cases request with
  | register name entry =>
    simp only [enter, Registry.register]
    by_cases taken : state.registry.contains name = true
    · rw [if_pos taken]
      exact .refuse _ _ before nofun
    · rw [if_neg taken]
      by_cases full : state.registry.maxEntries ≤ state.registry.len
      · rw [if_pos full]
        exact .refuse _ _ before nofun
      · rw [if_neg full]
        by_cases crowded : state.registry.maxPerOwner ≤ state.registry.owned entry.registeredBy
        · rw [if_pos crowded]
          exact .refuse _ _ before nofun
        · rw [if_neg crowded]
          have fresh : state.registry.inner.lookup name = none := by
            simpa [Registry.contains] using taken
          exact .insert name entry before fresh (by omega) (by omega)
  | reRegister name entry =>
    simp only [enter, Registry.reRegister]
    by_cases present : state.registry.contains name = true
    · rw [if_pos present]
      obtain ⟨old, found⟩ := (state.registry.contains_iff name).mp present
      exact .replace name old entry before found
    · rw [if_neg present]
      exact .refuse _ _ before nofun
  | remove name =>
    simp only [enter, Registry.remove]
    by_cases present : state.registry.contains name = true
    · rw [if_pos present]
      obtain ⟨old, found⟩ := (state.registry.contains_iff name).mp present
      exact .erase name old before found
    · rw [if_neg present]
      exact .refuse _ _ before nofun

theorem proceed_moves {state next : State} {call : Nat}
    (fired : step state (.proceed call) = some next) : Moves state call next := by
  simp only [step] at fired
  split at fired
  · rename_i request before
    obtain ⟨-, entered⟩ := Option.ite_none_left_eq_some.mp fired
    cases entered
    exact enter_moves before
  · rename_i request before
    cases fired
    exact .push request before
  · rename_i request before
    cases fired
    exact .prune request before
  · rename_i request before
    cases fired
    exact .bump request before
  · cases fired

end OnlyJs.Bridge.ClientDb
