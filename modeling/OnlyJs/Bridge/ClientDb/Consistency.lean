import OnlyJs.Bridge.ClientDb.Registry

/-!
# Consistency of the registry

The order lists an alias once for every registered entry, short by the calls that have
yet to append it and long by those that have yet to prune it. Where the sections on the
order come in the sequence of the sections on the map, the account settles once no call
is in progress. Epochs rise with every call that succeeds, whatever the interleaving.
-/

namespace OnlyJs.Bridge.ClientDb

open Lib List

/-- An alias is appended where it is not listed and pruned where it is, and an entry is
replaced by one of the same owner or of an owner with room. -/
def Orderly (state : State) : Label → Prop
  | .proceed call =>
    match state.calls[call]? with
    | some (.called (.reRegister name entry)) =>
      ∀ old, state.registry.inner.lookup name = some old →
        old.registeredBy = entry.registeredBy ∨
          state.registry.owned entry.registeredBy < state.registry.maxPerOwner
    | some (.pushing request) => request.name ∉ state.registry.order
    | some (.pruning request) => request.name ∈ state.registry.order
    | _ => True
  | .call _ => True

def Phase.pushes (name : String) : Phase → Bool
  | .pushing request => request.name = name
  | _ => false

def Phase.prunes (name : String) : Phase → Bool
  | .pruning request => request.name = name
  | _ => false

def Registry.entries (registry : Registry) (name : String) : Nat :=
  (registry.contains name).toNat

structure Balanced (state : State) (name : String) : Prop where
  account : state.registry.order.count name + state.calls.countP (Phase.pushes name) =
    state.registry.entries name + state.calls.countP (Phase.prunes name)
  once : state.registry.order.count name ≤ 1

variable {state : State} {call : Nat}

theorem count_resume {before : Phase} (stood : state.calls[call]? = some before)
    (counts : Phase → Bool) (after : Phase) :
    (state.calls.set call after).countP counts + (counts before).toNat =
      state.calls.countP counts + (counts after).toNat := by
  obtain ⟨bound, rfl⟩ := List.getElem?_eq_some_iff.mp stood
  have counted : (counts state.calls[call]).toNat ≤ state.calls.countP counts := by
    cases held : counts state.calls[call] with
    | false => exact Nat.zero_le _
    | true => exact countP_pos_iff.mpr ⟨_, getElem_mem bound, held⟩
  rw [countP_set bound]
  cases held : counts state.calls[call] <;> cases counts after <;> simp_all

variable {registry : Registry}

theorem balanced_resume {before after : Phase} {name : String} {locked : Bool}
    (stood : state.calls[call]? = some before) (balanced : Balanced state name)
    (once : registry.order.count name ≤ 1)
    (change : registry.order.count name +
      (after.pushes name).toNat + state.registry.entries name + (before.prunes name).toNat =
      state.registry.order.count name + (before.pushes name).toNat + registry.entries name +
      (after.prunes name).toNat) :
    Balanced (state.resume call registry locked after) name := by
  have account := balanced.account
  have pushes := count_resume stood (Phase.pushes name) after
  have prunes := count_resume stood (Phase.prunes name) after
  refine ⟨?_, once⟩
  simp only [State.resume]
  omega

theorem entries_insert (registry : Registry) (name other : String) (entry : Entry) :
    ({ registry with inner := registry.inner.insert name entry } : Registry).entries other =
      if other = name then 1 else registry.entries other := by
  by_cases same : other = name
  · subst same
    simp [Registry.entries, Registry.contains]
  · simp [Registry.entries, Registry.contains, same]

theorem entries_erase (registry : Registry) (name other : String) :
    ({ registry with inner := registry.inner.erase name } : Registry).entries other =
      if other = name then 0 else registry.entries other := by
  by_cases same : other = name
  · subst same
    simp [Registry.entries, Registry.contains]
  · simp [Registry.entries, Registry.contains, same]

theorem count_push (registry : Registry) (name other : String) :
    (registry.push name).order.count other =
      registry.order.count other + (decide (name = other)).toNat := by
  unfold Registry.push
  by_cases same : name = other <;> simp [same]

theorem count_prune (registry : Registry) (name other : String) :
    (registry.prune name).order.count other =
      if other = name then 0 else registry.order.count other := by
  unfold Registry.prune
  by_cases same : other = name
  · subst same
    rw [if_pos rfl]
    exact count_eq_zero.mpr fun listed => by simp at listed
  · rw [if_neg same]
    exact count_filter (by simpa using same)

theorem balanced_moves {next : State} {name : String} (orderly : Orderly state (.proceed call))
    (balanced : Balanced state name) (moved : Moves state call next) : Balanced next name := by
  have once := balanced.once
  cases moved with
  | insert added entry before fresh room ownerRoom =>
    refine balanced_resume before balanced (by exact once) ?_
    rw [entries_insert]
    by_cases same : name = added
    · subst same
      simp [Phase.pushes, Phase.prunes, Request.name, Registry.entries, Registry.contains, fresh]
    · simp [Phase.pushes, Phase.prunes, Request.name, same, Ne.symm same]
  | replace held old entry before present =>
    refine balanced_resume before balanced (by exact once) ?_
    rw [entries_insert]
    by_cases same : name = held
    · subst same
      simp [Phase.pushes, Phase.prunes, Registry.entries, Registry.contains, present]
    · simp [Phase.pushes, Phase.prunes, same]
  | erase dropped old before present =>
    refine balanced_resume before balanced (by exact once) ?_
    rw [entries_erase]
    by_cases same : name = dropped
    · subst same
      simp [Phase.pushes, Phase.prunes, Request.name, Registry.entries, Registry.contains,
        present]
    · simp [Phase.pushes, Phase.prunes, Request.name, same, Ne.symm same]
  | refuse request outcome before failed =>
    exact balanced_resume before balanced once rfl
  | push request before =>
    have absent : request.name ∉ state.registry.order := by
      simpa only [Orderly, before] using orderly
    have listed := count_push state.registry request.name name
    have kept : (state.registry.push request.name).entries name =
        state.registry.entries name := rfl
    apply balanced_resume before balanced
    · by_cases same : request.name = name
      · have none := count_eq_zero.mpr (same ▸ absent)
        simp only [same, decide_true, Bool.toNat_true] at listed ⊢
        omega
      · simp only [same, decide_false, Bool.toNat_false] at listed
        omega
    · rw [listed, kept]
      simp [Phase.pushes, Phase.prunes]
  | prune request before =>
    have present : request.name ∈ state.registry.order := by
      simpa only [Orderly, before] using orderly
    have listed := count_prune state.registry request.name name
    have kept : (state.registry.prune request.name).entries name =
        state.registry.entries name := rfl
    apply balanced_resume before balanced
    · split at listed <;> omega
    · rw [listed, kept]
      by_cases same : name = request.name
      · subst same
        have one := count_pos_iff.mpr present
        simp [Phase.pushes, Phase.prunes]
        omega
      · simp [Phase.pushes, Phase.prunes, same, Ne.symm same]
  | bump request before =>
    exact balanced_resume before balanced once rfl

structure Bounded (registry : Registry) : Prop where
  bounded : registry.len ≤ registry.maxEntries
  shared : ∀ owner, registry.owned owner ≤ registry.maxPerOwner

theorem bounded_insert (bounded : Bounded registry) (name : String) (entry : Entry)
    (fresh : registry.inner.lookup name = none) (room : registry.len < registry.maxEntries)
    (ownerRoom : registry.owned entry.registeredBy < registry.maxPerOwner) :
    Bounded { registry with inner := registry.inner.insert name entry } := by
  have absent : name ∉ registry.inner := Finmap.lookup_eq_none.mp fresh
  constructor
  · have grown := FiniteMap.weight_insert_fresh (fun _ _ => 1) name entry registry.inner absent
    rw [← FiniteMap.size_eq_weight, ← FiniteMap.size_eq_weight] at grown
    simp only [Registry.len] at room ⊢
    omega
  · intro owner
    have grown := FiniteMap.weight_insert_fresh
      (fun _ entry => if entry.registeredBy = owner then 1 else 0) name entry registry.inner absent
    have before := bounded.shared owner
    simp only [Registry.owned] at ownerRoom before ⊢
    rw [grown]
    split
    · rename_i same
      subst same
      omega
    · omega

theorem bounded_replace (bounded : Bounded registry) (name : String) (old entry : Entry)
    (present : registry.inner.lookup name = some old)
    (allowed : old.registeredBy = entry.registeredBy ∨
      registry.owned entry.registeredBy < registry.maxPerOwner) :
    Bounded { registry with inner := registry.inner.insert name entry } := by
  constructor
  · have kept := FiniteMap.weight_replace (fun _ _ => 1) name old entry registry.inner present
    rw [← FiniteMap.size_eq_weight, ← FiniteMap.size_eq_weight] at kept
    have before := bounded.bounded
    simp only [Registry.len] at before ⊢
    omega
  · intro owner
    have traded := FiniteMap.weight_replace
      (fun _ entry => if entry.registeredBy = owner then 1 else 0) name old entry registry.inner
      present
    have before := bounded.shared owner
    simp only [Registry.owned] at allowed before ⊢
    by_cases taken : entry.registeredBy = owner
    · subst taken
      rcases allowed with same | room
      · simp only [same] at traded
        omega
      · simp only [if_true] at traded
        omega
    · simp only [taken, if_false] at traded
      omega

theorem bounded_erase (bounded : Bounded registry) (name : String) :
    Bounded { registry with inner := registry.inner.erase name } := by
  constructor
  · have fewer := FiniteMap.weight_erase_le (fun _ _ => 1) name registry.inner
    rw [← FiniteMap.size_eq_weight, ← FiniteMap.size_eq_weight] at fewer
    exact fewer.trans bounded.bounded
  · intro owner
    exact (FiniteMap.weight_erase_le _ name registry.inner).trans (bounded.shared owner)

theorem bounded_moves {next : State} (orderly : Orderly state (.proceed call))
    (bounded : Bounded state.registry) (moved : Moves state call next) : Bounded next.registry := by
  cases moved with
  | insert name entry before fresh room ownerRoom =>
    exact bounded_insert bounded name entry fresh room ownerRoom
  | replace name old entry before present =>
    simp only [Orderly, before] at orderly
    exact bounded_replace bounded name old entry present (orderly old present)
  | erase name old before present => exact bounded_erase bounded name
  | refuse request outcome before failed => exact bounded
  | push request before | prune request before | bump request before =>
    exact ⟨bounded.bounded, bounded.shared⟩

structure Accounted (state : State) : Prop where
  balanced : ∀ name, Balanced state name
  quotas : Bounded state.registry

theorem accounted_step {maxEntries maxPerOwner : Nat} :
    StepSystem.Preserved (system maxEntries maxPerOwner) Orderly Accounted := by
  intro state label next accounted orderly fired
  cases label with
  | call request =>
    cases fired
    refine ⟨fun name => ?_, accounted.quotas⟩
    obtain ⟨account, once⟩ := accounted.balanced name
    refine ⟨?_, once⟩
    simpa [Phase.pushes, Phase.prunes] using account
  | proceed call =>
    have moved := proceed_moves fired
    refine ⟨fun name => ?_, bounded_moves orderly accounted.quotas moved⟩
    exact balanced_moves orderly (accounted.balanced name) moved

theorem accounted_initial (maxEntries maxPerOwner : Nat) :
    Accounted (State.initial maxEntries maxPerOwner) := by
  refine ⟨fun name => ⟨rfl, Nat.zero_le _⟩, ⟨Nat.zero_le _, fun owner => Nat.zero_le _⟩⟩

theorem consistent_of_quiet (accounted : Accounted state) (quiet : state.quiet = true) :
    state.registry.Consistent := by
  have settled : ∀ name, state.registry.order.count name = state.registry.entries name := by
    intro name
    have account := (accounted.balanced name).account
    have pushes : state.calls.countP (Phase.pushes name) = 0 := by
      apply countP_eq_zero.mpr
      intro phase held
      have ended := all_eq_true.mp quiet phase held
      cases phase <;> simp_all [Phase.finished, Phase.pushes]
    have prunes : state.calls.countP (Phase.prunes name) = 0 := by
      apply countP_eq_zero.mpr
      intro phase held
      have ended := all_eq_true.mp quiet phase held
      cases phase <;> simp_all [Phase.finished, Phase.prunes]
    omega
  refine ⟨?_, fun name => ?_, accounted.quotas.bounded, accounted.quotas.shared⟩
  · exact nodup_iff_count_le_one.mpr fun name => (accounted.balanced name).once
  · have count := settled name
    unfold Registry.entries at count
    unfold Registry.names
    rw [← count_pos_iff, count]
    cases state.registry.contains name <;> simp

end OnlyJs.Bridge.ClientDb
