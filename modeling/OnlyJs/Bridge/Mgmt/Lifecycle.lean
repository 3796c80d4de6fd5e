import OnlyJs.Bridge.Mgmt.Places

/-!
# The lifecycle of a management connection

Every connection is closed once and not used behind that, if no request is dropped between its
`__connect__` and the registry, if a deletion disconnects when no call has a clone of the entry
before its invocation, and if a permit is not given out while the operation of a dropped call
runs.
-/

namespace OnlyJs.Bridge.Mgmt

open Bridge.DbPolicy List Option Lib Lib.Association Lib.FiniteMap Lib.StepSystem Lib.Tally

variable {mgmt : MgmtSection}

section Property

def Request.operates (request : Request) (name : String) : Bool :=
  match request.stage with
  | .operating _ => request.name = name
  | _ => false

structure Sound (mgmt : MgmtSection) (registry : Registry) : Prop where
  /-- A handle that no request answers for is in the registry, or it has been passed to one
  `__disconnect__`. -/
  closed : ∀ handle < registry.handles,
    (∀ request ∈ registry.requests, request.stage.answersFor ≠ some handle) →
    ((∃ name entry, registry.entries.lookup name = some entry ∧ entry.handle = handle) ∧
        handle ∉ registry.disconnected) ∨
      ((∀ name entry, registry.entries.lookup name = some entry → entry.handle ≠ handle) ∧
        registry.disconnected.count handle = 1)
  once : ∀ handle, registry.disconnected.count handle ≤ 1
  /-- No operation is called with a handle after its `__disconnect__`. -/
  unused : ∀ invocation ∈ registry.invocations, invocation.late = false
  /-- The plugin runs a bounded number of operations at a time on one connector. -/
  bounded : ∀ name, registry.requests.countP (fun request => request.operates name) ≤
    callConcurrency
  capacity : size registry.entries ≤ mgmt.maxEntries
  owned : ∀ owner, ownedBy owner registry.entries ≤ mgmt.maxPerOwner
  granted : ∀ invocation ∈ registry.invocations, invocation.mutating = true →
    granted mgmt.allow invocation.caller.ctx = true

/-- No request is dropped from its `__connect__` to its entry. A deletion disconnects when no
call has a clone of the entry before its invocation. A call gets its permit when no operation of
a dropped call runs on the connector. -/
def Careful (registry : Registry) : Label → Prop
  | .request _ _ _ => True
  | .proceed index => ∀ request, registry.requests[index]? = some request →
      (∀ handle, request.stage = .removed handle → ∀ other ∈ registry.requests, ∀ entry,
        other.stage.clone = some entry → entry.handle ≠ handle) ∧
      (∀ entry, request.stage = .cleared entry → ∀ other ∈ registry.requests,
        other.operates request.name = true → other.alive = true)
  | .reply index reply => reply = .handle → ∀ request,
      registry.requests[index]? = some request → request.alive = true
  | .drop index => ∀ request, registry.requests[index]? = some request →
      request.stage.fresh = none

end Property

section Pieces

structure Capacity (mgmt : MgmtSection) (entries : Entries) : Prop where
  known : ∀ name entry, entries.lookup name = some entry → name ∈ mgmt.axes
  capacity : size entries ≤ mgmt.maxEntries
  owned : ∀ owner, ownedBy owner entries ≤ mgmt.maxPerOwner

variable {entries : Entries}

theorem Capacity.put (capacity : Capacity mgmt entries) {name : String} {entry : MgmtEntry}
    (known : name ∈ mgmt.axes) {entries' : Entries}
    (added : entries.put mgmt name entry = .ok entries') :
    Capacity mgmt entries' ∧ name ∉ entries ∧ entries' = entries.insert name entry := by
  unfold Entries.put at added
  split at added
  · cases added
  · rename_i free
    split at added
    · cases added
    · rename_i room
      split at added
      · cases added
      · rename_i share
        cases added
        have absent : name ∉ entries := by
          intro member
          exact free (Finmap.lookup_isSome.mpr member)
        refine ⟨⟨?_, ?_, ?_⟩, absent, rfl⟩
        · intro other present found
          by_cases same : other = name
          · rw [same]
            exact known
          · rw [Finmap.lookup_insert_of_ne _ same] at found
            exact capacity.known other present found
        · rw [size_eq_weight, weight_insert_fresh _ _ _ _ absent, ← size_eq_weight]
          omega
        · intro owner
          have before := capacity.owned owner
          unfold ownedBy at before share ⊢
          rw [weight_insert_fresh _ _ _ _ absent]
          by_cases same : entry.registeredBy = owner
          · rw [if_pos same]
            rw [same] at share
            omega
          · rw [if_neg same]
            omega

theorem Capacity.erase (capacity : Capacity mgmt entries) (name : String) :
    Capacity mgmt (entries.erase name) where
  known := by
    intro other entry found
    by_cases same : other = name
    · rw [same, Finmap.lookup_erase] at found
      cases found
    · rw [Finmap.lookup_erase_ne same] at found
      exact capacity.known other entry found
  capacity := by
    have fewer := weight_erase_le (fun _ _ => 1) name entries
    rw [← size_eq_weight, ← size_eq_weight] at fewer
    exact fewer.trans capacity.capacity
  owned := fun owner => (weight_erase_le _ name entries).trans (capacity.owned owner)

/-- What the passed checks of a request say at its stage. -/
def Request.Lawful (mgmt : MgmtSection) (request : Request) : Prop :=
  match request.stage with
  | .probing => request.name ∈ mgmt.axes ∧ request.work = .register
  | .connecting ops => request.name ∈ mgmt.axes ∧ request.work = .register ∧
      ops.lookup "ping" = some true
  | .pinging _ _ => request.name ∈ mgmt.axes ∧ request.alive = true
  | .inserting _ _ => request.name ∈ mgmt.axes
  | .cleared entry => entry.ops.lookup request.op = some true ∨
      granted mgmt.allow request.caller.ctx = true
  | .gated entry => request.alive = true ∧ (entry.ops.lookup request.op = some true ∨
      granted mgmt.allow request.caller.ctx = true)
  | _ => True

def Stage.hasPermit : Stage → Bool
  | .gated _ | .operating _ => true
  | _ => false

theorem Request.permitless {request : Request} (free : request.stage.hasPermit = false)
    (name : String) : request.holdsPermit name = 0 := by
  unfold Request.holdsPermit
  split
  · cases stage : request.stage with
    | gated entry | operating entry =>
      rw [stage] at free
      cases free
    | _ => rfl
  · rfl

structure Requests (mgmt : MgmtSection) (requests : List Request) : Prop where
  permits : ∀ name, tally (fun request : Request => request.holdsPermit name) requests ≤
    callConcurrency
  lawful : ∀ request ∈ requests, request.Lawful mgmt

structure Logged (mgmt : MgmtSection) (invocations : List Invocation) : Prop where
  unused : ∀ invocation ∈ invocations, invocation.late = false
  granted : ∀ invocation ∈ invocations, invocation.mutating = true →
    granted mgmt.allow invocation.caller.ctx = true

variable {requests : List Request}

section

variable (all : Requests mgmt requests)
include all

theorem Requests.enter {request : Request} (entered : request.stage = .entered) :
    Requests mgmt (requests ++ [request]) where
  permits := by
    intro name
    rw [tally_append, tally_cons, Request.permitless (by rw [entered]; rfl)]
    exact all.permits name
  lawful := by
    intro present member
    rcases mem_append.mp member with before | new
    · exact all.lawful present before
    · rw [mem_singleton.mp new]
      unfold Request.Lawful
      rw [entered]
      trivial

theorem Requests.set {index : Nat} {old new : Request} (found : requests[index]? = some old)
    (permits : ∀ name, new.holdsPermit name ≤ old.holdsPermit name) (lawful : new.Lawful mgmt) :
    Requests mgmt (requests.set index new) where
  permits := by
    intro name
    have before := all.permits name
    have less := permits name
    have moved := tally_set (fun request : Request => request.holdsPermit name) found new
    omega
  lawful := by
    intro present member
    rcases mem_or_eq_of_mem_set member with before | rfl
    · exact all.lawful present before
    · exact lawful

/-- A permit that is free among the requests that live is free. -/
theorem Requests.gate {index : Nat} {request : Request} (found : requests[index]? = some request)
    {entry : MgmtEntry} (cleared : request.stage = .cleared entry) (alive : request.alive = true)
    (careful : ∀ other ∈ requests, other.operates request.name = true → other.alive = true)
    (free : tally (fun other => if other.alive then other.holdsPermit request.name else 0) requests
      < callConcurrency) :
    Requests mgmt (requests.set index { request with stage := .gated entry }) where
  permits := by
    intro name
    have before := all.permits name
    have moved := tally_set (fun other : Request => other.holdsPermit name) found
      { request with stage := .gated entry }
    by_cases same : request.name = name
    · have one : Request.holdsPermit { request with stage := .gated entry } name = 1 :=
        if_pos same
      have living : tally (fun other => if other.alive then other.holdsPermit request.name else 0)
          requests = tally (fun other : Request => other.holdsPermit name) requests := by
        apply tally_congr
        intro other member
        rw [same]
        by_cases lives : other.alive = true
        · rw [if_pos lives]
        · rw [if_neg lives]
          unfold Request.holdsPermit
          split
          · rename_i named
            have lawful := all.lawful other member
            unfold Request.Lawful at lawful
            cases stage : other.stage with
            | gated clone =>
              rw [stage] at lawful
              exact absurd lawful.1 lives
            | operating clone =>
              have operates : other.operates request.name = true := by
                unfold Request.operates
                rw [stage, named, same]
                exact decide_eq_true rfl
              exact absurd (careful other member operates) lives
            | _ => rfl
          · rfl
      omega
    · have zero : Request.holdsPermit { request with stage := .gated entry } name = 0 :=
        if_neg same
      omega
  lawful := by
    intro present member
    rcases mem_or_eq_of_mem_set member with before | rfl
    · exact all.lawful present before
    · have lawful := all.lawful request (mem_of_getElem? found)
      unfold Request.Lawful at lawful
      rw [cleared] at lawful
      exact ⟨alive, lawful⟩

end

theorem Logged.add {invocations : List Invocation} (logged : Logged mgmt invocations)
    {invocation : Invocation} (early : invocation.late = false)
    (allowed : invocation.mutating = true →
      DbPolicy.granted mgmt.allow invocation.caller.ctx = true) :
    Logged mgmt (invocations ++ [invocation]) where
  unused := by
    intro other member
    rcases mem_append.mp member with before | new
    · exact logged.unused other before
    · rw [mem_singleton.mp new]
      exact early
  granted := by
    intro other member
    rcases mem_append.mp member with before | new
    · exact logged.granted other before
    · rw [mem_singleton.mp new]
      exact allowed

end Pieces

section Invariant

structure Kept (mgmt : MgmtSection) (registry : Registry) : Prop where
  places : Places registry.entries registry.requests registry.handles registry.disconnected
  requests : Requests mgmt registry.requests
  capacity : Capacity mgmt registry.entries
  logged : Logged mgmt registry.invocations

variable {registry next : Registry} {index : Nat} {request : Request}

theorem kept_initial : Kept mgmt Registry.initial where
  places := by
    refine ⟨fun handle => ?_, fun _ member => by cases member⟩
    exact (if_neg (Nat.not_lt_zero handle)).symm
  requests := ⟨fun _ => Nat.zero_le _, fun _ member => by cases member⟩
  capacity := by
    refine ⟨fun name entry found => ?_, Nat.zero_le _, fun _ => Nat.zero_le _⟩
    cases found
  logged := by
    constructor
    · intro _ member
      cases member
    · intro _ member
      cases member

variable {handle : Nat}

section

variable (kept : Kept mgmt registry)
include kept

theorem Kept.closed (there : handle < registry.handles)
    (idle : ∀ request ∈ registry.requests, request.stage.answersFor ≠ some handle) :
    ((∃ name entry, registry.entries.lookup name = some entry ∧ entry.handle = handle) ∧
        handle ∉ registry.disconnected) ∨
      ((∀ name entry, registry.entries.lookup name = some entry → entry.handle ≠ handle) ∧
        registry.disconnected.count handle = 1) := by
  have accounted := kept.places.accounted handle
  have none : tally (Request.answers handle) registry.requests = 0 :=
    tally_zero _ fun request member => if_neg (idle request member)
  rw [if_pos there] at accounted
  by_cases entered : held handle registry.entries = 0
  · right
    refine ⟨?_, by omega⟩
    intro name entry found same
    have zero := (weight_eq_zero_iff _ _).mp entered name entry found
    rw [if_pos same] at zero
    cases zero
  · left
    refine ⟨?_, count_eq_zero.mp (by omega)⟩
    by_contra away
    apply entered
    apply (weight_eq_zero_iff _ _).mpr
    intro name entry found
    exact if_neg fun same => away ⟨name, entry, found, same⟩

theorem Kept.sound : Sound mgmt registry where
  closed := fun _ there idle => kept.closed there idle
  once := by
    intro handle
    have accounted := kept.places.accounted handle
    split at accounted <;> omega
  unused := kept.logged.unused
  bounded := by
    intro name
    refine Nat.le_trans ?_ (kept.requests.permits name)
    apply countP_le_tally
    intro request _ operates
    unfold Request.operates at operates
    unfold Request.holdsPermit
    split at operates
    · rename_i stage
      rw [if_pos (of_decide_eq_true operates), stage]
    · cases operates
  capacity := kept.capacity.capacity
  owned := kept.capacity.owned
  granted := kept.logged.granted

theorem Kept.turn (found : registry.requests[index]? = some request) {stage : Stage}
    (answers : stage.answersFor = request.stage.answersFor)
    (fresh : ∀ handle, stage.fresh = some handle → request.stage.fresh = some handle)
    (clone : ∀ entry, stage.clone = some entry →
      request.stage.clone = some entry ∨ ∃ name, registry.entries.lookup name = some entry)
    (permits : ∀ name, Request.holdsPermit { request with stage } name ≤ request.holdsPermit name)
    (lawful : Request.Lawful mgmt { request with stage }) :
    Kept mgmt (registry.setStage index request stage) where
  places := kept.places.turn found answers fresh clone
  requests := kept.requests.set found permits lawful
  capacity := kept.capacity
  logged := kept.logged

theorem Kept.finish (found : registry.requests[index]? = some request)
    (idle : request.stage.answersFor = none) (answer : Answer) :
    Kept mgmt (registry.setStage index request (.finished answer)) := by
  apply kept.turn found
  · exact idle.symm
  · nofun
  · nofun
  · intro name
    rw [Request.permitless rfl]
    exact Nat.zero_le _
  · trivial

end

theorem requireGate_granted {ctx : AccessCtx} {done : Unit}
    (passed : requireGate mgmt ctx true = .ok done) : granted mgmt.allow ctx = true := by
  unfold requireGate at passed
  split at passed
  · dsimp only at passed
    rw [if_pos rfl] at passed
    split at passed
    · assumption
    · cases passed
  · cases passed

section

variable (kept : Kept mgmt registry) (found : registry.requests[index]? = some request)
include kept found

section

variable (idle : request.stage.answersFor = none)
include idle

theorem Kept.register (work : request.work = .register) :
    Kept mgmt (registry.register mgmt index request) := by
  unfold Registry.register
  split
  · exact kept.finish found idle _
  · split
    · rename_i known
      apply kept.turn found
      · exact idle.symm
      · nofun
      · nofun
      · intro name
        rw [Request.permitless rfl]
        exact Nat.zero_le _
      · exact ⟨known, work⟩
    · exact kept.finish found idle _

theorem Kept.delete :
    Kept mgmt (registry.delete mgmt index request) := by
  unfold Registry.delete
  split
  · exact kept.finish found idle _
  · split
    · exact kept.finish found idle _
    · rename_i entry there
      rw [if_pos (kept.capacity.known _ entry there)]
      have places : Places (registry.entries.erase request.name)
          (registry.requests.set index { request with stage := .removed entry.handle })
          registry.handles registry.disconnected := by
        apply kept.places.erase found there idle <;> rfl
      refine ⟨places, kept.requests.set found ?_ trivial, kept.capacity.erase _, kept.logged⟩
      intro name
      rw [Request.permitless rfl]
      exact Nat.zero_le _

theorem Kept.call {op : String} {object : Bool} (work : request.work = .call op object) :
    Kept mgmt (registry.call mgmt index request op) := by
  unfold Registry.call
  split
  · exact kept.finish found idle _
  · split
    · exact kept.finish found idle _
    · rename_i entry there
      split
      · exact kept.finish found idle _
      · rename_i readOnly declared
        split
        · exact kept.finish found idle _
        · rename_i passed
          apply kept.turn found
          · exact idle.symm
          · nofun
          · intro other same
            cases same
            exact Or.inr ⟨request.name, there⟩
          · intro name
            rw [Request.permitless rfl]
            exact Nat.zero_le _
          · have named : request.op = op := by
              unfold Request.op
              rw [work]
            change entry.ops.lookup request.op = some true ∨ _
            rw [named, declared]
            cases readOnly with
            | true => exact Or.inl rfl
            | false => exact Or.inr (requireGate_granted passed)

end

theorem Kept.disconnect (answers : request.stage.answersFor = some handle)
    (apart : ∀ other ∈ registry.requests, ∀ entry, other.stage.clone = some entry →
      entry.handle ≠ handle)
    (answer : Answer) :
    Kept mgmt (registry.disconnect index request handle answer) where
  places := kept.places.disconnect found answers rfl rfl apart
  requests := by
    apply kept.requests.set found
    · intro name
      rw [Request.permitless rfl]
      exact Nat.zero_le _
    · trivial
  capacity := kept.capacity
  logged := kept.logged

end

variable {ops : List (String × Bool)}

section

variable (kept : Kept mgmt registry)
include kept

theorem Kept.insert (found : registry.requests[index]? = some request)
    (stage : request.stage = .inserting ops handle) :
    Kept mgmt (registry.insert mgmt index request ops handle) := by
  have member := mem_of_getElem? found
  have answers : request.stage.answersFor = some handle := by rw [stage]; rfl
  have fresh : request.stage.fresh = some handle := by rw [stage]; rfl
  unfold Registry.insert
  split
  · exact kept.disconnect found answers (kept.places.apart_of_fresh member fresh) _
  · rename_i entries added
    have known := kept.requests.lawful request member
    unfold Request.Lawful at known
    rw [stage] at known
    obtain ⟨capacity, free, rfl⟩ := kept.capacity.put known added
    refine ⟨kept.places.insert found answers rfl rfl free, ?_, capacity, kept.logged⟩
    apply kept.requests.set found
    · intro name
      rw [Request.permitless rfl]
      exact Nat.zero_le _
    · trivial

theorem Kept.tryGate (found : registry.requests[index]? = some request) {entry : MgmtEntry}
    (cleared : request.stage = .cleared entry) (alive : request.alive = true)
    (careful : ∀ other ∈ registry.requests, other.operates request.name = true →
      other.alive = true) :
    Kept mgmt (registry.tryGate index request entry) := by
  have idle : request.stage.answersFor = none := by rw [cleared]; rfl
  unfold Registry.tryGate
  dsimp only
  split
  · rename_i free
    refine ⟨?_, kept.requests.gate found cleared alive careful free, kept.capacity, kept.logged⟩
    apply kept.places.turn found
    · exact idle.symm
    · nofun
    · intro other same
      rw [cleared]
      exact Or.inl same
  · exact kept.finish found idle _

theorem Kept.invoke (index : Nat) (stage : Stage) (open_ : handle ∉ registry.disconnected)
    (allowed : ops.lookup request.op = some true ∨ granted mgmt.allow request.caller.ctx = true) :
    Logged mgmt (registry.invoke index request stage handle ops).invocations := by
  apply kept.logged.add
  · exact decide_eq_false open_
  · intro mutating
    rcases allowed with readOnly | granted
    · exact absurd readOnly (of_decide_eq_true mutating)
    · exact granted

theorem Kept.operate (found : registry.requests[index]? = some request) {entry : MgmtEntry}
    (gated : request.stage = .gated entry) :
    Kept mgmt (registry.operate mgmt index request entry) := by
  have member := mem_of_getElem? found
  have idle : request.stage.answersFor = none := by rw [gated]; rfl
  have invoked : Kept mgmt
      (registry.invoke index request (.operating entry) entry.handle entry.ops) := by
    have clone : request.stage.clone = some entry := by rw [gated]; rfl
    have lawful := kept.requests.lawful request member
    unfold Request.Lawful at lawful
    rw [gated] at lawful
    refine ⟨?_, ?_, kept.capacity, kept.invoke index _
      (kept.places.pending request member entry clone).2.1 lawful.2⟩
    · apply kept.places.turn found
      · exact idle.symm
      · nofun
      · nofun
    · apply kept.requests.set found
      · intro name
        unfold Request.holdsPermit
        rw [gated]
      · trivial
  unfold Registry.operate
  split
  · split
    · exact kept.finish found idle _
    · exact invoked
  · exact kept.finish found idle _

theorem Kept.proceed (found : registry.requests[index]? = some request)
    (alive : request.alive = true) (careful : Careful registry (.proceed index))
    (fired : registry.proceed mgmt index request = some next) : Kept mgmt next := by
  obtain ⟨removal, permit⟩ := careful request found
  unfold Registry.proceed at fired
  split at fired
  · rename_i entered
    have idle : request.stage.answersFor = none := by rw [entered]; rfl
    split at fired
    · rename_i work
      cases Option.some.inj fired
      exact kept.register found idle work
    · cases Option.some.inj fired
      exact kept.delete found idle
    · rename_i op object work
      cases Option.some.inj fired
      exact kept.call found idle work
  · rename_i ops handle stage
    cases Option.some.inj fired
    exact kept.insert found stage
  · rename_i handle stage
    cases Option.some.inj fired
    exact kept.disconnect found (by rw [stage]; rfl) (removal handle stage) _
  · rename_i entry stage
    cases Option.some.inj fired
    exact kept.tryGate found stage alive (permit entry stage)
  · rename_i entry stage
    cases Option.some.inj fired
    exact kept.operate found stage
  · cases fired

end

theorem readCaps_ok {items : List (Option String × Bool)} (read : readCaps items = .ok ops) :
    ops.lookup "ping" = some true := by
  unfold readCaps at read
  split at read
  · cases read
  · split at read
    · rename_i declared
      cases read
      exact declared
    · cases read

section

variable (kept : Kept mgmt registry) (found : registry.requests[index]? = some request)
include kept found

theorem Kept.connect (stage : request.stage = .connecting ops) (alive : request.alive = true) :
    Kept mgmt { registry.invoke index request (.pinging ops registry.handles) registry.handles ops
      with handles := registry.handles + 1 } := by
  have lawful := kept.requests.lawful request (mem_of_getElem? found)
  unfold Request.Lawful at lawful
  rw [stage] at lawful
  obtain ⟨known, work, ping⟩ := lawful
  have named : request.op = "ping" := by
    unfold Request.op
    rw [work]
  rw [← named] at ping
  refine ⟨?_, ?_, kept.capacity, kept.invoke index
    (.pinging ops registry.handles) (kept.places.unreturned (Nat.le_refl _)) (Or.inl ping)⟩
  · exact kept.places.connect found (by rw [stage]; rfl) rfl rfl
  · apply kept.requests.set found
    · intro name
      rw [Request.permitless rfl]
      exact Nat.zero_le _
    · exact ⟨known, alive⟩

theorem Kept.answer (alive : request.alive = true) {reply : Reply}
    (fired : registry.answer index request reply = some next) : Kept mgmt next := by
  have member := mem_of_getElem? found
  have lawful := kept.requests.lawful request member
  unfold Request.Lawful at lawful
  unfold Registry.answer at fired
  cases stage : request.stage with
  | probing =>
    have idle : request.stage.answersFor = none := by rw [stage]; rfl
    rw [stage] at lawful fired
    cases reply with
    | caps items =>
      dsimp only at fired
      split at fired
      · cases Option.some.inj fired
        exact kept.finish found idle _
      · rename_i ops read
        cases Option.some.inj fired
        apply kept.turn found
        · exact idle.symm
        · nofun
        · nofun
        · intro name
          rw [Request.permitless rfl]
          exact Nat.zero_le _
        · exact ⟨lawful.1, lawful.2, readCaps_ok read⟩
    | _ =>
      cases Option.some.inj fired
      exact kept.finish found idle _
  | connecting ops =>
    have idle : request.stage.answersFor = none := by rw [stage]; rfl
    rw [stage] at fired
    cases reply with
    | handle =>
      cases Option.some.inj fired
      exact kept.connect found stage alive
    | _ =>
      cases Option.some.inj fired
      exact kept.finish found idle _
  | pinging ops handle =>
    have answers : request.stage.answersFor = some handle := by rw [stage]; rfl
    have fresh : request.stage.fresh = some handle := by rw [stage]; rfl
    rw [stage] at lawful fired
    cases reply with
    | failed =>
      cases Option.some.inj fired
      exact kept.disconnect found answers (kept.places.apart_of_fresh member fresh) _
    | _ =>
      cases Option.some.inj fired
      apply kept.turn found
      · exact answers.symm
      · exact fun _ same => fresh.trans same
      · nofun
      · intro name
        rw [Request.permitless rfl]
        exact Nat.zero_le _
      · exact lawful.1
  | closing answer =>
    have idle : request.stage.answersFor = none := by rw [stage]; rfl
    rw [stage] at fired
    cases Option.some.inj fired
    exact kept.finish found idle _
  | operating entry =>
    have idle : request.stage.answersFor = none := by rw [stage]; rfl
    rw [stage] at fired
    cases reply with
    | _ =>
      cases Option.some.inj fired
      exact kept.finish found idle _
  | _ =>
    rw [stage] at fired
    cases fired

theorem Kept.orphan (dropped : request.alive = false) {reply : Reply} (careful : reply ≠ .handle)
    (fired : registry.orphan index request reply = some next) : Kept mgmt next := by
  have lawful := kept.requests.lawful request (mem_of_getElem? found)
  unfold Request.Lawful at lawful
  unfold Registry.orphan at fired
  split at fired
  · exact absurd rfl careful
  · split at fired
    · rename_i awaits
      cases Option.some.inj fired
      refine kept.finish found ?_ _
      cases stage : request.stage with
      | pinging ops handle =>
        rw [stage] at lawful
        rw [dropped] at lawful
        cases lawful.2
      | inserting ops handle | removed handle =>
        rw [stage] at awaits
        cases awaits
      | _ => rfl
    · cases fired

theorem Kept.drop (awaits : request.stage.awaits = true) (careful : request.stage.fresh = none) :
    Kept mgmt { registry with requests := registry.requests.set index { request with
      alive := false } } where
  places := by
    apply kept.places.turn found
    · rfl
    · exact fun _ => id
    · exact fun _ => Or.inl
  requests := by
    have lawful := kept.requests.lawful request (mem_of_getElem? found)
    apply kept.requests.set found
    · exact fun _ => Nat.le_refl _
    · unfold Request.Lawful at lawful ⊢
      cases stage : request.stage with
      | pinging ops handle =>
        rw [stage] at careful
        cases careful
      | gated entry =>
        rw [stage] at awaits
        cases awaits
      | _ =>
        rw [stage] at lawful
        exact lawful
  capacity := kept.capacity
  logged := kept.logged

end

theorem kept_step : Preserved (system mgmt) Careful (Kept mgmt) := by
  intro registry label next kept careful fired
  cases label with
  | request caller name work =>
    cases Option.some.inj fired
    exact ⟨kept.places.enter rfl, kept.requests.enter rfl, kept.capacity, kept.logged⟩
  | proceed index =>
    obtain ⟨request, found, stepped⟩ := bind_eq_some_iff.mp fired
    split at stepped
    · rename_i alive
      exact kept.proceed found alive careful stepped
    · cases stepped
  | reply index reply =>
    obtain ⟨request, found, stepped⟩ := bind_eq_some_iff.mp fired
    split at stepped
    · rename_i alive
      exact kept.answer found alive stepped
    · rename_i dropped
      apply kept.orphan found (Bool.eq_false_of_not_eq_true dropped) _ stepped
      intro same
      exact dropped (careful same request found)
  | drop index =>
    obtain ⟨request, found, stepped⟩ := bind_eq_some_iff.mp fired
    split at stepped
    · rename_i enabled
      cases Option.some.inj stepped
      exact kept.drop found enabled.2 (careful request found)
    · cases stepped

end Invariant

section Runs

/-- In every run whose requests are dropped, and whose connections are closed, with care, every
connection is closed once and not used behind that. -/
theorem careful_closed {registry : Registry}
    (reached : Reachable (system mgmt) Careful registry) : Sound mgmt registry := by
  have kept := invariant_of_step kept_initial kept_step reached
  exact kept.sound

def opsSection : MgmtSection where
  enabled := true
  axes := ["db"]
  allow := ⟨some ["ops"], none, none, none⟩
  allowRead := none
  maxEntries := 8
  maxPerOwner := 4

def opsCaller : Caller := ⟨⟨some "ops", [], none, "http"⟩, some "ops"⟩

/-- The steps of a registration up to the answer of `ping`. -/
def pinged (index : Nat) : List Label :=
  [.request opsCaller "db" .register, .proceed index,
    .reply index (.caps [(some "ping", true), (some "kill", false)]), .reply index .handle]

def registered (index : Nat) : List Label :=
  pinged index ++ [.reply index .plain, .proceed index]

def permitted (index : Nat) : List Label :=
  [.request opsCaller "db" (.call "kill" true), .proceed index, .proceed index]

def deleted (index : Nat) : List Label :=
  [.request opsCaller "db" .delete, .proceed index, .proceed index]

/-- A registration whose `ping` fails disconnects. -/
theorem careful_closed_unreachable : ∃ registry, Sound opsSection registry ∧
    registry.handles = 1 ∧ registry.disconnected = [0] := by
  let labels := pinged 0 ++ [.reply 0 .failed, .reply 0 .plain]
  let registry := ((system opsSection).run .initial labels).getD .initial
  let first := ((system opsSection).run .initial (labels.take 1)).getD .initial
  have entered : Careful first (.proceed 0) := by
    intro request found
    cases found
    exact ⟨nofun, nofun⟩
  have reached : Reachable (system opsSection) Careful registry :=
    ⟨labels, trivial, _, rfl, entered, _, rfl, nofun, _, rfl,
      fun _ request found => by cases found; rfl, _, rfl, nofun, _, rfl, nofun, _, rfl, rfl⟩
  exact ⟨registry, careful_closed reached, rfl, rfl⟩

/-- A request is dropped while its connection is pinged: nobody disconnects. A deletion
disconnects between a call's permit and its operation: the operation is called with a handle
that is gone. A call is dropped while its operation runs: five run at a time. -/
theorem connections_leak :
    (∃ registry, Reachable (system opsSection) Unrestricted registry ∧ registry.handles = 1 ∧
      registry.entries = ∅ ∧ registry.disconnected = [] ∧ ¬Sound opsSection registry) ∧
    (∃ registry, Reachable (system opsSection) Unrestricted registry ∧
      (∃ invocation ∈ registry.invocations, invocation.late = true) ∧
      ¬Sound opsSection registry) ∧
    ∃ registry, Reachable (system opsSection) Unrestricted registry ∧
      registry.requests.countP (fun request => request.operates "db") = 5 ∧
      ¬Sound opsSection registry := by
  refine ⟨?_, ?_, ?_⟩
  · let labels := pinged 0 ++ [.drop 0, .reply 0 .plain]
    let registry := ((system opsSection).run .initial labels).getD .initial
    refine ⟨registry, ⟨labels, path_of_run _ _ labels rfl⟩, rfl, rfl, rfl, fun sound => ?_⟩
    have idle : ∀ request ∈ registry.requests, request.stage.answersFor ≠ some 0 := by decide
    rcases sound.closed 0 (by decide) idle with ⟨⟨name, entry, found, _⟩, _⟩ | ⟨_, one⟩
    · rw [show registry.entries = ∅ from rfl] at found
      cases found
    · cases one
  · let labels := registered 0 ++ permitted 1 ++ deleted 2 ++ [.proceed 1]
    let registry := ((system opsSection).run .initial labels).getD .initial
    have late : ∃ invocation ∈ registry.invocations, invocation.late = true := by
      decide +kernel
    refine ⟨registry, ⟨labels, path_of_run _ _ labels rfl⟩, late, fun sound => ?_⟩
    obtain ⟨invocation, member, late⟩ := late
    rw [sound.unused invocation member] at late
    cases late
  · let labels := registered 0 ++ permitted 1 ++ permitted 2 ++ permitted 3 ++ permitted 4 ++
      [.proceed 1, .proceed 2, .proceed 3, .proceed 4, .drop 1] ++ permitted 5 ++ [.proceed 5]
    have counted : ((system opsSection).run .initial labels).map (fun registry =>
        registry.requests.countP fun request => request.operates "db") = some 5 := by
      decide +kernel
    obtain ⟨registry, ran, five⟩ := map_eq_some_iff.mp counted
    refine ⟨registry, ⟨labels, path_of_run _ _ labels ran⟩, five, fun sound => ?_⟩
    have bounded := sound.bounded "db"
    rw [five] at bounded
    exact absurd bounded (by decide)

end Runs

end OnlyJs.Bridge.Mgmt
