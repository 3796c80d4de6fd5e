import Mathlib.Data.List.Perm.Basic
import OnlyJs.Lib.StepSystem

/-!
# Protection against scans through dials

A caller that fails to connect too often in a row is locked out for a while, before its next dial
goes out. Whether it may dial is looked up before the connection is tried, and how it went is
noted after, so dials of one caller overlap. Moments are nanoseconds.
-/

namespace OnlyJs.Bridge.ClientDb.DialScan

open Lib List Option Function

def nanosPerSecond : Nat := 10 ^ 9

def dialTimeout : Nat := 5 * nanosPerSecond

def scanFailThreshold : Nat := 8

def scanLockout : Nat := 60 * nanosPerSecond

structure ScanEntry where
  fails : Nat
  lockedUntil : Nat
deriving DecidableEq

def dialAllowed (now : Nat) (entry : Option ScanEntry) : Except Nat Unit :=
  match entry with
  | some entry =>
    let left := entry.lockedUntil - now
    if left > 0 then .error left else .ok ()
  | none => .ok ()

def noteDial (now : Nat) (entry : Option ScanEntry) (ok : Bool) : Option ScanEntry × Bool :=
  if ok then (none, false)
  else
    let entry := entry.getD ⟨0, now⟩
    let fails := (entry.fails + 1) % 2 ^ 32
    if fails ≥ scanFailThreshold then (some ⟨fails, now + scanLockout⟩, true)
    else (some ⟨fails, entry.lockedUntil⟩, false)

inductive Outcome where
  | opened
  | failed (error : String)
  | timedOut
deriving DecidableEq

def Outcome.ok : Outcome → Bool
  | opened => true
  | _ => false

def blockedMessage (left : Nat) : String :=
  "db client dial blocked: too many consecutive connect failures from this caller; retry in " ++
    toString (max (left / nanosPerSecond) 1) ++ "s"

def lockedSuffix (locked : Bool) : String :=
  if locked then "; further dials are temporarily blocked (too many consecutive failures)" else ""

def Outcome.answer (locked : Bool) : Outcome → Except String Unit
  | opened => .ok ()
  | failed error => .error ("db client connect failed: " ++ error ++ lockedSuffix locked)
  | timedOut => .error ("db client connect timed out after " ++
      toString (dialTimeout / nanosPerSecond) ++ "s" ++ lockedSuffix locked)

structure Flight where
  id : Nat
  outcome : Outcome
deriving DecidableEq

/-- A caller, and what is known of its dials: `probes` counts those to failing targets that
went out since its last success and its last lockout, `lockout` is when its last lockout ends,
and `retries` counts the dials since then, unless one has succeeded. -/
structure Caller where
  entry : Option ScanEntry
  flights : List Flight
  probes : Nat
  lockout : Nat
  retries : Option Nat

def Caller.new : Caller where
  entry := none
  flights := []
  probes := 0
  lockout := 0
  retries := none

def Caller.start (caller : Caller) (flight : Flight) : Caller :=
  { caller with
    flights := flight :: caller.flights
    probes := if flight.outcome.ok then caller.probes else caller.probes + 1
    retries := caller.retries.map (· + 1) }

def Caller.note (caller : Caller) (now : Nat) (flight : Flight) : Caller :=
  let noted := noteDial now caller.entry flight.outcome.ok
  { entry := noted.1
    flights := caller.flights.erase flight
    probes := if flight.outcome.ok || noted.2 then 0 else caller.probes
    lockout := if noted.2 then now + scanLockout else caller.lockout
    retries := if flight.outcome.ok then none else if noted.2 then some 0 else caller.retries }

structure Start where
  owner : String
  moment : Nat
  lockout : Nat

structure State where
  now : Nat
  callers : String → Caller
  starts : List Start
  answers : List (String × Nat × Except String Unit)

inductive Label where
  | tick (nanos : Nat)
  | check (owner : String) (flight : Flight)
  | note (owner : String) (flight : Flight)

def check (state : State) (owner : String) (flight : Flight) : State :=
  match dialAllowed state.now (state.callers owner).entry with
  | .error left =>
    { state with
      answers := (owner, flight.id, .error (blockedMessage left)) :: state.answers }
  | .ok () =>
    { state with
      callers := Function.update state.callers owner ((state.callers owner).start flight)
      starts := ⟨owner, state.now, (state.callers owner).lockout⟩ :: state.starts }

def note (state : State) (owner : String) (flight : Flight) : State :=
  { state with
    callers := Function.update state.callers owner ((state.callers owner).note state.now flight)
    answers := (owner, flight.id, flight.outcome.answer
      (noteDial state.now (state.callers owner).entry flight.outcome.ok).2) :: state.answers }

def step (state : State) : Label → Option State
  | .tick nanos => some { state with now := state.now + nanos }
  | .check owner flight => some (check state owner flight)
  | .note owner flight =>
    if flight ∈ (state.callers owner).flights then some (note state owner flight) else none

def system (now : Nat) : StepSystem.System State Label where
  init :=
    { now := now
      callers := fun _ => .new
      starts := []
      answers := [] }
  step := step

def Label.concerns (owner : String) : Label → Bool
  | tick _ => true
  | check other _ => other = owner
  | note other _ => other = owner

/-- After a run: no more probes than the threshold between successes and lockouts, no dial within
a lockout, one retry after it, and for each caller a counter that only its own dials count. -/
structure Protected (now : Nat) (labels : List Label) (state : State) : Prop where
  probes : ∀ owner, (state.callers owner).probes ≤ scanFailThreshold
  lockouts : ∀ start ∈ state.starts, start.lockout ≤ start.moment
  retries : ∀ owner count, (state.callers owner).retries = some count → count ≤ 1
  owners : ∀ owner, ∃ alone,
    StepSystem.Path (system now) StepSystem.Unrestricted (system now).init
      (labels.filter (Label.concerns owner)) alone ∧
    dialAllowed alone.now (alone.callers owner).entry =
      dialAllowed state.now (state.callers owner).entry

def Caller.fails (caller : Caller) : Nat := caller.entry.elim 0 ScanEntry.fails

/-- A dial goes out only where it would not be one too many if all that are on their way failed,
and the counter does not run over. -/
def Careful (state : State) : Label → Prop
  | .check owner _ =>
    dialAllowed state.now (state.callers owner).entry = .ok () →
      (state.callers owner).flights = [] ∨
        (state.callers owner).fails + (state.callers owner).flights.length < scanFailThreshold
  | .note owner flight =>
    flight.outcome.ok = false → (state.callers owner).fails + 1 < 2 ^ 32
  | .tick _ => True

def Caller.doomed (caller : Caller) : Nat :=
  caller.flights.countP fun flight => !flight.outcome.ok

structure Kept (now : Nat) (caller : Caller) : Prop where
  room : caller.fails < scanFailThreshold →
    caller.fails + caller.flights.length ≤ scanFailThreshold
  single : scanFailThreshold ≤ caller.fails → caller.flights.length ≤ 1
  counted : caller.fails < scanFailThreshold → caller.probes ≤ caller.fails + caller.doomed
  recounted : scanFailThreshold ≤ caller.fails → caller.probes ≤ caller.doomed
  locked : now < caller.lockout → caller.flights = [] ∧
    ∃ entry, caller.entry = some entry ∧ entry.lockedUntil = caller.lockout
  retried : ∀ count, caller.retries = some count →
    scanFailThreshold ≤ caller.fails ∧ count ≤ caller.flights.length

theorem doomed_le (caller : Caller) : caller.doomed ≤ caller.flights.length :=
  countP_le_length

theorem kept_new (now : Nat) : Kept now .new where
  room := fun _ => Nat.zero_le _
  single := fun _ => Nat.zero_le _
  counted := fun _ => Nat.zero_le _
  recounted := fun _ => Nat.zero_le _
  locked := nofun
  retried := nofun

variable {now : Nat} {caller : Caller}

theorem Kept.tick (kept : Kept now caller) (nanos : Nat) :
    Kept (now + nanos) caller where
  room := kept.room
  single := kept.single
  counted := kept.counted
  recounted := kept.recounted
  locked := fun before => kept.locked (Nat.lt_of_le_of_lt (Nat.le_add_right _ _) before)
  retried := kept.retried

theorem Kept.allowed (kept : Kept now caller) (allowed : dialAllowed now caller.entry = .ok ()) :
    caller.lockout ≤ now := by
  by_contra within
  obtain ⟨_, entry, present, until_⟩ := kept.locked (Nat.lt_of_not_le within)
  rw [present, dialAllowed] at allowed
  have left : entry.lockedUntil - now > 0 := by
    omega
  rw [if_pos left] at allowed
  cases allowed

theorem Kept.start (kept : Kept now caller) (allowed : dialAllowed now caller.entry = .ok ())
    (careful : caller.flights = [] ∨ caller.fails + caller.flights.length < scanFailThreshold)
    (flight : Flight) :
    Kept now (caller.start flight) := by
  have fails : (caller.start flight).fails = caller.fails := rfl
  have doomed : (caller.start flight).doomed =
      caller.doomed + if flight.outcome.ok then 0 else 1 := by
    unfold Caller.doomed Caller.start
    rw [countP_cons]
    cases flight.outcome.ok <;> rfl
  have probes : (caller.start flight).probes =
      caller.probes + if flight.outcome.ok then 0 else 1 := by
    unfold Caller.start
    cases flight.outcome.ok <;> rfl
  have few : caller.fails < scanFailThreshold →
      caller.fails + caller.flights.length < scanFailThreshold := by
    intro below
    rcases careful with none_ | room
    · rw [none_]
      exact below
    · exact room
  have none_ : scanFailThreshold ≤ caller.fails → caller.flights.length = 0 := by
    intro above
    rcases careful with none_ | room
    · rw [none_]
      rfl
    · omega
  constructor
  · rw [fails]
    exact few
  · rw [fails]
    intro above
    exact Nat.succ_le_succ (Nat.le_of_eq (none_ above))
  · rw [fails]
    intro below
    have counted := kept.counted below
    omega
  · rw [doomed, probes]
    intro above
    exact Nat.add_le_add_right (kept.recounted above) _
  · intro within
    exact absurd (kept.allowed allowed) (Nat.not_le_of_lt within)
  · intro count retried
    obtain ⟨before, counted, rfl⟩ := map_eq_some_iff.mp retried
    obtain ⟨above, below⟩ := kept.retried before counted
    exact ⟨above, Nat.succ_le_succ below⟩

variable {flight : Flight}

theorem flights_noted (member : flight ∈ caller.flights) (now : Nat) :
    (caller.note now flight).flights.length + 1 = caller.flights.length ∧
      (caller.note now flight).doomed + (if flight.outcome.ok then 0 else 1) = caller.doomed := by
  have same := perm_cons_erase member
  refine ⟨same.length_eq.symm, ?_⟩
  unfold Caller.doomed
  rw [same.countP_eq, countP_cons]
  cases flight.outcome.ok <;> rfl

theorem failed_noted (failed : flight.outcome.ok = false) (fits : caller.fails + 1 < 2 ^ 32)
    (now : Nat) :
    (caller.note now flight).fails = caller.fails + 1 ∧
      (noteDial now caller.entry flight.outcome.ok).2 =
        decide (scanFailThreshold ≤ caller.fails + 1) := by
  have count : ((caller.entry.getD ⟨0, now⟩).fails + 1) % 2 ^ 32 = caller.fails + 1 := by
    have fails : (caller.entry.getD ⟨0, now⟩).fails = caller.fails := by
      unfold Caller.fails
      cases caller.entry <;> rfl
    rw [fails, Nat.mod_eq_of_lt fits]
  have noted : (caller.note now flight).fails =
      (noteDial now caller.entry flight.outcome.ok).1.elim 0 ScanEntry.fails := rfl
  rw [noted, failed]
  unfold noteDial
  rw [if_neg Bool.false_ne_true]
  dsimp only
  rw [count]
  split
  · rename_i above
    exact ⟨rfl, (decide_eq_true above).symm⟩
  · rename_i below
    exact ⟨rfl, (decide_eq_false below).symm⟩

theorem Kept.opened (kept : Kept now caller) (member : flight ∈ caller.flights)
    (ok : flight.outcome.ok = true) :
    Kept now (caller.note now flight) := by
  have fewer := (flights_noted member now).1
  have fails : (caller.note now flight).fails = 0 := by
    unfold Caller.fails Caller.note noteDial
    rw [ok]
    rfl
  have probes : (caller.note now flight).probes = 0 := by
    unfold Caller.note
    rw [ok]
    rfl
  have lockout : (caller.note now flight).lockout = caller.lockout := by
    unfold Caller.note noteDial
    rw [ok]
    rfl
  have retries : (caller.note now flight).retries = none := by
    unfold Caller.note
    rw [ok]
    rfl
  constructor
  · rw [fails]
    by_cases below : caller.fails < scanFailThreshold
    · have room := kept.room below
      omega
    · have single := kept.single (Nat.le_of_not_lt below)
      omega
  · rw [fails]
    intro above
    cases above
  · rw [probes]
    exact fun _ => Nat.zero_le _
  · rw [probes]
    exact fun _ => Nat.zero_le _
  · rw [lockout]
    intro within
    rw [(kept.locked within).1] at member
    cases member
  · rw [retries]
    nofun

/-- The eighth failure in a row, and each one after it, is of the only dial on its way. -/
theorem Kept.failed (kept : Kept now caller) (member : flight ∈ caller.flights)
    (failed : flight.outcome.ok = false) (fits : caller.fails + 1 < 2 ^ 32) :
    Kept now (caller.note now flight) := by
  obtain ⟨fewer, spared⟩ := flights_noted member now
  obtain ⟨fails, begins⟩ := failed_noted failed fits now
  rw [failed, if_neg Bool.false_ne_true] at spared
  by_cases above : scanFailThreshold ≤ caller.fails + 1
  · have locks : (noteDial now caller.entry flight.outcome.ok).2 = true := by
      rw [begins]
      exact decide_eq_true above
    have last : (caller.note now flight).flights = [] := by
      rw [← length_eq_zero_iff]
      by_cases below : caller.fails < scanFailThreshold
      · have room := kept.room below
        omega
      · have single := kept.single (Nat.le_of_not_lt below)
        omega
    have probes : (caller.note now flight).probes = 0 := by
      unfold Caller.note
      dsimp only
      rw [locks, Bool.or_true]
      rfl
    constructor
    · rw [fails]
      intro below
      exact absurd above (Nat.not_le_of_lt below)
    · rw [last]
      exact fun _ => Nat.zero_le _
    · rw [probes]
      exact fun _ => Nat.zero_le _
    · rw [probes]
      exact fun _ => Nat.zero_le _
    · intro _
      refine ⟨last, ?_⟩
      have lockout : (caller.note now flight).lockout = now + scanLockout := by
        unfold Caller.note
        dsimp only
        rw [locks]
        rfl
      rw [lockout]
      have entry : (caller.note now flight).entry =
          (noteDial now caller.entry flight.outcome.ok).1 := rfl
      rw [entry]
      unfold noteDial at locks ⊢
      rw [failed, if_neg Bool.false_ne_true] at locks ⊢
      dsimp only at locks ⊢
      split at locks
      · rename_i reached
        rw [if_pos reached]
        exact ⟨_, rfl, rfl⟩
      · cases locks
    · rw [fails]
      intro count retried
      unfold Caller.note at retried
      dsimp only at retried
      rw [locks, failed] at retried
      cases retried
      exact ⟨above, Nat.zero_le _⟩
  · have passes : (noteDial now caller.entry flight.outcome.ok).2 = false := by
      rw [begins]
      exact decide_eq_false above
    have below : caller.fails < scanFailThreshold := by
      omega
    have probes : (caller.note now flight).probes = caller.probes := by
      unfold Caller.note
      dsimp only
      rw [passes, failed]
      rfl
    have lockout : (caller.note now flight).lockout = caller.lockout := by
      unfold Caller.note
      dsimp only
      rw [passes]
      rfl
    have retries : (caller.note now flight).retries = caller.retries := by
      unfold Caller.note
      dsimp only
      rw [passes, failed]
      rfl
    constructor
    · rw [fails]
      have room := kept.room below
      omega
    · rw [fails]
      intro reached
      exact absurd reached above
    · rw [fails]
      have counted := kept.counted below
      omega
    · rw [fails]
      intro reached
      exact absurd reached above
    · rw [lockout]
      intro within
      rw [(kept.locked within).1] at member
      cases member
    · rw [retries]
      intro count retried
      exact absurd (kept.retried count retried).1 (Nat.not_le_of_lt below)

/-- In a state that careful dials lead to. -/
structure Invariant (state : State) : Prop where
  callers : ∀ owner, Kept state.now (state.callers owner)
  starts : ∀ start ∈ state.starts, start.lockout ≤ start.moment

variable {owner : String}

theorem kept_update {callers : String → Caller} (kept : ∀ owner, Kept now (callers owner))
    (acting : Kept now caller) (other : String) :
    Kept now (Function.update callers owner caller other) := by
  by_cases same : other = owner
  · rw [same, update_self]
    exact acting
  · rw [update_of_ne same]
    exact kept other

theorem invariant_preserved (start : Nat) :
    StepSystem.Preserved (system start) Careful Invariant := by
  intro state label next invariant careful fired
  cases label with
  | tick nanos =>
    cases fired
    exact ⟨fun owner => (invariant.callers owner).tick nanos, invariant.starts⟩
  | check owner flight =>
    cases fired
    have kept := invariant.callers owner
    unfold check
    cases allowed : dialAllowed state.now (state.callers owner).entry with
    | error left => exact ⟨invariant.callers, invariant.starts⟩
    | ok _ =>
      refine ⟨kept_update invariant.callers (kept.start allowed (careful allowed) flight), ?_⟩
      intro entry listed
      rcases mem_cons.mp listed with rfl | earlier
      · exact kept.allowed allowed
      · exact invariant.starts entry earlier
  | note owner flight =>
    obtain ⟨member, fired⟩ := ite_none_right_eq_some.mp fired
    cases fired
    have kept := invariant.callers owner
    refine ⟨kept_update invariant.callers ?_, invariant.starts⟩
    cases ok : flight.outcome.ok with
    | true => exact kept.opened member ok
    | false => exact kept.failed member ok (careful ok)

/-- The same moment and the same dials of a caller. -/
structure Alike (owner : String) (state other : State) : Prop where
  now : state.now = other.now
  caller : state.callers owner = other.callers owner

theorem alike_step {state other next : State} {label : Label} (alike : Alike owner state other)
    (concerned : label.concerns owner = true) (fired : step state label = some next) :
    ∃ otherNext, step other label = some otherNext ∧ Alike owner next otherNext := by
  cases label with
  | tick nanos =>
    cases fired
    exact ⟨_, rfl, by rw [alike.now], alike.caller⟩
  | check acting flight =>
    cases fired
    cases of_decide_eq_true concerned
    refine ⟨_, rfl, ?_⟩
    unfold check
    rw [alike.now, alike.caller]
    cases dialAllowed other.now (other.callers owner).entry with
    | error left => exact ⟨rfl, alike.caller⟩
    | ok _ =>
      refine ⟨rfl, ?_⟩
      dsimp only
      rw [update_self, update_self]
  | note acting flight =>
    obtain ⟨member, fired⟩ := ite_none_right_eq_some.mp fired
    cases fired
    cases of_decide_eq_true concerned
    rw [alike.caller] at member
    refine ⟨_, if_pos member, alike.now, ?_⟩
    unfold note
    dsimp only
    rw [update_self, update_self, alike.now, alike.caller]

theorem alike_other {state other next : State} {label : Label} (alike : Alike owner state other)
    (foreign : label.concerns owner = false) (fired : step state label = some next) :
    Alike owner next other := by
  cases label with
  | tick nanos => cases foreign
  | check acting flight =>
    cases fired
    have apart : owner ≠ acting := Ne.symm (of_decide_eq_false foreign)
    unfold check
    cases dialAllowed state.now (state.callers acting).entry with
    | error left => exact ⟨alike.now, alike.caller⟩
    | ok _ =>
      refine ⟨alike.now, ?_⟩
      dsimp only
      rw [update_of_ne apart]
      exact alike.caller
  | note acting flight =>
    obtain ⟨_, fired⟩ := ite_none_right_eq_some.mp fired
    cases fired
    have apart : owner ≠ acting := Ne.symm (of_decide_eq_false foreign)
    refine ⟨alike.now, ?_⟩
    unfold note
    dsimp only
    rw [update_of_ne apart]
    exact alike.caller

theorem alone_path {start : Nat} {labels : List Label} {allowed : State → Label → Prop}
    {state other finish : State} (alike : Alike owner state other)
    (path : StepSystem.Path (system start) allowed state labels finish) :
    ∃ alone, StepSystem.Path (system start) StepSystem.Unrestricted other
      (labels.filter (Label.concerns owner)) alone ∧ Alike owner finish alone := by
  induction labels generalizing state other with
  | nil =>
    cases path
    exact ⟨other, rfl, alike⟩
  | cons label rest ih =>
    obtain ⟨_, next, fired, continued⟩ := path
    cases concerned : label.concerns owner with
    | true =>
      obtain ⟨otherNext, otherFired, nextAlike⟩ := alike_step alike concerned fired
      obtain ⟨alone, otherPath, finishAlike⟩ := ih nextAlike continued
      rw [filter_cons_of_pos concerned]
      exact ⟨alone, ⟨trivial, otherNext, otherFired, otherPath⟩, finishAlike⟩
    | false =>
      rw [filter_cons_of_neg (by rw [concerned]; exact Bool.false_ne_true)]
      exact ih (alike_other alike concerned fired) continued

/-- The promises hold after every run of careful dials. -/
theorem scans_stopped (start : Nat) (labels : List Label) (state : State)
    (path : StepSystem.Path (system start) Careful (system start).init labels state) :
    Protected start labels state := by
  have invariant : Invariant state := by
    apply StepSystem.path_preserves (invariant_preserved start) path
    exact ⟨fun _ => kept_new start, nofun⟩
  constructor
  · intro owner
    have kept := invariant.callers owner
    have doomed := doomed_le (state.callers owner)
    by_cases below : (state.callers owner).fails < scanFailThreshold
    · have counted := kept.counted below
      have room := kept.room below
      omega
    · have above := Nat.le_of_not_lt below
      have recounted := kept.recounted above
      have single := kept.single above
      have some_ : 1 ≤ scanFailThreshold := by decide
      omega
  · exact invariant.starts
  · intro owner count retried
    have kept := invariant.callers owner
    obtain ⟨above, below⟩ := kept.retried count retried
    exact Nat.le_trans below (kept.single above)
  · intro owner
    have same : Alike owner (system start).init (system start).init := ⟨rfl, rfl⟩
    obtain ⟨alone, alonePath, alike⟩ := alone_path same path
    refine ⟨alone, alonePath, ?_⟩
    rw [alike.now, alike.caller]

def refused (id : Nat) : Flight := ⟨id, .failed "connection refused"⟩

def serialRun : List Label :=
  (List.range 8).flatMap fun id => [.check "app" (refused id), .tick 1, .note "app" (refused id)]

def floodRun : List Label := (List.range 9).map fun id => .check "app" (refused id)

/-- Every step of the run is careful. -/
def isCareful (state : State) : Label → Bool
  | .check owner _ =>
    (state.callers owner).flights.isEmpty ||
      (state.callers owner).fails + (state.callers owner).flights.length < scanFailThreshold
  | .note owner _ => (state.callers owner).fails + 1 < 2 ^ 32
  | .tick _ => true

theorem careful_of_check (state : State) (label : Label) (checked : isCareful state label = true) :
    Careful state label := by
  cases label with
  | tick nanos => exact trivial
  | check owner flight =>
    intro _
    unfold isCareful at checked
    rw [Bool.or_eq_true, List.isEmpty_iff, decide_eq_true_iff] at checked
    exact checked
  | note owner flight => exact fun _ => of_decide_eq_true checked

theorem scans_stopped_serial : ∃ state, (state.callers "app").retries = some 0 ∧
    Protected 0 serialRun state := by
  refine ⟨_, ?_, scans_stopped 0 serialRun _
    (StepSystem.path_of_run_where isCareful careful_of_check _ _ _ rfl)⟩
  rfl

/-- Nine probes are out before the first failure is counted. -/
theorem flood_unstopped : ∃ state,
    StepSystem.Path (system 0) StepSystem.Unrestricted (system 0).init floodRun state ∧
      ¬ Protected 0 floodRun state := by
  refine ⟨_, StepSystem.path_of_run _ _ _ rfl, ?_⟩
  intro kept
  have few := kept.probes "app"
  revert few
  decide

end OnlyJs.Bridge.ClientDb.DialScan
