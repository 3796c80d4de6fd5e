import OnlyJs.Lib.StepSystem

/-!
# The kill switch

One host thread arms and disarms the single slot of a kill switch while a watchdog thread
polls it. The bit `fired` stands outside the lock of the slot. The two threads take one
access to `fired` or one part of a lock section at a time, and the clock and the stop flags
of tasks move between any two of them.
-/

namespace OnlyJs.Bridge.Runtime.KillSwitch

open Lib List Option Lib.StepSystem

abbrev Instant := Nat

abbrev Duration := Nat

structure Arm where
  handle : Nat
  deadline : Option Instant
  gate : Option (Nat × Duration)

inductive Opening where
  | deadline (instant : Instant)
  | flag (gate : Nat) (grace : Duration)

inductive Event where
  | armed (handle : Nat) (opening : Opening)
  | raised (gate : Nat) (instant : Instant)
  | terminated (handle : Nat) (instant : Instant)
  | disarmed (closed : Option Nat) (fired : Bool)

/-- Where the host thread stands in `arm`, `arm_on_flag` and `disarm`. -/
inductive Host where
  | idle
  /-- `fired` is reset, the clock not yet read. -/
  | timing (handle : Nat) (timeout : Duration)
  /-- The arm is built, the slot not yet written. -/
  | placing (arm : Arm) (opening : Opening)
  /-- The slot is emptied, `fired` not yet swapped. -/
  | disarming (closed : Option Nat)

def Host.arming : Host → Bool
  | .timing .. => true
  | .placing .. => true
  | _ => false

/-- Where the watchdog stands in an iteration. Anywhere but in `polling` it holds the lock
of the slot. -/
inductive Watchdog where
  | polling
  /-- The gate was looked after. -/
  | holding
  /-- The deadline has passed and `fired` was not set. -/
  | firing
  /-- The handle was terminated, `fired` is not yet set. -/
  | storing

def Watchdog.holdsLock : Watchdog → Bool
  | .polling => false
  | _ => true

structure State where
  slot : Option Arm
  fired : Bool
  host : Host
  watchdog : Watchdog
  now : Instant
  gates : Nat → Bool
  windows : Nat
  history : List Event

inductive Label where
  | arm (timeout : Duration)
  | armOnFlag (gate : Nat) (grace : Duration)
  | disarm
  | host
  | watch
  | elapse (duration : Duration)
  | raise (gate : Nat)
  | lower (gate : Nat)

def Arm.lookAfter (arm : Arm) (gates : Nat → Bool) (now : Instant) : Arm :=
  match arm.gate, arm.deadline with
  | some (gate, grace), none =>
    if gates gate then { arm with deadline := some (now + grace) } else arm
  | _, _ => arm

def Arm.due (arm : Arm) (now : Instant) : Bool :=
  arm.deadline.any (· ≤ now)

/-- The next step of a call the host thread is in. -/
def hostStep (state : State) : Option State :=
  match state.host with
  | .idle => none
  | .timing handle timeout =>
    some { state with
      host := .placing
        { handle, deadline := some (state.now + timeout), gate := none }
        (.deadline (state.now + timeout)) }
  | .placing arm opening =>
    if state.watchdog.holdsLock then none
    else some { state with
      slot := some arm
      host := .idle
      history := .armed arm.handle opening :: state.history }
  | .disarming closed =>
    some { state with
      fired := false
      host := .idle
      history := .disarmed closed state.fired :: state.history }

def watchStep (state : State) : State :=
  match state.slot with
  | none => { state with watchdog := .polling }
  | some arm =>
    match state.watchdog with
    | .polling =>
      { state with
        slot := some (arm.lookAfter state.gates state.now)
        watchdog := .holding }
    | .holding =>
      if arm.due state.now && !state.fired then { state with watchdog := .firing }
      else { state with watchdog := .polling }
    | .firing =>
      { state with
        watchdog := .storing
        history := .terminated arm.handle state.now :: state.history }
    | .storing => { state with fired := true, watchdog := .polling }

def step (state : State) : Label → Option State
  | .arm timeout =>
    match state.host with
    | .idle =>
      some { state with
        fired := false
        host := .timing state.windows timeout
        windows := state.windows + 1 }
    | _ => none
  | .armOnFlag gate grace =>
    match state.host with
    | .idle =>
      some { state with
        fired := false
        host := .placing
          { handle := state.windows, deadline := none, gate := some (gate, grace) }
          (.flag gate grace)
        windows := state.windows + 1 }
    | _ => none
  | .disarm =>
    match state.host with
    | .idle =>
      if state.watchdog.holdsLock then none
      else some { state with
        slot := none
        host := .disarming (state.slot.map Arm.handle) }
    | _ => none
  | .host => hostStep state
  | .watch => some (watchStep state)
  | .elapse duration => some { state with now := state.now + duration }
  | .raise gate =>
    some { state with
      gates := Function.update state.gates gate true
      history := .raised gate state.now :: state.history }
  | .lower gate => some { state with gates := Function.update state.gates gate false }

def init : State where
  slot := none
  fired := false
  host := .idle
  watchdog := .polling
  now := 0
  gates := fun _ => false
  windows := 0
  history := []

def system : System State Label where
  init := init
  step := step

/-- A window may be terminated once its deadline is there, or once its flag was raised and
the grace has elapsed since. -/
def Opening.Due (history : List Event) (instant : Instant) : Opening → Prop
  | .deadline bound => bound ≤ instant
  | .flag gate grace => ∃ since, .raised gate since ∈ history ∧ since + grace ≤ instant

/-- Windows do not leak into each other, latest event first: a window is armed once; it is
terminated at most once, when it is due and before its `disarm` has returned; and `disarm`
returns true exactly when the window it closes was terminated. -/
def Separate : List Event → Prop
  | [] => True
  | .armed handle _ :: rest => (∀ opening, .armed handle opening ∉ rest) ∧ Separate rest
  | .raised _ _ :: rest => Separate rest
  | .terminated handle instant :: rest =>
    (∃ opening, .armed handle opening ∈ rest ∧ opening.Due rest instant) ∧
      (∀ earlier, .terminated handle earlier ∉ rest) ∧
      (∀ fired, .disarmed (some handle) fired ∉ rest) ∧ Separate rest
  | .disarmed closed fired :: rest =>
    (fired = true ↔
      ∃ handle instant, closed = some handle ∧ .terminated handle instant ∈ rest) ∧
      Separate rest

/-- Between the reset of `fired` and the write of the slot by an `arm`, the watchdog neither
terminates the window still in the slot nor sets `fired` for it. -/
def Undisturbed (state : State) : Label → Prop
  | .watch => state.host.arming = true → state.watchdog ≠ .firing ∧ state.watchdog ≠ .storing
  | _ => True

def Terminated (history : List Event) (handle : Nat) : Prop :=
  ∃ instant, .terminated handle instant ∈ history

/-- What the arm in the slot keeps of what its window was armed with. -/
def Arm.Keeps (history : List Event) (arm : Arm) : Opening → Prop
  | .deadline bound => arm.deadline = some bound ∧ arm.gate = none
  | .flag gate grace => arm.gate = some (gate, grace) ∧
      ∀ bound, arm.deadline = some bound →
        ∃ since, .raised gate since ∈ history ∧ since + grace ≤ bound

/-- The window of an arm is open. -/
structure Open (history : List Event) (arm : Arm) : Prop where
  armed : ∃ opening, .armed arm.handle opening ∈ history ∧ arm.Keeps history opening
  undisarmed : ∀ fired, .disarmed (some arm.handle) fired ∉ history

/-- Events are about windows armed before, and a window to be armed is new. -/
structure Known (state : State) : Prop where
  separate : Separate state.history
  raised : ∀ gate, state.gates gate = true →
    ∃ since, .raised gate since ∈ state.history ∧ since ≤ state.now
  issued : ∀ handle opening, .armed handle opening ∈ state.history → handle < state.windows
  closed : ∀ handle fired, .disarmed (some handle) fired ∈ state.history →
    ∃ opening, .armed handle opening ∈ state.history
  slot : ∀ arm, state.slot = some arm → Open state.history arm

/-- What holds of the host thread in a phase. -/
def Stands (state : State) : Host → Prop
  | .idle => state.watchdog ≠ .storing →
      (state.fired = true ↔ ∃ arm, state.slot = some arm ∧ Terminated state.history arm.handle)
  | .timing handle _ => state.fired = false ∧ handle < state.windows ∧
      ∀ opening, .armed handle opening ∉ state.history
  | .placing arm opening => state.fired = false ∧ arm.handle < state.windows ∧
      (∀ other, .armed arm.handle other ∉ state.history) ∧ arm.Keeps state.history opening
  | .disarming closed => state.slot = none ∧ state.watchdog = .polling ∧
      (∀ handle, closed = some handle → ∃ opening, .armed handle opening ∈ state.history) ∧
      (state.fired = true ↔ ∃ handle, closed = some handle ∧ Terminated state.history handle)

/-- What holds of the watchdog in a phase. -/
def Watches (state : State) : Watchdog → Prop
  | .polling => True
  | .holding => ∃ arm, state.slot = some arm
  | .firing => ∃ arm, state.slot = some arm ∧ arm.due state.now = true ∧
      (state.host = .idle → state.fired = false)
  | .storing => ∃ arm, state.slot = some arm ∧ Terminated state.history arm.handle

structure Invariant (state : State) : Prop extends Known state where
  stands : Stands state state.host
  watches : Watches state state.watchdog

variable {history : List Event} {state next : State} {arm : Arm}

variable {opening : Opening}

theorem keeps_cons (event : Event) (keeps : arm.Keeps history opening) :
    arm.Keeps (event :: history) opening := by
  cases opening with
  | deadline bound => exact keeps
  | flag gate grace =>
    refine ⟨keeps.1, ?_⟩
    intro bound set
    obtain ⟨since, raised, elapsed⟩ := keeps.2 bound set
    exact ⟨since, mem_cons_of_mem _ raised, elapsed⟩

theorem open_cons (event : Event) (opened : Open history arm)
    (other : ∀ fired, event ≠ .disarmed (some arm.handle) fired) : Open (event :: history) arm := by
  obtain ⟨opening, armed, keeps⟩ := opened.armed
  refine ⟨⟨opening, mem_cons_of_mem _ armed, keeps_cons event keeps⟩, ?_⟩
  intro fired disarmed
  cases mem_cons.mp disarmed with
  | inl same => exact other fired same.symm
  | inr earlier => exact opened.undisarmed fired earlier

theorem due_of_keeps {instant : Instant} (keeps : arm.Keeps history opening)
    (due : arm.due instant = true) : opening.Due history instant := by
  obtain ⟨bound, set, reached⟩ := (any_eq_true _ _).mp due
  have passed : bound ≤ instant := of_decide_eq_true reached
  cases opening with
  | deadline first =>
    have same : first = bound := Option.some.inj (keeps.1.symm.trans set)
    rw [same]
    exact passed
  | flag gate grace =>
    obtain ⟨since, raised, elapsed⟩ := keeps.2 bound set
    exact ⟨since, raised, Nat.le_trans elapsed passed⟩

theorem look_after_handle (gates : Nat → Bool) (now : Instant) :
    (arm.lookAfter gates now).handle = arm.handle := by
  unfold Arm.lookAfter
  split
  · split <;> rfl
  · rfl

theorem look_after_keeps {gates : Nat → Bool} {now : Instant}
    (raised : ∀ gate, gates gate = true → ∃ since, .raised gate since ∈ history ∧ since ≤ now)
    (keeps : arm.Keeps history opening) : (arm.lookAfter gates now).Keeps history opening := by
  unfold Arm.lookAfter
  split
  · rename_i gate grace gated unset
    split
    · rename_i up
      cases opening with
      | deadline bound =>
        rw [keeps.2] at gated
        cases gated
      | flag watched wait =>
        rw [keeps.1] at gated
        cases gated
        refine ⟨keeps.1, ?_⟩
        intro bound set
        cases set
        obtain ⟨since, event, before⟩ := raised _ up
        exact ⟨since, event, Nat.add_le_add_right before _⟩
    · exact keeps
  · exact keeps

theorem separate_window {rest : List Event} {handle : Nat} {instant : Instant}
    (separate : Separate rest) (mem : .terminated handle instant ∈ rest) :
    ∃ opening, .armed handle opening ∈ rest := by
  induction rest with
  | nil => cases mem
  | cons event rest ih =>
    have tail : Separate rest := by
      cases event with
      | armed _ _ => exact separate.2
      | raised _ _ => exact separate
      | terminated _ _ => exact separate.2.2.2
      | disarmed _ _ => exact separate.2
    cases mem_cons.mp mem with
    | inl same =>
      subst same
      obtain ⟨⟨opening, armed, _⟩, _⟩ := separate
      exact ⟨opening, mem_cons_of_mem _ armed⟩
    | inr earlier =>
      obtain ⟨opening, armed⟩ := ih tail earlier
      exact ⟨opening, mem_cons_of_mem _ armed⟩

theorem known_quiet (known : Known state) (history : next.history = state.history)
    (raised : ∀ gate, next.gates gate = true → state.gates gate = true)
    (now : state.now ≤ next.now) (windows : state.windows ≤ next.windows)
    (slot : ∀ arm, next.slot = some arm → Open state.history arm) : Known next := by
  constructor
  · rw [history]
    exact known.separate
  · intro gate up
    obtain ⟨since, event, before⟩ := known.raised gate (raised gate up)
    rw [history]
    exact ⟨since, event, Nat.le_trans before now⟩
  · intro handle opening armed
    rw [history] at armed
    exact Nat.lt_of_lt_of_le (known.issued handle opening armed) windows
  · rw [history]
    exact known.closed
  · rw [history]
    exact slot

section

variable (invariant : Invariant state)
include invariant

theorem arm_invariant (timeout : Duration) (fired : step state (.arm timeout) = some next) :
    Invariant next := by
  cases host : state.host <;> simp only [step, host, reduceCtorEq] at fired
  cases fired
  refine ⟨known_quiet invariant.toKnown rfl (fun _ up => up) (Nat.le_refl _) (Nat.le_succ _)
    invariant.slot, ?_, ?_⟩
  · refine ⟨rfl, Nat.lt_succ_self _, ?_⟩
    intro opening armed
    exact Nat.lt_irrefl _ (invariant.issued _ _ armed)
  · have watches := invariant.watches
    cases watchdog : state.watchdog <;> rw [watchdog] at watches
    case firing =>
      obtain ⟨arm, slot, due, _⟩ := watches
      exact ⟨arm, slot, due, fun idle => nomatch idle⟩
    all_goals exact watches

theorem arm_on_flag_invariant (gate : Nat) (grace : Duration)
    (fired : step state (.armOnFlag gate grace) = some next) : Invariant next := by
  cases host : state.host <;> simp only [step, host, reduceCtorEq] at fired
  cases fired
  refine ⟨known_quiet invariant.toKnown rfl (fun _ up => up) (Nat.le_refl _) (Nat.le_succ _)
    invariant.slot, ?_, ?_⟩
  · refine ⟨rfl, Nat.lt_succ_self _, ?_, rfl, fun _ unset => nomatch unset⟩
    intro opening armed
    exact Nat.lt_irrefl _ (invariant.issued _ _ armed)
  · have watches := invariant.watches
    cases watchdog : state.watchdog <;> rw [watchdog] at watches
    case firing =>
      obtain ⟨arm, slot, due, _⟩ := watches
      exact ⟨arm, slot, due, fun idle => nomatch idle⟩
    all_goals exact watches

theorem disarm_invariant (fired : step state .disarm = some next) : Invariant next := by
  cases host : state.host <;> simp only [step, host, reduceCtorEq] at fired
  obtain ⟨unlocked, fired⟩ := ite_none_left_eq_some.mp fired
  have polling : state.watchdog = .polling := by
    cases watchdog : state.watchdog <;> simp_all [Watchdog.holdsLock]
  have stands := invariant.stands
  rw [host] at stands
  have accurate := stands (by rw [polling]; nofun)
  cases fired
  refine ⟨known_quiet invariant.toKnown rfl (fun _ up => up) (Nat.le_refl _) (Nat.le_refl _)
    (fun _ absent => nomatch absent), ⟨rfl, polling, ?_, ?_⟩, ?_⟩
  · intro handle closed
    obtain ⟨arm, slot, rfl⟩ := map_eq_some_iff.mp closed
    obtain ⟨opening, armed, _⟩ := (invariant.slot arm slot).armed
    exact ⟨opening, armed⟩
  · refine accurate.trans ⟨?_, ?_⟩
    · rintro ⟨arm, slot, terminated⟩
      exact ⟨arm.handle, map_eq_some_iff.mpr ⟨arm, slot, rfl⟩, terminated⟩
    · rintro ⟨handle, closed, terminated⟩
      obtain ⟨arm, slot, rfl⟩ := map_eq_some_iff.mp closed
      exact ⟨arm, slot, terminated⟩
  · rw [polling]
    trivial

/-- The window an `arm` opens is new, and nothing of an older one is left in `fired`. -/
theorem place_invariant {arm : Arm} (host : state.host = .placing arm opening)
    (polling : state.watchdog = .polling) :
    Invariant { state with
      slot := some arm
      host := .idle
      history := .armed arm.handle opening :: state.history } := by
  have stands := invariant.stands
  rw [host] at stands
  obtain ⟨reset, issued, new, keeps⟩ := stands
  have opened : Open (.armed arm.handle opening :: state.history) arm := by
    refine ⟨⟨opening, mem_cons_self, keeps_cons _ keeps⟩, ?_⟩
    intro fired disarmed
    cases mem_cons.mp disarmed with
    | inl same => cases same
    | inr earlier =>
      obtain ⟨other, armed⟩ := invariant.closed _ _ earlier
      exact new other armed
  constructor
  · constructor
    · exact ⟨new, invariant.separate⟩
    · intro gate up
      obtain ⟨since, event, before⟩ := invariant.raised gate up
      exact ⟨since, mem_cons_of_mem _ event, before⟩
    · intro handle other armed
      cases mem_cons.mp armed with
      | inl same =>
        cases same
        exact issued
      | inr earlier => exact invariant.issued _ _ earlier
    · intro handle fired disarmed
      cases mem_cons.mp disarmed with
      | inl same => cases same
      | inr earlier =>
        obtain ⟨other, armed⟩ := invariant.closed _ _ earlier
        exact ⟨other, mem_cons_of_mem _ armed⟩
    · intro placed slot
      cases slot
      exact opened
  · intro _
    rw [reset]
    constructor
    · nofun
    · rintro ⟨placed, slot, instant, terminated⟩
      cases slot
      cases mem_cons.mp terminated with
      | inl same => cases same
      | inr earlier =>
        obtain ⟨other, armed⟩ := separate_window invariant.separate earlier
        exact (new other armed).elim
  · change Watches _ state.watchdog
    rw [polling]
    trivial

/-- What `disarm` returns is about the window it closed. -/
theorem swap_invariant {closed : Option Nat} (host : state.host = .disarming closed) :
    Invariant { state with
      fired := false
      host := .idle
      history := .disarmed closed state.fired :: state.history } := by
  have stands := invariant.stands
  rw [host] at stands
  obtain ⟨empty, polling, known, accurate⟩ := stands
  constructor
  · constructor
    · refine ⟨accurate.trans ⟨?_, ?_⟩, invariant.separate⟩
      · rintro ⟨handle, same, instant, terminated⟩
        exact ⟨handle, instant, same, terminated⟩
      · rintro ⟨handle, instant, same, terminated⟩
        exact ⟨handle, same, instant, terminated⟩
    · intro gate up
      obtain ⟨since, event, before⟩ := invariant.raised gate up
      exact ⟨since, mem_cons_of_mem _ event, before⟩
    · intro handle opening armed
      cases mem_cons.mp armed with
      | inl same => cases same
      | inr earlier => exact invariant.issued _ _ earlier
    · intro handle fired disarmed
      have armed : ∃ opening, .armed handle opening ∈ state.history := by
        cases mem_cons.mp disarmed with
        | inl same =>
          cases same
          exact known handle rfl
        | inr earlier => exact invariant.closed _ _ earlier
      obtain ⟨opening, armed⟩ := armed
      exact ⟨opening, mem_cons_of_mem _ armed⟩
    · intro arm slot
      cases empty.symm.trans slot
  · intro _
    constructor
    · nofun
    · rintro ⟨arm, slot, _⟩
      cases empty.symm.trans slot
  · change Watches _ state.watchdog
    rw [polling]
    trivial

theorem host_invariant (fired : step state .host = some next) : Invariant next := by
  simp only [step, hostStep] at fired
  cases host : state.host <;> simp only [host, reduceCtorEq] at fired
  case timing handle timeout =>
    cases fired
    have stands := invariant.stands
    rw [host] at stands
    refine ⟨known_quiet invariant.toKnown rfl (fun _ up => up) (Nat.le_refl _) (Nat.le_refl _)
      invariant.slot, ⟨stands.1, stands.2.1, stands.2.2, rfl, rfl⟩, ?_⟩
    have watches := invariant.watches
    cases watchdog : state.watchdog <;> rw [watchdog] at watches
    case firing =>
      obtain ⟨arm, slot, due, _⟩ := watches
      exact ⟨arm, slot, due, fun idle => nomatch idle⟩
    all_goals exact watches
  case placing arm opening =>
    obtain ⟨unlocked, fired⟩ := ite_none_left_eq_some.mp fired
    have polling : state.watchdog = .polling := by
      cases watchdog : state.watchdog <;> simp_all [Watchdog.holdsLock]
    cases fired
    exact place_invariant invariant host polling
  case disarming closed =>
    cases fired
    exact swap_invariant invariant host

section

variable {arm : Arm} (slot : state.slot = some arm)
include slot

theorem hold_invariant (holding : state.watchdog = .holding) :
    Invariant (watchStep state) := by
  simp only [watchStep, slot, holding]
  have quiet (watchdog : Watchdog) : Known { state with slot := some arm, watchdog } :=
    known_quiet invariant.toKnown rfl (fun _ up => up) (Nat.le_refl _) (Nat.le_refl _)
      (fun other found => invariant.slot other (slot.trans found))
  have stands (watchdog : Watchdog) :
      Stands { state with slot := some arm, watchdog } state.host := by
    have stands := invariant.stands
    cases host : state.host <;> rw [host] at stands
    case idle =>
      have accurate := stands (by rw [holding]; nofun)
      rw [slot] at accurate
      exact fun _ => accurate
    case disarming closed => cases stands.1.symm.trans slot
    all_goals exact stands
  split
  · rename_i passed
    obtain ⟨due, unfired⟩ := Bool.and_eq_true_iff.mp passed
    refine ⟨quiet .firing, stands .firing, arm, rfl, due, ?_⟩
    intro _
    exact (Bool.not_eq_true' _).mp unfired
  · exact ⟨quiet .polling, stands .polling, trivial⟩

/-- Where no `arm` is under way, the terminated window is in the slot, due and untouched. -/
theorem fire_invariant (firing : state.watchdog = .firing) (rests : state.host.arming = false) :
    Invariant (watchStep state) := by
  have watches := invariant.watches
  rw [firing] at watches
  obtain ⟨other, found, due, unfired⟩ := watches
  cases slot.symm.trans found
  have idle : state.host = .idle := by
    have stands := invariant.stands
    cases host : state.host <;> simp only [host, Host.arming, reduceCtorEq] at rests stands
    case idle => rfl
    case disarming closed => cases stands.1.symm.trans slot
  have stands := invariant.stands
  rw [idle] at stands
  have untouched : ¬ Terminated state.history arm.handle := by
    intro terminated
    have set := (stands (by rw [firing]; nofun)).mpr ⟨arm, slot, terminated⟩
    rw [unfired idle] at set
    cases set
  obtain ⟨opening, armed, keeps⟩ := (invariant.slot arm slot).armed
  simp only [watchStep, slot, firing]
  constructor
  · constructor
    · refine ⟨⟨opening, armed, due_of_keeps keeps due⟩, ?_, ?_, invariant.separate⟩
      · intro earlier terminated
        exact untouched ⟨earlier, terminated⟩
      · exact (invariant.slot arm slot).undisarmed
    · intro gate up
      obtain ⟨since, event, before⟩ := invariant.raised gate up
      exact ⟨since, mem_cons_of_mem _ event, before⟩
    · intro handle other armed
      cases mem_cons.mp armed with
      | inl same => cases same
      | inr earlier => exact invariant.issued _ _ earlier
    · intro handle fired disarmed
      cases mem_cons.mp disarmed with
      | inl same => cases same
      | inr earlier =>
        obtain ⟨other, armed⟩ := invariant.closed _ _ earlier
        exact ⟨other, mem_cons_of_mem _ armed⟩
    · intro other found
      exact open_cons _ (invariant.slot other (slot.trans found)) (fun _ => nofun)
  · change Stands _ state.host
    rw [idle]
    exact fun storing => (storing rfl).elim
  · exact ⟨arm, rfl, state.now, mem_cons_self⟩

theorem store_invariant (storing : state.watchdog = .storing) (rests : state.host.arming = false) :
    Invariant (watchStep state) := by
  have watches := invariant.watches
  rw [storing] at watches
  obtain ⟨other, found, terminated⟩ := watches
  cases slot.symm.trans found
  simp only [watchStep, slot, storing]
  refine ⟨known_quiet invariant.toKnown rfl (fun _ up => up) (Nat.le_refl _) (Nat.le_refl _)
    (fun other found => invariant.slot other (slot.trans found)), ?_, trivial⟩
  have stands := invariant.stands
  cases host : state.host <;> simp only [host, Host.arming, reduceCtorEq] at rests stands
  case idle => exact fun _ => ⟨fun _ => ⟨arm, rfl, terminated⟩, fun _ => rfl⟩
  case disarming closed => cases stands.1.symm.trans slot

theorem poll_invariant (polling : state.watchdog = .polling) :
    Invariant (watchStep state) := by
  have opened : Open state.history (arm.lookAfter state.gates state.now) := by
    obtain ⟨⟨opening, armed, keeps⟩, undisarmed⟩ := invariant.slot arm slot
    constructor
    · rw [look_after_handle]
      exact ⟨opening, armed, look_after_keeps invariant.raised keeps⟩
    · rw [look_after_handle]
      exact undisarmed
  simp only [watchStep, slot, polling]
  refine ⟨known_quiet invariant.toKnown rfl (fun _ up => up) (Nat.le_refl _) (Nat.le_refl _) ?_,
    ?_, _, rfl⟩
  · intro other found
    cases found
    exact opened
  · have stands := invariant.stands
    cases host : state.host <;> simp only [host] at stands ⊢
    case idle =>
      intro _
      refine (stands (by rw [polling]; nofun)).trans ⟨?_, ?_⟩
      · rintro ⟨other, found, terminated⟩
        cases slot.symm.trans found
        exact ⟨_, rfl, by rwa [look_after_handle]⟩
      · rintro ⟨other, found, terminated⟩
        cases found
        rw [look_after_handle] at terminated
        exact ⟨arm, slot, terminated⟩
    case disarming closed => cases stands.1.symm.trans slot
    all_goals exact stands

end

end

theorem watch_step_empty (slot : state.slot = none) (polling : state.watchdog = .polling) :
    watchStep state = state := by
  cases state
  cases slot
  cases polling
  rfl

section

variable (invariant : Invariant state)
include invariant

theorem watch_invariant (undisturbed : Undisturbed state .watch) :
    Invariant (watchStep state) := by
  cases slot : state.slot with
  | none =>
    have polling : state.watchdog = .polling := by
      have watches := invariant.watches
      cases watchdog : state.watchdog <;> rw [watchdog] at watches
      all_goals
        obtain ⟨arm, found⟩ := watches
      case holding => cases slot.symm.trans found
      all_goals cases slot.symm.trans found.1
    rw [watch_step_empty slot polling]
    exact invariant
  | some arm =>
    cases watchdog : state.watchdog with
    | polling => exact poll_invariant invariant slot watchdog
    | holding => exact hold_invariant invariant slot watchdog
    | firing =>
      have rests : state.host.arming = false := by
        rw [← Bool.not_eq_true]
        intro arming
        exact (undisturbed arming).1 watchdog
      exact fire_invariant invariant slot watchdog rests
    | storing =>
      have rests : state.host.arming = false := by
        rw [← Bool.not_eq_true]
        intro arming
        exact (undisturbed arming).2 watchdog
      exact store_invariant invariant slot watchdog rests

theorem elapse_invariant (duration : Duration) :
    Invariant { state with now := state.now + duration } := by
  refine ⟨known_quiet invariant.toKnown rfl (fun _ up => up) (Nat.le_add_right _ _)
    (Nat.le_refl _) invariant.slot, ?_, ?_⟩
  · have stands := invariant.stands
    cases host : state.host <;> rw [host] at stands <;> exact stands
  · have watches := invariant.watches
    cases watchdog : state.watchdog <;> rw [watchdog] at watches
    case firing =>
      obtain ⟨arm, slot, due, unfired⟩ := watches
      obtain ⟨bound, set, reached⟩ := (any_eq_true _ _).mp due
      refine ⟨arm, slot, (any_eq_true _ _).mpr ⟨bound, set, ?_⟩, unfired⟩
      exact decide_eq_true (Nat.le_trans (of_decide_eq_true reached) (Nat.le_add_right _ _))
    all_goals exact watches

theorem raise_invariant (gate : Nat) :
    Invariant { state with
      gates := Function.update state.gates gate true
      history := .raised gate state.now :: state.history } := by
  have old {handle : Nat} {opening : Opening}
      (armed : .armed handle opening ∈ Event.raised gate state.now :: state.history) :
      .armed handle opening ∈ state.history := by
    cases mem_cons.mp armed with
    | inl same => cases same
    | inr earlier => exact earlier
  have still (handle : Nat) : Terminated (.raised gate state.now :: state.history) handle ↔
      Terminated state.history handle := by
    constructor
    · rintro ⟨instant, terminated⟩
      cases mem_cons.mp terminated with
      | inl same => cases same
      | inr earlier => exact ⟨instant, earlier⟩
    · rintro ⟨instant, terminated⟩
      exact ⟨instant, mem_cons_of_mem _ terminated⟩
  constructor
  · constructor
    · exact invariant.separate
    · intro other up
      by_cases same : other = gate
      · subst same
        exact ⟨state.now, mem_cons_self, Nat.le_refl _⟩
      · have earlier : state.gates other = true := by
          rw [← Function.update_of_ne same true state.gates]
          exact up
        obtain ⟨since, event, before⟩ := invariant.raised other earlier
        exact ⟨since, mem_cons_of_mem _ event, before⟩
    · intro handle opening armed
      exact invariant.issued handle opening (old armed)
    · intro handle fired disarmed
      cases mem_cons.mp disarmed with
      | inl same => cases same
      | inr earlier =>
        obtain ⟨opening, armed⟩ := invariant.closed _ _ earlier
        exact ⟨opening, mem_cons_of_mem _ armed⟩
    · intro arm slot
      exact open_cons _ (invariant.slot arm slot) (fun _ => nofun)
  · have stands := invariant.stands
    cases host : state.host <;> simp only [host] at stands ⊢
    case idle =>
      intro resting
      simp only [still]
      exact stands resting
    case timing handle timeout =>
      exact ⟨stands.1, stands.2.1, fun opening armed => stands.2.2 opening (old armed)⟩
    case placing arm opening =>
      exact ⟨stands.1, stands.2.1, fun other armed => stands.2.2.1 other (old armed),
        keeps_cons _ stands.2.2.2⟩
    case disarming closed =>
      obtain ⟨empty, polling, known, accurate⟩ := stands
      refine ⟨empty, polling, ?_, ?_⟩
      · intro handle same
        obtain ⟨opening, armed⟩ := known handle same
        exact ⟨opening, mem_cons_of_mem _ armed⟩
      · simp only [still]
        exact accurate
  · have watches := invariant.watches
    cases watchdog : state.watchdog <;> rw [watchdog] at watches
    case storing =>
      obtain ⟨arm, slot, terminated⟩ := watches
      exact ⟨arm, slot, (still _).mpr terminated⟩
    all_goals exact watches

theorem lower_invariant (gate : Nat) :
    Invariant { state with gates := Function.update state.gates gate false } := by
  have raised (other : Nat) (up : Function.update state.gates gate false other = true) :
      state.gates other = true := by
    by_cases same : other = gate
    · subst same
      rw [Function.update_self] at up
      cases up
    · rwa [Function.update_of_ne same] at up
  refine ⟨known_quiet invariant.toKnown rfl raised (Nat.le_refl _) (Nat.le_refl _)
    invariant.slot, ?_, ?_⟩
  · have stands := invariant.stands
    cases host : state.host <;> rw [host] at stands <;> exact stands
  · have watches := invariant.watches
    cases watchdog : state.watchdog <;> rw [watchdog] at watches <;> exact watches

end

theorem init_invariant : Invariant init := by
  constructor
  · constructor
    · trivial
    · nofun
    · nofun
    · nofun
    · nofun
  · intro _
    constructor
    · nofun
    · rintro ⟨arm, slot, _⟩
      cases slot
  · trivial

theorem step_invariant : Preserved system Undisturbed Invariant := by
  intro state label next invariant undisturbed fired
  cases label with
  | arm timeout => exact arm_invariant invariant timeout fired
  | armOnFlag gate grace => exact arm_on_flag_invariant invariant gate grace fired
  | disarm => exact disarm_invariant invariant fired
  | host => exact host_invariant invariant fired
  | watch =>
    cases fired
    exact watch_invariant invariant undisturbed
  | elapse duration =>
    cases fired
    exact elapse_invariant invariant duration
  | raise gate =>
    cases fired
    exact raise_invariant invariant gate
  | lower gate =>
    cases fired
    exact lower_invariant invariant gate

/-- Where the watchdog does not fire at an abandoned window while the next one is being
armed, windows do not leak into each other in any run. -/
theorem windows_separate (state : State) (reached : Reachable system Undisturbed state) :
    Separate state.history :=
  (invariant_of_step init_invariant step_invariant reached).separate

/-- A window that is terminated at its deadline and then closed. -/
theorem windows_separate_fired :
    Separate [.disarmed (some 0) true, .terminated 0 5, .armed 0 (.deadline 5)] :=
  windows_separate _ ⟨[.arm 5, .host, .host, .elapse 5, .watch, .watch, .watch, .watch,
    .disarm, .host], trivial, _, rfl, trivial, _, rfl, trivial, _, rfl, trivial, _, rfl,
    nofun, _, rfl, nofun, _, rfl, nofun, _, rfl, nofun, _, rfl, trivial, _, rfl,
    trivial, _, rfl, rfl⟩

/-- The watchdog has just found the deadline of an abandoned window passed when the next
window resets `fired`. It terminates the old handle and sets `fired`, and the `disarm` of
the next window returns true although its handle was never terminated. -/
theorem window_answers_for_abandoned_one :
    ∃ labels finish, Path system Unrestricted init labels finish ∧
      ¬ Separate finish.history := by
  have ran := path_of_run init _
    [.arm 0, .host, .host, .watch, .arm 10, .watch, .watch, .watch, .host, .host, .disarm,
      .host] (rfl : system.run init _ = some _)
  have leaked : ¬ Separate [.disarmed (some 1) true, .armed 1 (.deadline 10),
      .terminated 0 0, .armed 0 (.deadline 0)] := by
    rintro ⟨accurate, _⟩
    obtain ⟨handle, instant, same, terminated⟩ := accurate.mp rfl
    cases same
    simp at terminated
  exact ⟨_, _, ran, leaked⟩

end OnlyJs.Bridge.Runtime.KillSwitch
