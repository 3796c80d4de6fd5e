import Mathlib.Data.List.Basic
import OnlyJs.Lib.StepSystem

/-!
# The row stream of a script

`db.stream` wraps the stream operations of the host. It opens the stream when the id is
first needed, keeps the promise of that one open, and passes the rows to `onRow` or to an
asynchronous iterator. The signal of the caller, the callbacks and the questions for the
execution id come in at any time.
-/

namespace OnlyJs.Bridge.DbStream.Wrapper

open Lib.StepSystem Option

inductive HostCall where
  | streamOpen
  | streamNext
  | streamInfo
  | streamAbort
  | streamClose
deriving DecidableEq

/-- The options of a call; `signal` says whether the signal had fired before. -/
structure Options where
  onRow : Bool
  onOpen : Bool
  onProgress : Bool
  signal : Option Bool
deriving DecidableEq

/-- The promise `idsP`. -/
inductive Ids where
  | unasked
  | asked
  | opened
  | failed
deriving DecidableEq

inductive Phase where
  | idle
  | opening
  | pulling
  | body
  | reading
  | finished
deriving DecidableEq

structure State where
  ids : Ids
  /-- Calls that wait for the id. -/
  waiting : List HostCall
  listening : Bool
  fired : Bool
  phase : Phase
  calls : List HostCall
  /-- How often `onOpen` was called. -/
  opens : Nat
  rows : Nat
  /-- Rows that were delivered after the signal had fired. -/
  late : Nat
deriving DecidableEq

/-- What the host answers to `streamNext`. -/
inductive Answer where
  | row
  | null
  | error
deriving DecidableEq

inductive Label where
  /-- The iterator is asked for the next row. -/
  | next
  /-- The body of the loop breaks, returns or throws. -/
  | leave
  | executionId
  | info
  /-- The host answers the open. -/
  | answered (granted : Bool)
  /-- A call that waited for the id goes out. -/
  | perform
  /-- The consumer goes on with the id; `throws` is about `onOpen`. -/
  | resume (throws : Bool)
  /-- The host answers; `throws` is about `onRow`, `report` about the clock of `onProgress`. -/
  | answer (reply : Answer) (throws report : Bool)
  /-- The last statistics are there, or could not be had. -/
  | snapshot
  | fire
deriving DecidableEq

def State.send (state : State) (call : HostCall) : State :=
  { state with calls := state.calls ++ [call] }

def State.openIds (state : State) : State :=
  match state.ids with
  | .unasked => { state.send .streamOpen with ids := .asked }
  | _ => state

/-- `openIds().then((v) => call(v.id))`, with the rejection swallowed. -/
def State.whenOpened (state : State) (call : HostCall) : State :=
  match state.openIds.ids with
  | .opened => state.openIds.send call
  | .failed => state.openIds
  | _ => { state.openIds with waiting := state.openIds.waiting ++ [call] }

def State.close (state : State) : State :=
  { { state with listening := false }.whenOpened .streamClose with phase := .finished }

/-- The end of a pull: `onRow` closes in its `finally`, the iterator reads the statistics
before. -/
def State.settle (options : Options) (state : State) : State :=
  if options.onRow then state.close else { state.whenOpened .streamInfo with phase := .reading }

def State.emitOpen (options : Options) (state : State) : State :=
  if options.onOpen then { state with opens := state.opens + 1 } else state

def State.pull (state : State) : State := { state.send .streamNext with phase := .pulling }

def State.emitProg (options : Options) (report : Bool) (state : State) : State :=
  if options.onProgress && report then state.send .streamInfo else state

def State.deliver (state : State) : State :=
  { state with rows := state.rows + 1, late := if state.fired then state.late + 1 else state.late }

def start (options : Options) : State :=
  let state : State :=
    { ids := .unasked, waiting := [], listening := options.signal.isSome,
      fired := options.signal.getD false, phase := .idle, calls := [], opens := 0, rows := 0,
      late := 0 }
  if options.onRow then { state.openIds with phase := .opening } else state

def step (options : Options) (state : State) : Label → Option State
  | .next =>
    if options.onRow = false ∧ (state.phase = .idle ∨ state.phase = .body) then
      some { state.openIds with phase := .opening }
    else none
  | .leave =>
    if options.onRow = false ∧ state.phase = .body then some { state with phase := .finished }
    else none
  | .executionId => if options.onRow = false then some state.openIds else none
  | .info => if options.onRow = false then some (state.whenOpened .streamInfo) else none
  | .answered granted =>
    if state.ids = .asked then
      some (if granted then { state with ids := .opened }
        else { state with ids := .failed, waiting := [] })
    else none
  | .perform =>
    match state.ids, state.waiting with
    | .opened, call :: rest => some { state.send call with waiting := rest }
    | _, _ => none
  | .resume throws =>
    if state.phase = .opening then
      match state.ids with
      | .opened =>
        some (if options.onOpen && throws then (state.emitOpen options).settle options
          else (state.emitOpen options).pull)
      | .failed => some (state.settle options)
      | _ => none
    else none
  | .answer reply throws report =>
    -- What waits for the id is sent before the host can answer.
    if state.phase = .pulling ∧ state.waiting = [] then
      match reply with
      | .row =>
        some (if options.onRow then
            if throws then state.deliver.settle options
            else (state.deliver.emitProg options report).pull
          else { state.deliver.emitProg options report with phase := .body })
      | _ => some (state.settle options)
    else none
  | .snapshot => if state.phase = .reading then some state.close else none
  | .fire =>
    if state.fired = false ∧ options.signal.isSome then
      some (if state.listening then { state with fired := true }.whenOpened .streamAbort
        else { state with fired := true })
    else none

def wrapper (options : Options) : System State Label where
  init := start options
  step := step options

/-- A finished consumer has closed its stream once, nothing is pulled after the close, a
fired signal stops the rows, and `onOpen` is called once. -/
structure Closed (options : Options) (state : State) : Prop where
  single : state.calls.count .streamOpen ≤ 1
  closes : state.calls.count .streamClose =
    if state.phase = .finished ∧ state.ids = .opened then 1 else 0
  quiet : state.calls.Pairwise fun earlier later =>
    ¬(earlier = .streamClose ∧ later = .streamNext)
  aborted : state.fired = true → .streamAbort ∈ state.calls ∨ state.late = 0
  announced : options.onOpen = true → state.opens ≤ 1 ∧
    (state.phase = .finished → state.ids = .opened → state.opens = 1)

/-- The loop over the iterator is not left early, no row comes under a signal that had fired
before the call, and the iterator is not pulled again where `onOpen` is given. -/
def Careful (options : Options) (state : State) : Label → Prop
  | .next => options.onOpen = true → state.phase = .idle
  | .leave => False
  | .answer reply _ _ => options.signal = some true → reply ≠ .row
  | _ => True

structure Kept (options : Options) (state : State) : Prop where
  unasked : state.ids = .unasked → state.calls = []
  single : state.calls.count .streamOpen ≤ 1
  closes : state.calls.count .streamClose =
    if state.phase = .finished ∧ state.ids = .opened then 1 else 0
  quiet : state.calls.Pairwise fun earlier later =>
    ¬(earlier = .streamClose ∧ later = .streamNext)
  queued : ∀ call ∈ state.waiting, call = .streamAbort ∨ call = .streamInfo
  running : state.phase = .pulling ∨ state.phase = .body → state.ids = .opened
  settled : state.phase = .reading ∨ state.phase = .finished →
    state.ids = .opened ∨ state.ids = .failed
  listens : options.signal.isSome → state.phase ≠ .finished → state.listening = true
  aborted : state.fired = true → .streamAbort ∈ state.calls ++ state.waiting ∨
    state.ids = .failed ∨ state.phase = .finished ∨ options.signal = some true
  prompt : .streamAbort ∈ state.calls ∨ state.late = 0
  announced : options.onOpen = true → state.opens =
    if state.ids = .opened ∧ state.phase ≠ .idle ∧ state.phase ≠ .opening then 1 else 0

variable {options : Options} {state : State}

theorem Kept.closed (kept : Kept options state) : Closed options state where
  single := kept.single
  closes := kept.closes
  quiet := kept.quiet
  aborted _ := kept.prompt
  announced given := by
    rw [kept.announced given]
    refine ⟨by split <;> omega, fun finished opened => ?_⟩
    rw [if_pos ⟨opened, by simp [finished], by simp [finished]⟩]

theorem Kept.send (kept : Kept options state) (call : HostCall) (asked : state.ids ≠ .unasked)
    (plain : call ≠ .streamOpen ∧ call ≠ .streamClose)
    (early : call = .streamNext → state.phase ≠ .finished) : Kept options (state.send call) := by
  cases kept
  simp only [State.send]
  constructor <;> first | assumption | grind

theorem Kept.openIds (kept : Kept options state) : Kept options state.openIds := by
  cases stands : state.ids with
  | unasked =>
    have calls := kept.unasked stands
    have idle := kept.running
    have settled := kept.settled
    have announced := kept.announced
    have prompt := kept.prompt
    have aborted := kept.aborted
    simp only [State.openIds, State.send, stands, calls] at *
    constructor <;> first | assumption | grind [Kept]
  | asked | opened | failed => simpa only [State.openIds, stands] using kept

theorem openIds_asked : state.openIds.ids ≠ .unasked := by
  cases stands : state.ids <;> simp [State.openIds, stands]

theorem Kept.whenOpened (kept : Kept options state) {call : HostCall}
    (plain : call = .streamAbort ∨ call = .streamInfo) :
    Kept options (state.whenOpened call) := by
  have opened := kept.openIds
  unfold State.whenOpened
  split
  · exact opened.send call openIds_asked (by rcases plain with rfl | rfl <;> simp)
      (by rcases plain with rfl | rfl <;> simp)
  · exact opened
  · cases opened
    constructor <;> first | assumption | grind

theorem Kept.move (kept : Kept options state) (phase : Phase) {opens : Nat}
    (going : state.phase ≠ .finished) (goes : phase ≠ .finished)
    (opened : phase = .pulling ∨ phase = .body → state.ids = .opened)
    (known : phase = .reading → state.ids = .opened ∨ state.ids = .failed)
    (announced : options.onOpen = true → opens =
      if state.ids = .opened ∧ phase ≠ .idle ∧ phase ≠ .opening then 1 else 0) :
    Kept options { state with phase, opens } := by
  cases kept
  constructor <;> first | assumption | grind

theorem Kept.close (kept : Kept options state) (going : state.phase ≠ .finished)
    (known : state.ids = .opened ∨ state.ids = .failed)
    (announced : options.onOpen = true → state.ids = .opened → state.opens = 1) :
    Kept options state.close := by
  cases kept
  rcases known with known | known <;>
    simp only [State.close, State.whenOpened, State.openIds, State.send, known] at * <;>
    constructor <;> first | assumption | grind

theorem whenOpened_ids (known : state.ids = .opened ∨ state.ids = .failed) (call : HostCall) :
    (state.whenOpened call).ids = state.ids ∧ (state.whenOpened call).opens = state.opens ∧
      (state.whenOpened call).phase = state.phase := by
  rcases known with known | known <;>
    simp [State.whenOpened, State.openIds, State.send, known]

section

variable (kept : Kept options state)
include kept

theorem Kept.settle (going : state.phase ≠ .finished)
    (known : state.ids = .opened ∨ state.ids = .failed)
    (announced : options.onOpen = true → state.opens = if state.ids = .opened then 1 else 0) :
    Kept options (state.settle options) := by
  unfold State.settle
  split
  · exact kept.close going known fun given opened => by rw [announced given, if_pos opened]
  · obtain ⟨ids, opens, phase⟩ := whenOpened_ids known .streamInfo
    exact (kept.whenOpened (.inr rfl)).move .reading (phase ▸ going) nofun (by simp)
      (fun _ => ids ▸ known) fun given => by simpa [ids, opens] using announced given

theorem Kept.pull (going : state.phase = .body ∨ state.phase = .pulling) :
    Kept options state.pull := by
  have opened := kept.running going.symm
  have alive : state.phase ≠ .finished := by rcases going with going | going <;> simp [going]
  have sent := kept.send .streamNext (by simp [opened]) ⟨nofun, nofun⟩ fun _ => alive
  refine sent.move .pulling alive nofun (fun _ => opened) nofun fun given => ?_
  rcases going with going | going <;> simpa [State.send, going] using kept.announced given

/-- `onOpen` has been called. -/
theorem Kept.emitOpen (opening : state.phase = .opening) (opened : state.ids = .opened) :
    Kept options { state.emitOpen options with phase := .body } := by
  have announced := kept.announced
  unfold State.emitOpen
  split
  · exact kept.move .body (by simp [opening]) nofun (fun _ => opened) nofun
      fun given => by simp [announced given, opening, opened]
  · exact kept.move .body (by simp [opening]) nofun (fun _ => opened) nofun
      fun given => absurd given ‹_›

theorem Kept.resume (opening : state.phase = .opening) (opened : state.ids = .opened)
    (throws : Bool) :
    Kept options (if options.onOpen && throws then (state.emitOpen options).settle options
      else (state.emitOpen options).pull) := by
  have told := kept.emitOpen opening opened
  have stands : (state.emitOpen options).ids = .opened := by
    unfold State.emitOpen
    split <;> exact opened
  split
  · have same : (state.emitOpen options).settle options =
        { state.emitOpen options with phase := .body }.settle options := by
      simp [State.settle, State.close, State.whenOpened, State.openIds, State.send, stands]
    rw [same]
    exact told.settle nofun (.inl stands) fun given => by simpa [stands] using told.announced given
  · exact told.pull (.inl rfl)

theorem Kept.deliver (pulling : state.phase = .pulling) (empty : state.waiting = [])
    (timely : options.signal ≠ some true) :
    Kept options state.deliver :=
  { kept with
    prompt := by
      by_cases fired : state.fired = true
      · have aborted := kept.aborted fired
        simp only [empty, List.append_nil, kept.running (.inl pulling), pulling, timely,
          reduceCtorEq, or_false] at aborted
        exact .inl aborted
      · simpa [State.deliver, fired] using kept.prompt }

theorem Kept.emitProg (opened : state.ids = .opened) (report : Bool) :
    Kept options (state.emitProg options report) := by
  unfold State.emitProg
  split
  · exact kept.send .streamInfo (by simp [opened]) ⟨nofun, nofun⟩ nofun
  · exact kept

end

theorem emitProg_same (options : Options) (state : State) (report : Bool) :
    (state.emitProg options report).phase = state.phase ∧
    (state.emitProg options report).ids = state.ids ∧
    (state.emitProg options report).opens = state.opens := by
  unfold State.emitProg
  split <;> exact ⟨rfl, rfl, rfl⟩

theorem Kept.answer (kept : Kept options state) (pulling : state.phase = .pulling)
    (empty : state.waiting = []) {reply : Answer} {throws report : Bool}
    (timely : options.signal = some true → reply ≠ .row) {next : State}
    (fired : step options state (.answer reply throws report) = some next) :
    Kept options next := by
  have opened := kept.running (.inl pulling)
  have going : state.phase ≠ .finished := by simp [pulling]
  have announced : options.onOpen = true → state.opens = if state.ids = .opened then 1 else 0 :=
    fun given => by simpa [pulling] using kept.announced given
  simp only [step, pulling, empty, and_self, if_true] at fired
  cases reply with
  | row =>
    have delivered := kept.deliver pulling empty fun before => timely before rfl
    obtain ⟨phase, ids, opens⟩ := emitProg_same options state.deliver report
    have reported := delivered.emitProg opened report
    obtain rfl := Option.some.inj fired
    split_ifs
    · exact delivered.settle going (.inl opened) announced
    · exact reported.pull (.inr (phase.trans pulling))
    · refine reported.move .body (phase ▸ going) nofun (fun _ => ids.trans opened) nofun
        fun given => ?_
      rw [opens, if_pos ⟨ids.trans opened, nofun, nofun⟩]
      exact (announced given).trans (if_pos opened)
  | null | error =>
    obtain rfl := Option.some.inj fired
    exact kept.settle going (.inl opened) announced

theorem Kept.answered (kept : Kept options state) (asked : state.ids = .asked) (granted : Bool) :
    Kept options (if granted then { state with ids := .opened }
      else { state with ids := .failed, waiting := [] }) := by
  have pending : state.phase = .idle ∨ state.phase = .opening := by
    have running := kept.running
    have settled := kept.settled
    cases stands : state.phase <;> simp [stands, asked] at running settled ⊢
  cases kept
  cases granted <;> constructor <;> first | assumption | grind

theorem Kept.perform (kept : Kept options state) (opened : state.ids = .opened) {call : HostCall}
    {rest : List HostCall} (waits : state.waiting = call :: rest) :
    Kept options { state.send call with waiting := rest } := by
  have plain := kept.queued call (waits ▸ List.mem_cons_self)
  have sent := kept.send call (by simp [opened])
    (by rcases plain with rfl | rfl <;> simp) (by rcases plain with rfl | rfl <;> simp)
  exact { sent with
    queued := fun other member => kept.queued other (waits ▸ List.mem_cons_of_mem _ member)
    aborted := fun fired => by simpa [State.send, waits] using kept.aborted fired }

theorem openIds_same (state : State) :
    state.openIds.phase = state.phase ∧ state.openIds.opens = state.opens := by
  cases stands : state.ids <;> simp [State.openIds, State.send, stands]

theorem Kept.next (kept : Kept options state) (stands : state.phase = .idle ∨ state.phase = .body)
    (careful : options.onOpen = true → state.phase = .idle) :
    Kept options { state.openIds with phase := .opening } := by
  obtain ⟨phase, opens⟩ := openIds_same state
  refine kept.openIds.move .opening ?_ nofun nofun nofun fun given => ?_
  · rcases stands with stands | stands <;> simp [phase, stands]
  · simpa [opens, careful given] using kept.announced given

theorem whenOpened_fired : { state with fired := true }.whenOpened .streamAbort =
    { state.whenOpened .streamAbort with fired := true } := by
  cases stands : state.ids <;> simp [State.whenOpened, State.openIds, State.send, stands]

theorem whenOpened_asks :
    .streamAbort ∈
        (state.whenOpened .streamAbort).calls ++ (state.whenOpened .streamAbort).waiting ∨
      (state.whenOpened .streamAbort).ids = .failed := by
  cases stands : state.ids <;> simp [State.whenOpened, State.openIds, State.send, stands]

theorem Kept.fire (kept : Kept options state) (given : options.signal.isSome) :
    Kept options (if state.listening then { state with fired := true }.whenOpened .streamAbort
      else { state with fired := true }) := by
  split
  · rw [whenOpened_fired]
    exact { kept.whenOpened (.inl rfl) with
      aborted := fun _ => whenOpened_asks.imp_right .inl }
  · rename_i deaf
    have finished : state.phase = .finished := by
      by_contra going
      exact deaf (kept.listens given going)
    exact { kept with aborted := fun _ => .inr (.inr (.inl finished)) }

theorem kept_start : Kept options (start options) := by
  have signal : options.signal.getD false = true → options.signal = some true := by
    cases options.signal <;> simp
  have initial : Kept options ⟨.unasked, [], options.signal.isSome, options.signal.getD false,
      .idle, [], 0, 0, 0⟩ :=
    ⟨fun _ => rfl, Nat.zero_le _, rfl, .nil, nofun, nofun, nofun, fun given _ => given,
      fun fired => .inr (.inr (.inr (signal fired))), .inr rfl, fun _ => rfl⟩
  unfold start
  split
  · exact initial.next (.inl rfl) fun _ => rfl
  · exact initial

/-- One careful step keeps the invariant. -/
theorem kept_step : Preserved (wrapper options) (Careful options) (Kept options) := by
  intro state label next kept careful fired
  simp only [wrapper] at fired
  cases label with
  | next =>
    obtain ⟨⟨_, stands⟩, ⟨⟩⟩ := ite_none_right_eq_some.mp fired
    exact kept.next stands careful
  | leave => exact careful.elim
  | executionId =>
    obtain ⟨_, ⟨⟩⟩ := ite_none_right_eq_some.mp fired
    exact kept.openIds
  | info =>
    obtain ⟨_, ⟨⟩⟩ := ite_none_right_eq_some.mp fired
    exact kept.whenOpened (.inr rfl)
  | answered granted =>
    obtain ⟨asked, ⟨⟩⟩ := ite_none_right_eq_some.mp fired
    exact kept.answered asked granted
  | perform =>
    simp only [step] at fired
    split at fired
    · obtain rfl := Option.some.inj fired
      exact kept.perform ‹_› ‹_›
    · cases fired
  | resume throws =>
    obtain ⟨opening, fired⟩ := ite_none_right_eq_some.mp fired
    split at fired
    · obtain rfl := Option.some.inj fired
      exact kept.resume opening ‹_› throws
    · obtain rfl := Option.some.inj fired
      exact kept.settle (by simp [opening]) (.inr ‹_›) fun given => by
        simpa [opening, *] using kept.announced given
    · cases fired
  | answer reply throws report =>
    have ⟨⟨pulling, empty⟩, _⟩ := ite_none_right_eq_some.mp fired
    exact kept.answer pulling empty careful fired
  | snapshot =>
    obtain ⟨reading, ⟨⟩⟩ := ite_none_right_eq_some.mp fired
    exact kept.close (by simp [reading]) (kept.settled (.inl reading)) (fun given opened => by
      rw [kept.announced given, if_pos (by simp [reading, opened])])
  | fire =>
    obtain ⟨⟨_, given⟩, ⟨⟩⟩ := ite_none_right_eq_some.mp fired
    exact kept.fire given

end OnlyJs.Bridge.DbStream.Wrapper
