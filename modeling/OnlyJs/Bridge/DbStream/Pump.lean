import OnlyJs.Lib.StepSystem

/-!
# The pump behind `db.stream`

A detached task pulls rows from the backend cursor and sends them into a bounded
channel; the consumer receives with `next`. The receiver of the channel lives in
the shared state that the pump holds too, so a send never fails, it only waits.

One step is one poll of the pump up to its next await, or one operation of the
consumer. A poll looks at the abort notification first and at the cursor second;
in between other threads may act, which is the phase `checked`. The statement
timer runs only while the pump's future is pending.
-/

namespace OnlyJs.Bridge.DbStream

open Lib.StepSystem

universe u

def dbStreamChannelCap : Nat := 64

inductive OnExceed where
  | fail
  | truncate
deriving DecidableEq

inductive Feed where
  | continue
  | stop
deriving DecidableEq

structure ByteMeter where
  limit : Option Nat
  counted : Nat
  exceeded : Bool
deriving DecidableEq

def ByteMeter.new (limit : Option Nat) : ByteMeter where
  limit := limit
  counted := 0
  exceeded := false

def ByteMeter.feed (meter : ByteMeter) (bytes : Nat) : Feed × ByteMeter :=
  let counted := meter.counted + bytes
  if meter.exceeded then (.stop, { meter with counted })
  else
    match meter.limit with
    | none => (.continue, { meter with counted })
    | some limit =>
      if limit < counted then (.stop, { meter with counted, exceeded := true })
      else (.continue, { meter with counted })

abbrev Message (Row : Type u) := Except String Row

inductive SendPhase where
  | row
  | error
  | timedOut
deriving DecidableEq

inductive Pump (Row : Type u) where
  | selecting
  | checked
  | sending (message : Message Row) (phase : SendPhase)
  | terminated

structure StreamConfig (Row : Type u) where
  rowBytes : Row → Nat
  onExceed : OnExceed
  byteLimit : Option Nat
  maxRows : Option Nat
  timeoutMs : Option Nat
  capacityError : String
  timeoutError : String

/-- `source` is what the cursor still yields. `permit` is the permit that
`notify_one` stores, `waiterNotified` a notification of the current select by
`notify_waiters`. `stopped` records that a stop has been asked for. -/
structure StreamState (Row : Type u) where
  source : List (Message Row)
  meter : ByteMeter
  pump : Pump Row
  buffer : List (Message Row)
  permit : Bool
  waiterNotified : Bool
  listed : Bool
  registered : Bool
  done : Bool
  cancelled : Bool
  truncated : Bool
  delivered : Nat
  resultBytes : Nat
  receivers : Nat
  stopped : Bool

inductive StreamStep where
  | wake
  | pull
  | park
  | send
  | expire
  | nextStart
  | nextReceive
  | nextDrop
  | close
  | abort
  | cancel
  | sweep
deriving DecidableEq

variable {Row : Type u}

def StreamState.opened (config : StreamConfig Row) (source : List (Message Row)) :
    StreamState Row where
  source := source
  meter := .new config.byteLimit
  pump := .selecting
  buffer := []
  permit := false
  waiterNotified := false
  listed := true
  registered := true
  done := false
  cancelled := false
  truncated := false
  delivered := 0
  resultBytes := 0
  receivers := 0
  stopped := false

def StreamState.notifyOne (state : StreamState Row) : StreamState Row :=
  { state with permit := true, stopped := true }

/-- `notify_waiters` stores no permit: it reaches the pump in its select only. -/
def StreamState.notifyWaiters (state : StreamState Row) : StreamState Row :=
  match state.pump with
  | .selecting | .checked => { state with waiterNotified := true, stopped := true }
  | _ => { state with stopped := true }

def wake (state : StreamState Row) : StreamState Row :=
  if state.permit || state.waiterNotified then
    { state with pump := .terminated, permit := false, waiterNotified := false }
  else { state with pump := .checked }

def pull (config : StreamConfig Row) (state : StreamState Row) : StreamState Row :=
  match state.source with
  | [] => { state with pump := .terminated, waiterNotified := false }
  | .error e :: rest =>
    { state with source := rest, pump := .sending (.error e) .error, waiterNotified := false }
  | .ok row :: rest =>
    let (feed, meter) := state.meter.feed (config.rowBytes row)
    let fed := { state with
      source := rest
      meter := meter
      resultBytes := meter.counted
      waiterNotified := false }
    match feed, config.onExceed with
    | .continue, _ => { fed with pump := .sending (.ok row) .row }
    | .stop, .fail => { fed with pump := .sending (.error config.capacityError) .error }
    | .stop, .truncate => { fed with pump := .terminated, truncated := true }

def send (state : StreamState Row) (message : Message Row) (phase : SendPhase) :
    StreamState Row :=
  let sent := { state with buffer := state.buffer ++ [message] }
  match phase with
  | .row => wake { sent with waiterNotified := false }
  | .error | .timedOut => { sent with pump := .terminated }

inductive NextReply where
  | notFound
  | null
  | cancelled
  | receiving
deriving DecidableEq

/-- The checks of `op_db_stream_next` before it waits for the channel. -/
def streamNext (state : StreamState Row) : NextReply :=
  if !state.listed then .notFound
  else if state.done then .null
  else if state.cancelled then .cancelled
  else .receiving

def received (config : StreamConfig Row) (state : StreamState Row) (message : Message Row)
    (rest : List (Message Row)) : StreamState Row :=
  let taken := { state with buffer := rest, receivers := state.receivers - 1 }
  match message with
  | .error _ => taken
  | .ok _ =>
    let counted := { taken with delivered := state.delivered + 1 }
    match config.maxRows with
    | none => counted
    | some cap =>
      if cap ≤ state.delivered + 1 then { counted with done := true }.notifyWaiters
      else counted

def step (config : StreamConfig Row) (state : StreamState Row) :
    StreamStep → Option (StreamState Row)
  | .wake =>
    match state.pump with
    | .selecting => some (wake state)
    | _ => none
  | .pull =>
    match state.pump with
    | .checked => some (pull config state)
    | _ => none
  | .park =>
    match state.pump with
    | .checked => some { state with pump := .selecting }
    | _ => none
  | .send =>
    match state.pump with
    | .sending message phase =>
      if state.buffer.length < dbStreamChannelCap then some (send state message phase)
      else none
    | _ => none
  | .expire =>
    let expired := { state with
      pump := .sending (.error config.timeoutError) .timedOut
      waiterNotified := false }
    if config.timeoutMs.isSome then
      match state.pump with
      | .selecting => if state.permit || state.waiterNotified then none else some expired
      | .sending _ .row | .sending _ .error =>
        if state.buffer.length < dbStreamChannelCap then none else some expired
      | _ => none
    else none
  | .nextStart =>
    match streamNext state with
    | .receiving => some { state with receivers := state.receivers + 1 }
    | _ => some state
  | .nextReceive =>
    if state.receivers = 0 then none
    else
      match state.buffer, state.pump with
      | message :: rest, _ => some (received config state message rest)
      | [], .terminated => some { state with receivers := state.receivers - 1 }
      | [], _ => none
  | .nextDrop => some { state with receivers := state.receivers - 1 }
  | .close =>
    if state.listed then some { state.notifyOne with listed := false, registered := false }
    else none
  | .abort => if state.listed then some state.notifyOne else none
  | .cancel => if state.registered then some { state.notifyOne with cancelled := true } else none
  | .sweep => some { state with registered := false }

def streamSystem (config : StreamConfig Row) (source : List (Message Row)) :
    System (StreamState Row) StreamStep where
  init := .opened config source
  step := step config

end OnlyJs.Bridge.DbStream
