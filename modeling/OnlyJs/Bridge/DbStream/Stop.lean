import OnlyJs.Bridge.DbStream.Pump

/-!
# Stopping a stream

A stop works only where the pump looks for it. The pump looks once per select,
never while it waits in a send, and a full channel is emptied by receivers
alone. Whether a stopped pump can end is therefore a question of free slots.
-/

namespace OnlyJs.Bridge.DbStream

open Lib.StepSystem Option

universe u

variable {Row : Type u}

def StreamStep.byPump : StreamStep → Bool
  | .wake | .pull | .park | .send => true
  | _ => false

/-- The pump can end by its own steps, with nothing received any more. -/
def CanTerminate (config : StreamConfig Row) (source : List (Message Row))
    (state : StreamState Row) : Prop :=
  ∃ labels final, Path (streamSystem config source) (fun _ label => label.byPump = true)
    state labels final ∧ final.pump = .terminated

/-- A stop that has been asked for takes effect. -/
def StopTakesEffect (config : StreamConfig Row) (source : List (Message Row))
    (state : StreamState Row) : Prop :=
  state.stopped = true → CanTerminate config source state

/-- Messages that the pump sends when it runs to the end of its source. -/
def sendsOf (config : StreamConfig Row) : ByteMeter → List (Message Row) → Nat
  | _, [] => 0
  | _, .error _ :: _ => 1
  | meter, .ok row :: rest =>
    match meter.feed (config.rowBytes row), config.onExceed with
    | (.continue, next), _ => 1 + sendsOf config next rest
    | (.stop, _), .fail => 1
    | (.stop, _), .truncate => 0

def timerSends (config : StreamConfig Row) : Nat :=
  if config.timeoutMs.isSome then 1 else 0

def sendsLeft (config : StreamConfig Row) (state : StreamState Row) : Nat :=
  match state.pump with
  | .terminated => 0
  | .selecting | .checked => sendsOf config state.meter state.source + timerSends config
  | .sending _ .row => 1 + (sendsOf config state.meter state.source + timerSends config)
  | .sending _ .error | .sending _ .timedOut => 1

/-- All that may still be sent fits the channel. -/
def Fits (config : StreamConfig Row) (state : StreamState Row) : Prop :=
  sendsLeft config state + state.buffer.length ≤ dbStreamChannelCap

/-- A stored permit is seen before the pump can wait on a full channel. -/
def PermitReaches (config : StreamConfig Row) (state : StreamState Row) : Prop :=
  state.pump = .terminated ∨ state.pump = .selecting ∨
    state.buffer.length < dbStreamChannelCap ∨
    (state.pump = .checked ∧ sendsOf config state.meter state.source = 0)

def reachesCap (config : StreamConfig Row) (state : StreamState Row) : Bool :=
  match state.buffer, config.maxRows with
  | .ok _ :: _, some cap => cap ≤ state.delivered + 1
  | _, _ => false

/-- The condition on the state in which a stop is asked for first: `close`,
`abort` and `cancel` find the pump where it meets the permit before a full
channel; the row that reaches `max_rows` is received while the pump waits in its
select, or when all that may still be sent fits the channel. -/
def SafeStop (config : StreamConfig Row) (state : StreamState Row) (label : StreamStep) : Prop :=
  state.stopped = false →
    match label with
    | .close | .abort | .cancel => PermitReaches config state
    | .nextReceive =>
      reachesCap config state = true →
        state.pump = .terminated ∨ state.pump = .selecting ∨
          sendsLeft config state + (state.buffer.length - 1) ≤ dbStreamChannelCap
    | _ => True

/-- The invariant of a stopped stream. -/
def Stoppable (config : StreamConfig Row) (state : StreamState Row) : Prop :=
  (state.permit = true ∧ PermitReaches config state) ∨
    (state.waiterNotified = true ∧ state.pump = .selecting) ∨
    state.pump = .terminated ∨ Fits config state

variable {config : StreamConfig Row} {source : List (Message Row)}

variable (state : StreamState Row)

theorem can_terminate_now (ended : state.pump = .terminated) :
    CanTerminate config source state :=
  ⟨[], state, rfl, ended⟩

variable (next : StreamState Row)

theorem can_terminate_step (label : StreamStep) (pump : label.byPump = true)
    (fired : step config state label = some next) (ends : CanTerminate config source next) :
    CanTerminate config source state := by
  obtain ⟨labels, final, path, ended⟩ := ends
  exact ⟨label :: labels, final, ⟨pump, next, fired, path⟩, ended⟩

theorem wake_of_notified (notified : (state.permit || state.waiterNotified) = true) :
    (wake state).pump = .terminated := by
  simp only [wake, notified, if_true]

theorem can_terminate_selecting (waits : state.pump = .selecting)
    (ends : CanTerminate config source (wake state)) : CanTerminate config source state := by
  refine can_terminate_step state (wake state) .wake rfl ?_ ends
  simp only [step, waits]

theorem can_terminate_notified (waits : state.pump = .selecting)
    (notified : (state.permit || state.waiterNotified) = true) :
    CanTerminate config source state :=
  can_terminate_selecting state waits (can_terminate_now _ (wake_of_notified state notified))

theorem can_terminate_parking (passed : state.pump = .checked) (permit : state.permit = true) :
    CanTerminate config source state := by
  refine can_terminate_step state { state with pump := .selecting } .park rfl ?_ ?_
  · simp only [step, passed]
  · exact can_terminate_notified _ rfl (by simp only [permit, Bool.true_or])

variable (message : Message Row) (phase : SendPhase)

theorem can_terminate_sending (sends : state.pump = .sending message phase)
    (room : state.buffer.length < dbStreamChannelCap)
    (ends : CanTerminate config source (send state message phase)) :
    CanTerminate config source state := by
  refine can_terminate_step state (send state message phase) .send rfl ?_ ends
  simp only [step, sends, if_pos room]

theorem can_terminate_last_send (sends : state.pump = .sending message phase) (last : phase ≠ .row)
    (room : state.buffer.length < dbStreamChannelCap) : CanTerminate config source state := by
  refine can_terminate_sending state message phase sends room (can_terminate_now _ ?_)
  cases phase with
  | row => exact absurd rfl last
  | error => rfl
  | timedOut => rfl

theorem can_terminate_row_send (sends : state.pump = .sending message .row)
    (room : state.buffer.length < dbStreamChannelCap)
    (goes : CanTerminate config source
      { state with
        buffer := state.buffer ++ [message], waiterNotified := false, pump := .checked }) :
    CanTerminate config source state := by
  refine can_terminate_sending state message .row sends room ?_
  by_cases permit : state.permit = true
  · refine can_terminate_now _ (wake_of_notified _ ?_)
    simp only [permit, Bool.true_or]
  · have next : send state message .row =
        { state with
          buffer := state.buffer ++ [message], waiterNotified := false, pump := .checked } := by
      simp only [send, wake, permit, Bool.or_false, Bool.false_eq_true, if_false]
    rw [next]
    exact goes

/-- What fits the channel is sent: induction on the rest of the source. -/
theorem can_terminate_checked (passed : state.pump = .checked)
    (fits : sendsOf config state.meter state.source + state.buffer.length ≤ dbStreamChannelCap) :
    CanTerminate config source state := by
  generalize items : state.source = rest at fits
  induction rest generalizing state with
  | nil =>
    refine can_terminate_step state (pull config state) .pull rfl ?_ (can_terminate_now _ ?_)
    · simp only [step, passed]
    · simp only [pull, items]
  | cons item rest ih =>
    refine can_terminate_step state (pull config state) .pull rfl ?_ ?_
    · simp only [step, passed]
    cases item with
    | error e =>
      have room : state.buffer.length < dbStreamChannelCap := by
        simp only [sendsOf] at fits
        omega
      simp only [pull, items]
      exact can_terminate_last_send _ (.error e) .error rfl nofun room
    | ok row =>
      simp only [pull, items]
      simp only [sendsOf] at fits
      cases fed : state.meter.feed (config.rowBytes row) with
      | mk feed meter =>
        rw [fed] at fits
        cases feed with
        | «continue» =>
          simp only at fits ⊢
          refine can_terminate_row_send _ (.ok row) rfl ?_ ?_
          · simp only
            omega
          · refine ih _ rfl rfl ?_
            simp only [List.length_append, List.length_singleton]
            omega
        | stop =>
          cases exceed : config.onExceed with
          | fail =>
            rw [exceed] at fits
            simp only at fits ⊢
            refine can_terminate_last_send _ _ .error rfl nofun ?_
            simp only
            omega
          | truncate =>
            exact can_terminate_now _ rfl

theorem can_terminate_fits (fits : Fits config state) :
    CanTerminate config source state := by
  unfold Fits sendsLeft at fits
  cases phase : state.pump with
  | terminated => exact can_terminate_now state phase
  | selecting =>
    rw [phase] at fits
    refine can_terminate_selecting state phase ?_
    by_cases notified : (state.permit || state.waiterNotified) = true
    · exact can_terminate_now _ (wake_of_notified state notified)
    · have next : wake state = { state with pump := .checked } := by
        simp only [wake, notified, if_false, Bool.false_eq_true]
      rw [next]
      refine can_terminate_checked _ rfl ?_
      simp only at fits ⊢
      omega
  | checked =>
    rw [phase] at fits
    refine can_terminate_checked state phase ?_
    simp only at fits
    omega
  | sending message kind =>
    rw [phase] at fits
    cases kind with
    | row =>
      simp only at fits
      refine can_terminate_row_send state message phase (by omega) ?_
      refine can_terminate_checked _ rfl ?_
      simp only [List.length_append, List.length_singleton]
      omega
    | error =>
      exact can_terminate_last_send state message .error phase nofun (by simp only at fits; omega)
    | timedOut =>
      exact can_terminate_last_send state message .timedOut phase nofun
        (by simp only at fits; omega)

theorem can_terminate_permit (permit : state.permit = true) (reaches : PermitReaches config state) :
    CanTerminate config source state := by
  cases phase : state.pump with
  | terminated => exact can_terminate_now state phase
  | selecting => exact can_terminate_notified state phase (by simp only [permit, Bool.true_or])
  | checked => exact can_terminate_parking state phase permit
  | sending message kind =>
    have room : state.buffer.length < dbStreamChannelCap := by
      unfold PermitReaches at reaches
      rw [phase] at reaches
      rcases reaches with ended | waits | room | ⟨passed, _⟩
      · cases ended
      · cases waits
      · exact room
      · cases passed
    cases kind with
    | row =>
      refine can_terminate_sending state message .row phase room (can_terminate_now _ ?_)
      exact wake_of_notified _ (by simp only [permit, Bool.true_or])
    | error => exact can_terminate_last_send state message .error phase nofun room
    | timedOut => exact can_terminate_last_send state message .timedOut phase nofun room

theorem can_terminate_stoppable (stoppable : Stoppable config state) :
    CanTerminate config source state := by
  rcases stoppable with ⟨permit, reaches⟩ | ⟨notified, waits⟩ | ended | fits
  · exact can_terminate_permit state permit reaches
  · exact can_terminate_notified state waits (by simp only [notified, Bool.or_true])
  · exact can_terminate_now state ended
  · exact can_terminate_fits state fits

theorem blocked_cannot_terminate (sends : state.pump = .sending message phase)
    (full : ¬state.buffer.length < dbStreamChannelCap) : ¬CanTerminate config source state := by
  rintro ⟨labels, final, path, ended⟩
  cases labels with
  | nil =>
    cases path
    rw [sends] at ended
    cases ended
  | cons label rest =>
    obtain ⟨pump, next, fired, _⟩ := path
    have fires : step config state label = some next := fired
    cases label <;> simp [StreamStep.byPump, step, sends, full] at pump fires

theorem stoppable_mono (stoppable : Stoppable config state) (pump : next.pump = state.pump)
    (meter : next.meter = state.meter) (items : next.source = state.source)
    (room : next.buffer.length ≤ state.buffer.length)
    (permit : state.permit = true → next.permit = true)
    (notified : state.waiterNotified = true → next.waiterNotified = true) :
    Stoppable config next := by
  rcases stoppable with ⟨stored, reaches⟩ | ⟨stored, waits⟩ | ended | fits
  · refine .inl ⟨permit stored, ?_⟩
    unfold PermitReaches at reaches ⊢
    rw [pump, meter, items]
    refine reaches.imp_right (Or.imp_right (Or.imp_left fun free => ?_))
    omega
  · exact .inr (.inl ⟨notified stored, pump.trans waits⟩)
  · exact .inr (.inr (.inl (pump.trans ended)))
  · refine .inr (.inr (.inr ?_))
    unfold Fits sendsLeft at fits ⊢
    rw [pump, meter, items]
    omega

theorem stoppable_wake (waits : state.pump = .selecting) (stoppable : Stoppable config state) :
    Stoppable config (wake state) := by
  by_cases notified : (state.permit || state.waiterNotified) = true
  · exact .inr (.inr (.inl (wake_of_notified state notified)))
  · have next : wake state = { state with pump := .checked } := by
      simp only [wake, notified, if_false, Bool.false_eq_true]
    rw [Bool.or_eq_true, not_or] at notified
    rw [next]
    rcases stoppable with ⟨stored, _⟩ | ⟨stored, _⟩ | ended | fits
    · exact absurd stored notified.1
    · exact absurd stored notified.2
    · rw [waits] at ended
      cases ended
    · refine .inr (.inr (.inr ?_))
      unfold Fits sendsLeft at fits ⊢
      rw [waits] at fits
      exact fits

theorem pull_frame (config : StreamConfig Row) (state : StreamState Row)
    (passed : state.pump = .checked) :
    (pull config state).buffer = state.buffer ∧ (pull config state).permit = state.permit ∧
      (pull config state).stopped = state.stopped ∧
      sendsLeft config (pull config state) ≤ sendsLeft config state ∧
      (sendsOf config state.meter state.source = 0 → (pull config state).pump = .terminated) := by
  have before : sendsLeft config state =
      sendsOf config state.meter state.source + timerSends config := by
    simp only [sendsLeft, passed]
  rw [before]
  cases items : state.source with
  | nil => simp [pull, items, sendsLeft]
  | cons item rest =>
    cases item with
    | error e => simp [pull, items, sendsLeft, sendsOf]
    | ok row =>
      cases fed : state.meter.feed (config.rowBytes row) with
      | mk feed meter =>
        cases feed with
        | «continue» =>
          simp only [pull, items, fed, sendsLeft, sendsOf, true_and]
          exact ⟨by omega, by omega⟩
        | stop =>
          cases exceed : config.onExceed with
          | fail => simp [pull, items, fed, exceed, sendsLeft, sendsOf]
          | truncate => simp [pull, items, fed, exceed, sendsLeft]

theorem stoppable_pull (passed : state.pump = .checked) (stoppable : Stoppable config state) :
    Stoppable config (pull config state) := by
  obtain ⟨buffer, permit, _, sends, ends⟩ := pull_frame config state passed
  rcases stoppable with ⟨stored, reaches⟩ | ⟨_, waits⟩ | ended | fits
  · unfold PermitReaches at reaches
    rw [passed] at reaches
    rcases reaches with ended | waits | room | ⟨_, none⟩
    · cases ended
    · cases waits
    · refine .inl ⟨permit.trans stored, .inr (.inr (.inl ?_))⟩
      rw [buffer]
      exact room
    · exact .inr (.inr (.inl (ends none)))
  · rw [passed] at waits
    cases waits
  · rw [passed] at ended
    cases ended
  · refine .inr (.inr (.inr ?_))
    unfold Fits at fits ⊢
    rw [buffer]
    omega

theorem stoppable_send (sends : state.pump = .sending message phase)
    (stoppable : Stoppable config state) : Stoppable config (send state message phase) := by
  cases phase with
  | error | timedOut => exact .inr (.inr (.inl rfl))
  | row =>
    by_cases permit : state.permit = true
    · refine .inr (.inr (.inl (wake_of_notified _ ?_)))
      simp only [permit, Bool.true_or]
    · rcases stoppable with ⟨stored, _⟩ | ⟨_, waits⟩ | ended | fits
      · exact absurd stored permit
      · rw [sends] at waits
        cases waits
      · rw [sends] at ended
        cases ended
      · refine .inr (.inr (.inr ?_))
        have next : send state message .row = { state with
            buffer := state.buffer ++ [message], waiterNotified := false, pump := .checked } := by
          simp only [send, wake, permit, Bool.or_false, Bool.false_eq_true, if_false]
        rw [next]
        unfold Fits sendsLeft at fits ⊢
        rw [sends] at fits
        simp only [List.length_append, List.length_singleton] at fits ⊢
        omega

theorem stoppable_expire (fired : step config state .expire = some next)
    (stoppable : Stoppable config state) :
    Stoppable config next := by
  have full : ∀ message phase, state.pump = .sending message phase →
      ¬state.buffer.length < dbStreamChannelCap → False := by
    intro message phase sends blocked
    rcases stoppable with ⟨_, reaches⟩ | ⟨_, waits⟩ | ended | fits
    · unfold PermitReaches at reaches
      rw [sends] at reaches
      rcases reaches with ended | waits | room | ⟨passed, _⟩
      · cases ended
      · cases waits
      · exact blocked room
      · cases passed
    · rw [sends] at waits
      cases waits
    · rw [sends] at ended
      cases ended
    · unfold Fits sendsLeft at fits
      rw [sends] at fits
      cases phase <;> simp only at fits <;> omega
  simp only [step, ite_none_right_eq_some] at fired
  obtain ⟨timer, fired⟩ := fired
  split at fired
  · rename_i waits
    obtain ⟨notified, fired⟩ := ite_none_left_eq_some.mp fired
    cases fired
    rw [Bool.or_eq_true, not_or] at notified
    rcases stoppable with ⟨stored, _⟩ | ⟨stored, _⟩ | ended | fits
    · exact absurd stored notified.1
    · exact absurd stored notified.2
    · rw [waits] at ended
      cases ended
    · refine .inr (.inr (.inr ?_))
      unfold Fits sendsLeft timerSends at fits
      rw [waits] at fits
      simp only [timer, if_true] at fits
      simp only [Fits, sendsLeft]
      omega
  · rename_i message sends
    obtain ⟨blocked, _⟩ := ite_none_left_eq_some.mp fired
    exact absurd (full _ _ sends blocked) id
  · rename_i message sends
    obtain ⟨blocked, _⟩ := ite_none_left_eq_some.mp fired
    exact absurd (full _ _ sends blocked) id
  · cases fired

theorem received_frame (config : StreamConfig Row) (state : StreamState Row) (message : Message Row)
    (rest : List (Message Row)) (held : state.buffer = message :: rest) :
    (received config state message rest).pump = state.pump ∧
      (received config state message rest).meter = state.meter ∧
      (received config state message rest).source = state.source ∧
      (received config state message rest).buffer = rest ∧
      (received config state message rest).permit = state.permit ∧
      (state.waiterNotified = true →
        (received config state message rest).waiterNotified = true) ∧
      ((received config state message rest).stopped = true → state.stopped = true ∨
        (reachesCap config state = true ∧ (state.pump = .selecting →
          (received config state message rest).waiterNotified = true))) := by
  cases message with
  | error e => exact ⟨rfl, rfl, rfl, rfl, rfl, id, .inl⟩
  | ok row =>
    unfold received
    cases limit : config.maxRows with
    | none => exact ⟨rfl, rfl, rfl, rfl, rfl, id, .inl⟩
    | some cap =>
      by_cases reached : cap ≤ state.delivered + 1
      · have hits : reachesCap config state = true := by
          simp only [reachesCap, held, limit, reached, decide_true]
        simp only [if_pos reached]
        cases phase : state.pump <;> simp [StreamState.notifyWaiters, hits]
      · simp only [if_neg reached]
        exact ⟨trivial, trivial, trivial, trivial, trivial, id, .inl⟩

/-- One step: a stop asked for in a safe state keeps taking effect. -/
theorem stoppable_step (label : StreamStep)
    (invariant : state.stopped = true → Stoppable config state) (safe : SafeStop config state label)
    (fired : step config state label = some next) :
    next.stopped = true → Stoppable config next := by
  intro stopped
  have notified : ∀ state next : StreamState Row, (state.stopped = true → Stoppable config state) →
      (state.stopped = false → PermitReaches config state) → next.permit = true →
      next.pump = state.pump → next.meter = state.meter → next.source = state.source →
      next.buffer = state.buffer → next.waiterNotified = state.waiterNotified →
      Stoppable config next := by
    intro state next invariant safe permit pump meter items buffer waiter
    cases before : state.stopped with
    | true =>
      exact stoppable_mono state next (invariant before) pump meter items
        (buffer ▸ Nat.le_refl _) (fun _ => permit) (fun stored => waiter.trans stored)
    | false =>
      refine .inl ⟨permit, ?_⟩
      have reaches := safe before
      unfold PermitReaches at reaches ⊢
      rw [pump, meter, items, buffer]
      exact reaches
  cases label with
  | wake =>
    simp only [step] at fired
    split at fired
    · rename_i waits
      cases fired
      refine stoppable_wake state waits (invariant ?_)
      unfold wake at stopped
      split at stopped <;> exact stopped
    · cases fired
  | pull =>
    simp only [step] at fired
    split at fired
    · rename_i passed
      cases fired
      rw [(pull_frame config state passed).2.2.1] at stopped
      exact stoppable_pull state passed (invariant stopped)
    · cases fired
  | park =>
    simp only [step] at fired
    split at fired
    · rename_i passed
      cases fired
      rcases invariant stopped with ⟨stored, _⟩ | ⟨_, waits⟩ | ended | fits
      · exact .inl ⟨stored, .inr (.inl rfl)⟩
      · rw [passed] at waits
        cases waits
      · rw [passed] at ended
        cases ended
      · refine .inr (.inr (.inr ?_))
        unfold Fits sendsLeft at fits ⊢
        rw [passed] at fits
        exact fits
    · cases fired
  | send =>
    simp only [step] at fired
    split at fired
    · rename_i message phase sends
      obtain ⟨_, fired⟩ := ite_none_right_eq_some.mp fired
      cases fired
      have before : state.stopped = true := by
        cases phase with
        | row =>
          simp only [send, wake] at stopped
          split at stopped <;> exact stopped
        | error | timedOut => exact stopped
      exact stoppable_send state message phase sends (invariant before)
    · cases fired
  | expire =>
    refine stoppable_expire state next fired (invariant ?_)
    simp only [step, ite_none_right_eq_some] at fired
    obtain ⟨_, fired⟩ := fired
    split at fired
    · obtain ⟨_, fired⟩ := ite_none_left_eq_some.mp fired
      cases fired
      exact stopped
    · obtain ⟨_, fired⟩ := ite_none_left_eq_some.mp fired
      cases fired
      exact stopped
    · obtain ⟨_, fired⟩ := ite_none_left_eq_some.mp fired
      cases fired
      exact stopped
    · cases fired
  | nextStart =>
    simp only [step] at fired
    split at fired
    · cases fired
      exact stoppable_mono state _ (invariant stopped) rfl rfl rfl (Nat.le_refl _) id id
    · cases fired
      exact invariant stopped
  | nextReceive =>
    simp only [step, ite_none_left_eq_some] at fired
    obtain ⟨_, fired⟩ := fired
    split at fired
    · rename_i message rest held
      cases fired
      obtain ⟨pump, meter, items, buffer, permit, waiter, stops⟩ :=
        received_frame config state message rest held
      have shrinks : (received config state message rest).buffer.length ≤
          state.buffer.length := by
        rw [buffer, held]
        exact Nat.le_succ _
      cases before : state.stopped with
      | true =>
        exact stoppable_mono state _ (invariant before) pump meter items shrinks
          (fun stored => permit.trans stored) waiter
      | false =>
        rcases stops stopped with already | ⟨reached, wakes⟩
        · rw [before] at already
          cases already
        · rcases safe before reached with ended | waits | room
          · exact .inr (.inr (.inl (pump.trans ended)))
          · exact .inr (.inl ⟨wakes waits, pump.trans waits⟩)
          · refine .inr (.inr (.inr ?_))
            rw [held, List.length_cons] at room
            unfold Fits
            rw [buffer]
            have same : sendsLeft config (received config state message rest) =
                sendsLeft config state := by
              unfold sendsLeft
              rw [pump, meter, items]
            omega
    · cases fired
      exact stoppable_mono state _ (invariant stopped) rfl rfl rfl (Nat.le_refl _) id id
    · cases fired
  | nextDrop =>
    cases fired
    exact stoppable_mono state _ (invariant stopped) rfl rfl rfl (Nat.le_refl _) id id
  | close | abort | cancel =>
    obtain ⟨_, fired⟩ := ite_none_right_eq_some.mp fired
    cases fired
    exact notified state _ invariant safe rfl rfl rfl rfl rfl rfl
  | sweep =>
    cases fired
    exact stoppable_mono state _ (invariant stopped) rfl rfl rfl (Nat.le_refl _) id id

/-- A stop takes effect in every run in which it is first asked for in a safe state. -/
theorem stream_stop_takes_effect (config : StreamConfig Row) (source : List (Message Row))
    (state : StreamState Row)
    (reached : Reachable (streamSystem config source) (SafeStop config) state) :
    StopTakesEffect config source state := by
  have step_keeps : Preserved (streamSystem config source) (SafeStop config)
      (fun state => state.stopped = true → Stoppable config state) :=
    fun before label next invariant safe fired =>
      stoppable_step before next label invariant safe fired
  intro stopped
  exact can_terminate_stoppable state (invariant_of_step nofun step_keeps reached stopped)

def sampleConfig : StreamConfig Nat where
  rowBytes := fun _ => 1
  onExceed := .fail
  byteLimit := none
  maxRows := none
  timeoutMs := none
  capacityError := "result too large"
  timeoutError := "statement timeout"

theorem stream_stop_takes_effect_waiting :
    CanTerminate sampleConfig [.ok 0] (StreamState.opened sampleConfig [.ok 0]).notifyOne :=
  stream_stop_takes_effect sampleConfig [.ok 0] _
    ⟨[.abort], fun _ => .inr (.inl rfl), _, rfl, rfl⟩ rfl

def waitingRow : Pump Nat → Option Nat
  | .sending (.ok row) .row => some row
  | _ => none

/-- Closing a stream whose pump waits on the full channel leaves it waiting. -/
theorem stream_stop_blocks :
    ¬∀ state, Reachable (streamSystem sampleConfig (List.replicate 66 (.ok 0))) Unrestricted
      state → StopTakesEffect sampleConfig (List.replicate 66 (.ok 0)) state := by
  intro claimed
  have ran : ((streamSystem sampleConfig (List.replicate 66 (.ok 0))).run
      (.opened sampleConfig (List.replicate 66 (.ok 0)))
      (.wake :: (List.replicate 64 [.pull, .send]).flatten ++ [.pull, .close])).map
        (fun state => (state.stopped, state.buffer.length, waitingRow state.pump)) =
          some (true, 64, some 0) := by
    decide +kernel
  obtain ⟨state, ran, view⟩ := map_eq_some_iff.mp ran
  simp only [Prod.mk.injEq] at view
  obtain ⟨stopped, length, sends⟩ := view
  have ends := claimed state ⟨_, path_of_run _ _ _ ran⟩ stopped
  unfold waitingRow at sends
  split at sends
  · rename_i row phase
    exact blocked_cannot_terminate state (.ok row) .row phase (by rw [length]; decide) ends
  · cases sends

/-- The stream, with all that `next` has taken from the channel. -/
def deliverySystem (config : StreamConfig Row) (source : List (Message Row)) :
    System (StreamState Row × List (Message Row)) StreamStep where
  init := (.opened config source, [])
  step state label :=
    (step config state.1 label).map fun next =>
      (next, if label = .nextReceive then state.2 ++ state.1.buffer.take 1 else state.2)

/-- Of what the cursor yields, `flow` was taken or is in the channel and `left` is to come. Rows
are missing only behind an end of the pump, at which it sends one error at most. -/
def Conserved (source flow left : List (Message Row)) : Pump Row → Prop
  | .selecting | .checked => flow ++ left = source
  | .sending message .row => flow ++ message :: left = source
  | .sending message _ => flow <+: source ∧ ∃ e, message = .error e
  | .terminated => flow <+: source ∨ ∃ rows e, flow = rows ++ [.error e] ∧ rows <+: source

variable {log : List (Message Row)}

theorem conserved_wake (conserved : log ++ state.buffer ++ state.source = source) :
    Conserved source (log ++ (wake state).buffer) (wake state).source (wake state).pump := by
  unfold wake
  split
  · exact .inl ⟨_, conserved⟩
  · exact conserved

theorem conserved_pull (conserved : log ++ state.buffer ++ state.source = source) :
    Conserved source (log ++ (pull config state).buffer) (pull config state).source
      (pull config state).pump := by
  have inside : log ++ state.buffer <+: source := ⟨_, conserved⟩
  unfold pull
  split
  · exact .inl inside
  · exact ⟨inside, _, rfl⟩
  · rename_i row rest items
    rw [items] at conserved
    dsimp only
    split
    · exact conserved
    · exact ⟨inside, _, rfl⟩
    · exact .inl inside

theorem conserved_step (label : StreamStep)
    (conserved : Conserved source (log ++ state.buffer) state.source state.pump)
    (fired : step config state label = some next) :
    Conserved source
      ((if label = .nextReceive then log ++ state.buffer.take 1 else log) ++ next.buffer)
      next.source next.pump := by
  cases label with
  | nextStart | nextDrop | close | abort | cancel | sweep =>
    simp only [step] at fired
    all_goals try split at fired
    all_goals cases fired
    all_goals exact conserved
  | wake | pull | park =>
    simp only [step] at fired
    all_goals
      split at fired
      · rename_i pump
        rw [pump] at conserved
        cases fired
        first
        | exact conserved
        | exact conserved_wake state conserved
        | exact conserved_pull state conserved
      · cases fired
  | send =>
    simp only [step] at fired
    split at fired
    · rename_i message phase sends
      rw [sends] at conserved
      obtain ⟨_, fired⟩ := ite_none_right_eq_some.mp fired
      cases fired
      cases phase with
      | row => exact conserved_wake _ (by simpa [Conserved] using conserved)
      | error | timedOut =>
        obtain ⟨inside, e, rfl⟩ := conserved
        exact .inr ⟨_, e, (List.append_assoc ..).symm, inside⟩
    · cases fired
  | expire =>
    obtain ⟨_, fired⟩ := ite_none_right_eq_some.mp fired
    split at fired
    all_goals try cases fired
    all_goals
      rename_i pump
      rw [pump] at conserved
      obtain ⟨_, fired⟩ := ite_none_left_eq_some.mp fired
      cases fired
    · exact ⟨⟨_, conserved⟩, _, rfl⟩
    · exact ⟨⟨_, conserved⟩, _, rfl⟩
    · exact ⟨conserved.1, _, rfl⟩
  | nextReceive =>
    obtain ⟨_, fired⟩ := ite_none_left_eq_some.mp fired
    split at fired
    · rename_i message rest held
      cases fired
      obtain ⟨pump, _, left, buffer, _⟩ := received_frame config state message rest held
      rw [pump, left, buffer, if_pos rfl, held]
      rw [held] at conserved
      simpa using conserved
    · rename_i held _
      cases fired
      rw [if_pos rfl, held, List.take_nil, List.append_nil]
      exact held ▸ conserved
    · cases fired

/-- In every run, what `next` has taken are the rows of the cursor, each once and in order, with
none missing between them and those that wait. -/
theorem rows_conserved (config : StreamConfig Row) (source log : List (Message Row))
    (state : StreamState Row)
    (reached : Reachable (deliverySystem config source) Unrestricted (state, log)) :
    Conserved source (log ++ state.buffer) state.source state.pump := by
  have step_keeps : Preserved (deliverySystem config source) Unrestricted
      (fun state => Conserved source (state.2 ++ state.1.buffer) state.1.source state.1.pump) := by
    intro before label after conserved _ fired
    obtain ⟨next, stepped, rfl⟩ := map_eq_some_iff.mp fired
    exact conserved_step before.1 next label conserved stepped
  have initial : Conserved source ([] ++ []) source (.selecting : Pump Row) := rfl
  exact invariant_of_step initial step_keeps reached

theorem rows_conserved_received : Conserved [.ok 0, .ok 1] [.ok 0] [.ok 1] (.checked : Pump Nat) := by
  have reached : Reachable (deliverySystem sampleConfig [.ok 0, .ok 1]) Unrestricted _ :=
    ⟨[.wake, .pull, .send, .nextStart, .nextReceive], path_of_run _ _ _ rfl⟩
  exact rows_conserved sampleConfig _ _ _ reached

end OnlyJs.Bridge.DbStream
