import Mathlib.Data.List.Nodup
import Mathlib.Data.List.Perm.Basic
import OnlyJs.Bridge.PoolCall.Call

/-!
# Cancels that are heard

A cancel is heard by a call that looks at its flag later or listens already. Between the two it
is lost: a query has no more than a moment there, an exec all the time that it waits for its
connection. A direct call that is dropped at its deadline gives a connection back in the middle
of a statement.
-/

namespace OnlyJs.Bridge.PoolCall

open Lib.StepSystem List Option

section Property

structure Sound (mode : Mode) (call : Call) : Prop where
  /-- No statement is executed that was handed to the backend behind a completed cancel. -/
  unexecuted : call.late = false
  /-- A call that waits for the backend has a notification to hear once a cancel is complete. -/
  heard : ∀ conn noted, call.stage = .suspended conn noted → call.signal.fired = true →
    call.signal.generation ≠ noted
  /-- A connection that was cut short is not handed out. -/
  unrecycled : call.pool.recycled = false ∧ ∀ conn ∈ call.pool.cut, conn ∉ call.pool.idle
  /-- The entry is settled once, as the call ends. -/
  settled : call.entry.settles = (if call.stage = .finished then 1 else 0) ∧
    call.entry.done = decide (call.stage = .finished)
  /-- The request that waits has a notification to hear once the call has ended. -/
  woken : mode = .spawned → call.stage = .finished →
    ∀ noted, call.entry.waiter = .listening noted → call.signal.generation ≠ noted

def Stage.deaf (kind : Kind) : Stage → Bool
  | .checked _ => true
  | .acquiring | .acquired _ => kind = .exec
  | _ => false

/-- No cancel and no deadline raises the flag of a deaf call; no direct call is dropped in the
middle of its statement; and a statement is not handed to the backend for the first time when a
cancel is complete, but the notification is polled before. -/
def Careful (kind : Kind) (mode : Mode) (call : Call) : Label → Prop
  | .setFlag => call.stage.deaf kind = false
  | .timeout =>
    match mode with
    | .direct => ∀ conn noted, call.stage ≠ .suspended conn noted
    | .spawned => call.stage.deaf kind = false
  | .pollBackend _ => call.submitted = true ∨ call.signal.fired = false
  | _ => True

end Property

section Connections

/-- Every connection is in one place at most, and none was handed out that was cut short. -/
structure Pool.Whole (pool : Pool) (held : List Nat) : Prop where
  unrecycled : pool.recycled = false
  single : ∀ conn, pool.idle.count conn + pool.lent.count conn + pool.cut.count conn +
    held.count conn ≤ if conn < pool.nextConn then 1 else 0

variable {pool next : Pool} {held : List Nat} {conn : Nat}

theorem count_erase {list : List Nat} {index : Nat} (found : list[index]? = some conn)
    (other : Nat) : (list.eraseIdx index).count other + [conn].count other = list.count other := by
  obtain ⟨bound, read⟩ := List.getElem?_eq_some_iff.mp found
  have perm := (getElem_cons_eraseIdx_perm bound).count_eq other
  rw [read] at perm
  rw [← perm, Nat.add_comm, ← count_append]
  rfl

theorem Pool.Whole.handOut (whole : pool.Whole held) {choice : Option Nat}
    (taken : pool.handOut choice = some (conn, next)) : next.Whole (conn :: held) := by
  cases choice with
  | none =>
    cases taken
    refine ⟨whole.unrecycled, fun other => ?_⟩
    have single := whole.single other
    rw [count_cons]
    by_cases same : pool.nextConn = other
    · simp [same] at single ⊢
      omega
    · simp only [beq_iff_eq, same, if_false]
      split at single <;> split <;> omega
  | some index =>
    obtain ⟨_, found, same⟩ := map_eq_some_iff.mp taken
    cases same
    have erased := count_erase found
    constructor
    · have uncut : conn ∉ pool.cut := by
        intro member
        have single := whole.single conn
        have here := erased conn
        have there := count_pos_iff.mpr member
        rw [count_singleton_self] at here
        split at single <;> omega
      rw [whole.unrecycled]
      simpa using uncut
    · intro other
      have single := whole.single other
      have here := erased other
      rw [← singleton_append, count_append]
      dsimp only
      omega

theorem Pool.Whole.giveBack (whole : pool.Whole [conn]) : (pool.giveBack conn).Whole [] := by
  refine ⟨whole.unrecycled, fun other => ?_⟩
  have single := whole.single other
  unfold Pool.giveBack
  dsimp only
  rw [count_append, count_nil]
  omega

theorem Pool.Whole.close (whole : pool.Whole [conn]) : (pool.close conn).Whole [] := by
  refine ⟨whole.unrecycled, fun other => ?_⟩
  have single := whole.single other
  unfold Pool.close
  dsimp only
  rw [count_append, count_nil]
  omega

theorem Pool.Whole.lend (whole : pool.Whole held) {choice : Option Nat}
    (taken : pool.lend choice = some next) : next.Whole held := by
  obtain ⟨⟨conn, between⟩, handed, rfl⟩ := map_eq_some_iff.mp taken
  have out := whole.handOut handed
  refine ⟨out.unrecycled, fun other => ?_⟩
  have single := out.single other
  rw [← singleton_append, count_append] at single
  dsimp only
  rw [count_append]
  omega

theorem Pool.Whole.return_ (whole : pool.Whole held) {index : Nat}
    (returned : pool.return_ index = some next) : next.Whole held := by
  obtain ⟨conn, found, rfl⟩ := map_eq_some_iff.mp returned
  refine ⟨whole.unrecycled, fun other => ?_⟩
  have single := whole.single other
  have erased := count_erase found other
  dsimp only
  rw [count_append]
  omega

end Connections

section Invariant

def Stage.noted : Stage → Option Nat
  | .selecting _ noted _ _ | .suspended _ noted => some noted
  | _ => none

def Stage.held : Stage → List Nat
  | .acquired conn | .checked conn | .selecting conn _ _ _ | .suspended conn _ => [conn]
  | _ => []

/-- A deaf call has its flag down, and whoever listens hears what is complete. -/
structure Kept (kind : Kind) (mode : Mode) (call : Call) : Prop where
  fired : call.signal.fired = true → call.signal.flag = true
  firing : call.signal.firing = true → call.signal.flag = true
  deaf : call.stage.deaf kind = true → call.signal.flag = false
  noted : ∀ noted, call.stage.noted = some noted →
    noted ≤ call.signal.generation ∧
      (call.signal.fired = true → noted < call.signal.generation)
  early : call.late = false
  whole : call.pool.Whole call.stage.held
  settles : call.entry.settles = if call.stage = .finished then 1 else 0
  done : call.entry.done = decide (call.stage = .finished)
  waiter : ∀ noted, call.entry.waiter = .listening noted →
    noted ≤ call.signal.generation ∧
      (mode = .spawned → call.stage = .finished → noted < call.signal.generation)

variable {kind : Kind} {mode : Mode} {call next : Call} {conn : Nat}

theorem Kept.sound (kept : Kept kind mode call) : Sound mode call where
  unexecuted := kept.early
  heard := by
    intro conn noted stage fired
    have listens : call.stage.noted = some noted := by rw [stage]; rfl
    exact Nat.ne_of_gt ((kept.noted noted listens).2 fired)
  unrecycled := by
    refine ⟨kept.whole.unrecycled, fun conn cut idle => ?_⟩
    have single := kept.whole.single conn
    have one := count_pos_iff.mpr cut
    have other := count_pos_iff.mpr idle
    split at single <;> omega
  settled := ⟨kept.settles, kept.done⟩
  woken := fun spawned ended noted listening =>
    Nat.ne_of_gt ((kept.waiter noted listening).2 spawned ended)

theorem kept_initial : Kept kind mode Call.initial where
  fired := nofun
  firing := nofun
  deaf := nofun
  noted := nofun
  early := rfl
  whole := ⟨rfl, fun _ => Nat.zero_le _⟩
  settles := rfl
  done := rfl
  waiter := by
    intro noted listening
    cases listening
    exact ⟨Nat.le_refl 0, nofun⟩

section

variable (kept : Kept kind mode call)
include kept

theorem Kept.turn (running : call.stage ≠ .finished) {stage : Stage} {pool : Pool}
    {submitted late : Bool} (runs : stage ≠ .finished) (early : late = false)
    (whole : pool.Whole stage.held) (deaf : stage.deaf kind = true → call.signal.flag = false)
    (noted : ∀ noted, stage.noted = some noted →
      call.stage.noted = some noted ∨ noted = call.signal.generation ∧ call.signal.flag = false) :
    Kept kind mode ⟨stage, submitted, late, call.signal, call.entry, pool⟩ where
  fired := kept.fired
  firing := kept.firing
  deaf := deaf
  noted := by
    intro number listens
    rcases noted number listens with before | ⟨rfl, down⟩
    · exact kept.noted number before
    · refine ⟨Nat.le_refl _, fun fired => ?_⟩
      rw [kept.fired fired] at down
      cases down
  early := early
  whole := whole
  settles := by
    rw [if_neg runs, kept.settles, if_neg running]
  done := by
    rw [kept.done, decide_eq_false running, decide_eq_false runs]
  waiter := by
    intro number listening
    exact ⟨(kept.waiter number listening).1, fun _ ended => absurd ended runs⟩

theorem Kept.settle (running : call.stage ≠ .finished) {pool : Pool} {submitted late : Bool}
    (early : late = false) (whole : pool.Whole []) (outcome : Outcome) :
    Kept kind mode
      (Call.settle mode ⟨call.stage, submitted, late, call.signal, call.entry, pool⟩ outcome) := by
  have settles : call.entry.settles + 1 = 1 := by rw [kept.settles, if_neg running]
  cases mode with
  | direct =>
    refine ⟨kept.fired, kept.firing, nofun, nofun, early, whole, settles, rfl, ?_⟩
    intro number listening
    exact ⟨(kept.waiter number listening).1, nofun⟩
  | spawned =>
    refine ⟨kept.fired, kept.firing, nofun, nofun, early, whole, settles, rfl, ?_⟩
    intro number listening
    have before := (kept.waiter number listening).1
    exact ⟨Nat.le_succ_of_le before, fun _ _ => Nat.lt_succ_of_le before⟩

theorem Kept.signal {signal : Signal} {waiter : Waiter}
    (grows : call.signal.generation ≤ signal.generation)
    (raised : signal.flag = call.signal.flag ∨ signal.flag = true ∧ call.stage.deaf kind = false)
    (flagged : signal.fired = true ∨ signal.firing = true → signal.flag = true)
    (fired : signal.fired = true → call.signal.fired = true ∨
      call.signal.generation < signal.generation)
    (waits : ∀ noted, waiter = .listening noted → call.entry.waiter = .listening noted) :
    Kept kind mode { call with signal, entry := { call.entry with waiter } } where
  fired := fun complete => flagged (.inl complete)
  firing := fun under => flagged (.inr under)
  deaf := by
    intro deaf
    rcases raised with same | ⟨_, listens⟩
    · exact same.trans (kept.deaf deaf)
    · rw [show call.stage.deaf kind = true from deaf] at listens
      cases listens
  noted := by
    intro number listens
    obtain ⟨before, heard⟩ := kept.noted number listens
    refine ⟨Nat.le_trans before grows, fun complete => ?_⟩
    rcases fired complete with old | new
    · exact Nat.lt_of_lt_of_le (heard old) grows
    · exact Nat.lt_of_le_of_lt before new
  early := kept.early
  whole := kept.whole
  settles := kept.settles
  done := kept.done
  waiter := by
    intro number listening
    obtain ⟨before, woken⟩ := kept.waiter number (waits number listening)
    exact ⟨Nat.le_trans before grows, fun spawned ended =>
      Nat.lt_of_lt_of_le (woken spawned ended) grows⟩

theorem Kept.submit (careful : call.submitted = true ∨ call.signal.fired = false) :
    Kept kind mode call.submit := by
  refine ⟨kept.fired, kept.firing, kept.deaf, kept.noted, ?_, kept.whole, kept.settles,
    kept.done, kept.waiter⟩
  change (call.late || (call.signal.fired && !call.submitted)) = false
  rw [kept.early]
  rcases careful with submitted | unfired
  · rw [submitted, Bool.not_true, Bool.and_false]
    rfl
  · rw [unfired]
    rfl

section

variable (held : call.stage.held = [conn])
include held

theorem Kept.holds :
    call.pool.Whole [conn] := held ▸ kept.whole

theorem Kept.finish (running : call.stage ≠ .finished) (outcome : Outcome) :
    Kept kind mode (call.finish mode conn outcome) :=
  kept.settle running kept.early (kept.holds held).giveBack outcome

theorem Kept.discard (running : call.stage ≠ .finished) :
    Kept kind mode (call.discard mode conn) :=
  kept.settle running kept.early (kept.holds held).close .cancelled

end

theorem Kept.acquired (query : kind = .query) (held : call.stage.held = [conn])
    (running : call.stage ≠ .finished) :
    Kept kind mode { call with stage := .acquired conn } := by
  apply kept.turn running
  · nofun
  · exact kept.early
  · exact kept.holds held
  · intro deaf
    rw [query] at deaf
    cases deaf
  · nofun

theorem Kept.arrive {noted : Nat} {backend notified : Bool} {arrival : Arrival}
    (stage : call.stage = .selecting conn noted backend notified)
    (arrived : call.arrive kind mode conn noted notified arrival = some next) :
    Kept kind mode next := by
  have held : call.stage.held = [conn] := by rw [stage]; rfl
  have running : call.stage ≠ .finished := by rw [stage]; nofun
  cases arrival with
  | pending =>
    cases Option.some.inj arrived
    apply kept.turn running
    · cases notified <;> nofun
    · exact kept.early
    · cases notified <;> exact kept.holds held
    · cases notified <;> nofun
    · intro number listens
      left
      rw [stage]
      cases notified <;> exact listens
  | row =>
    cases kind with
    | query =>
      cases Option.some.inj arrived
      exact kept.acquired rfl held running
    | exec => cases arrived
  | ended =>
    cases kind with
    | query =>
      cases Option.some.inj arrived
      exact kept.finish held running .ok
    | exec =>
      cases Option.some.inj arrived
      split
      · exact kept.discard held running
      · exact kept.finish held running .ok
  | stopped =>
    cases kind with
    | query =>
      cases Option.some.inj arrived
      exact kept.finish held running .ok
    | exec => cases arrived
  | failed =>
    cases Option.some.inj arrived
    exact kept.finish held running .failed

section

variable (held : call.stage.held = [conn]) (running : call.stage ≠ .finished)
include held running

theorem Kept.hear :
    Kept kind mode (call.hear kind mode conn) := by
  cases kind with
  | query =>
    unfold Call.hear
    dsimp only
    split
    · exact kept.discard held running
    · exact kept.acquired rfl held running
  | exec => exact kept.discard held running

theorem Kept.listen (deaf : call.stage.deaf kind = true) :
    Kept kind mode (call.listen conn) := by
  apply kept.turn running
  · nofun
  · exact kept.early
  · exact kept.holds held
  · nofun
  · intro noted listens
    cases listens
    exact .inr ⟨rfl, kept.deaf deaf⟩

end

theorem Kept.proceed (stage : call.stage = .acquired conn) :
    Kept kind mode (call.proceed kind mode conn) := by
  have held : call.stage.held = [conn] := by rw [stage]; rfl
  have running : call.stage ≠ .finished := by rw [stage]; nofun
  cases kind with
  | query =>
    unfold Call.proceed
    dsimp only
    split
    · exact kept.discard held running
    · rename_i down
      apply kept.turn running
      · nofun
      · exact kept.early
      · exact kept.holds held
      · exact fun _ => Bool.eq_false_iff.mpr down
      · nofun
  | exec =>
    apply kept.listen held running
    rw [stage]
    rfl

theorem Kept.expire (careful : Careful kind mode call .timeout)
    (expired : call.expire mode = some next) : Kept kind mode next := by
  unfold Call.expire at expired
  split at expired
  · rename_i stage
    cases Option.some.inj expired
    refine kept.settle ?_ kept.early ?_ .failed
    · rw [stage]
      nofun
    · have whole := kept.whole
      rw [stage] at whole
      exact whole
  · rename_i conn noted stage
    exact absurd stage (careful conn noted)
  · cases expired
  · split at expired
    · obtain ⟨_, same⟩ := ite_none_right_eq_some.mp expired
      cases same
      apply kept.signal
      · exact Nat.le_succ _
      · exact .inr ⟨rfl, careful⟩
      · exact fun _ => rfl
      · exact fun _ => .inr (Nat.lt_succ_self _)
      · nofun
    · cases expired

theorem Kept.pollWaiter (polled : call.step kind mode .pollWaiter = some next) :
    Kept kind mode next := by
  unfold Call.step at polled
  dsimp only at polled
  split at polled
  · obtain ⟨_, same⟩ := ite_none_right_eq_some.mp polled
    cases same
    refine ⟨kept.fired, kept.firing, kept.deaf, kept.noted, kept.early, kept.whole,
      kept.settles, kept.done, ?_⟩
    intro noted listening
    split at listening
    · cases listening
    · rename_i open_
      cases listening
      refine ⟨Nat.le_refl _, fun _ ended => ?_⟩
      rw [kept.done, decide_eq_true ended] at open_
      exact absurd rfl open_
  · cases polled

theorem Kept.pool {pool : Pool} (whole : pool.Whole call.stage.held) :
    Kept kind mode { call with pool } :=
  ⟨kept.fired, kept.firing, kept.deaf, kept.noted, kept.early, whole, kept.settles, kept.done,
    kept.waiter⟩

end

theorem kept_step : Preserved (system kind mode) (Careful kind mode) (Kept kind mode) := by
  intro call label next kept careful stepped
  have stepped : call.step kind mode label = some next := stepped
  cases label with
  | refuse =>
    obtain ⟨stage, same⟩ := ite_none_right_eq_some.mp stepped
    cases same
    have whole := kept.whole
    rw [stage] at whole
    exact kept.settle (by rw [stage]; nofun) kept.early whole .failed
  | begin_ =>
    obtain ⟨stage, same⟩ := ite_none_right_eq_some.mp stepped
    cases same
    have whole := kept.whole
    have running : call.stage ≠ .finished := by rw [stage]; nofun
    rw [stage] at whole
    split
    · exact kept.settle running kept.early whole .cancelled
    · rename_i down
      apply kept.turn running
      · nofun
      · exact kept.early
      · exact whole
      · exact fun _ => Bool.eq_false_iff.mpr down
      · nofun
  | acquire choice =>
    obtain ⟨stage, taken⟩ := ite_none_right_eq_some.mp stepped
    obtain ⟨pair, handed, rfl⟩ := map_eq_some_iff.mp taken
    have whole := kept.whole
    rw [stage] at whole
    apply kept.turn
    · rw [stage]
      nofun
    · nofun
    · exact kept.early
    · exact whole.handOut handed
    · intro deaf
      apply kept.deaf
      rw [stage]
      exact deaf
    · nofun
  | acquireFails =>
    obtain ⟨stage, same⟩ := ite_none_right_eq_some.mp stepped
    cases same
    have whole := kept.whole
    rw [stage] at whole
    exact kept.settle (by rw [stage]; nofun) kept.early whole .failed
  | proceed =>
    unfold Call.step at stepped
    dsimp only at stepped
    split at stepped
    · rename_i conn stage
      cases Option.some.inj stepped
      exact kept.proceed stage
    · cases stepped
  | listen =>
    unfold Call.step at stepped
    dsimp only at stepped
    split at stepped
    · rename_i conn stage
      cases Option.some.inj stepped
      apply kept.listen <;> rw [stage] <;> first | rfl | nofun
    · cases stepped
  | pollBackend arrival =>
    unfold Call.step at stepped
    dsimp only at stepped
    split at stepped
    · rename_i conn noted notified stage
      exact (kept.submit careful).arrive stage stepped
    · cases stepped
  | pollNotified =>
    unfold Call.step at stepped
    dsimp only at stepped
    split at stepped
    · rename_i conn noted backend stage
      have held : call.stage.held = [conn] := by rw [stage]; rfl
      have running : call.stage ≠ .finished := by rw [stage]; nofun
      split at stepped
      · cases Option.some.inj stepped
        exact kept.hear held running
      · cases Option.some.inj stepped
        apply kept.turn running
        · cases backend <;> nofun
        · exact kept.early
        · cases backend <;> exact kept.holds held
        · cases backend <;> nofun
        · intro number listens
          left
          rw [stage]
          cases backend <;> exact listens
    · cases stepped
  | wake =>
    unfold Call.step at stepped
    dsimp only at stepped
    split at stepped
    · rename_i conn noted stage
      cases Option.some.inj stepped
      have whole := kept.whole
      rw [stage] at whole
      apply kept.turn
      · rw [stage]
        nofun
      · nofun
      · exact kept.early
      · exact whole
      · nofun
      · intro number listens
        left
        rw [stage]
        exact listens
    · cases stepped
  | timeout => exact kept.expire careful stepped
  | setFlag =>
    obtain ⟨_, same⟩ := ite_none_right_eq_some.mp stepped
    cases same
    apply kept.signal
    · exact Nat.le_refl _
    · exact .inr ⟨rfl, careful⟩
    · exact fun _ => rfl
    · exact .inl
    · exact fun _ listening => listening
  | notify =>
    obtain ⟨firing, same⟩ := ite_none_right_eq_some.mp stepped
    cases same
    apply kept.signal
    · exact Nat.le_succ _
    · exact .inl rfl
    · exact fun _ => kept.firing firing
    · exact fun _ => .inr (Nat.lt_succ_self _)
    · exact fun _ listening => listening
  | pollWaiter => exact kept.pollWaiter stepped
  | remove =>
    obtain ⟨_, same⟩ := ite_none_right_eq_some.mp stepped
    cases same
    exact ⟨kept.fired, kept.firing, kept.deaf, kept.noted, kept.early, kept.whole,
      kept.settles, kept.done, kept.waiter⟩
  | lend choice =>
    obtain ⟨pool, lent, rfl⟩ := map_eq_some_iff.mp stepped
    exact kept.pool (kept.whole.lend lent)
  | return_ index =>
    obtain ⟨pool, returned, rfl⟩ := map_eq_some_iff.mp stepped
    exact kept.pool (kept.whole.return_ returned)

end Invariant

section Runs

end Runs

end OnlyJs.Bridge.PoolCall
