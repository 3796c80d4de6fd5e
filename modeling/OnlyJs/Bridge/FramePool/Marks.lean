import OnlyJs.Bridge.FramePool.Pool

/-!
# One frame in flight

Every frame in the ready queue and every worker that has pulled one and not yet
completed it accounts for the in-flight mark of its connection, and for each
connection at most one of them does. A frame that waits has such a frame ahead.
-/

namespace OnlyJs.Bridge.FramePool

open List Function

def Phase.carries : Phase → Option Nat
  | .pulled frame => some frame.conn
  | .running frame _ => some frame.conn
  | .ended frame _ => some frame.conn
  | .panicked conn => some conn
  | .dropped conn => some conn
  | _ => none

def Phase.serves : Phase → Option Nat
  | .dropped _ => none
  | phase => phase.carries

def Phase.holds : Phase → Option Frame
  | .pulled frame => some frame
  | .running frame _ => some frame
  | .ended frame _ => some frame
  | .completed frame _ => some frame
  | .answering frame _ => some frame
  | _ => none

def Phase.isPulled : Phase → Option Frame
  | .pulled frame => some frame
  | _ => none

def Phase.began : Phase → Option Frame
  | .pulled _ => none
  | phase => phase.holds

def Phase.unwritten : Phase → Option (Nat × Value)
  | .ended frame (.ok (some state)) => some (frame.conn, state)
  | .completed frame (.ok (some state)) => some (frame.conn, state)
  | _ => none

/-- A phase that has nothing to do with a frame. -/
def Phase.Free (phase : Phase) : Prop :=
  phase.carries = none ∧ phase.holds = none ∧ phase.unwritten = none

namespace Pool

@[simp] theorem place_workers (pool : Pool) (worker other : Nat) (phase : Phase) :
    (pool.place worker phase).workers other =
      if other = worker then phase else pool.workers other := by
  exact update_apply _ _ _ _

/-- The mark of the connection will be cleared, and a waiting frame released. -/
def Served (pool : Pool) (conn : Nat) : Prop :=
  (∃ frame ∈ pool.ready, frame.conn = conn) ∨
    ∃ worker, (pool.workers worker).serves = some conn

end Pool

/-- What the step of a worker does. -/
inductive Moves (pool : Pool) (worker : Nat) : Pool → Prop
  | idle (phase : Phase) (failed : Bool) (before : (pool.workers worker).Free)
      (after : phase.Free) : Moves pool worker ({ pool with failed }.place worker phase)
  | fail (before : (pool.workers worker).Free) :
      Moves pool worker (pool.close.place worker .absent)
  | pull (frame : Frame) (rest : List Frame) (before : pool.workers worker = .pulling)
      (queued : pool.ready = frame :: rest) :
      Moves pool worker ({ pool with ready := rest }.place worker (.pulled frame))
  | start (frame : Frame) (before : pool.workers worker = .pulled frame) :
      Moves pool worker ((pool.observe (.started frame (pool.stateOf frame.conn))).place worker
        (.running frame (pool.stateOf frame.conn)))
  | finish (frame : Frame) (state : Value) (result : Ended)
      (before : pool.workers worker = .running frame state) :
      Moves pool worker ((pool.returned frame result).place worker (.ended frame result))
  | panic (frame : Frame) (state : Value) (before : pool.workers worker = .running frame state) :
      Moves pool worker ((pool.answer [frame] .poolClosed).place worker
        (if frame.conn = 0 then .absent else .panicked frame.conn))
  | complete (frame : Frame) (result : Ended) (before : pool.workers worker = .ended frame result) :
      Moves pool worker ((pool.complete frame.conn).place worker (.completed frame result))
  | write (frame : Frame) (result : Ended)
      (before : pool.workers worker = .completed frame result) :
      Moves pool worker ((pool.writeBack frame.conn result).place worker (.answering frame result))
  | answer (frame : Frame) (result : Ended)
      (before : pool.workers worker = .answering frame result) :
      Moves pool worker ((pool.answer [frame] result.answer).place worker
        (if result.poisons then .absent else .pulling))
  | drop (conn : Nat) (before : pool.workers worker = .panicked conn) :
      Moves pool worker ((pool.dropConn conn).place worker (.dropped conn))
  | unmark (conn : Nat) (before : pool.workers worker = .dropped conn) :
      Moves pool worker ((pool.unmark conn).place worker .absent)

variable {pool : Pool} {worker : Nat}

theorem work_moves {next : Pool} {input : Input} (worked : work pool worker input = some next) :
    Moves pool worker next := by
  have free : ∀ phase, pool.workers worker = phase → phase.Free →
      (pool.workers worker).Free := by
    intro phase stood free
    rwa [stood]
  unfold work at worked
  split at worked
  case h_1 stood =>
    cases worked
    exact .idle .pulling pool.failed (free _ stood ⟨rfl, rfl, rfl⟩) ⟨rfl, rfl, rfl⟩
  case h_2 stood =>
    cases worked
    exact .idle .failing true (free _ stood ⟨rfl, rfl, rfl⟩) ⟨rfl, rfl, rfl⟩
  case h_3 stood =>
    cases worked
    exact .idle .absent pool.failed (free _ stood ⟨rfl, rfl, rfl⟩) ⟨rfl, rfl, rfl⟩
  case h_4 stood =>
    cases worked
    exact .fail (free _ stood ⟨rfl, rfl, rfl⟩)
  case h_5 stood =>
    split at worked
    · rename_i frame rest queued
      cases worked
      exact .pull frame rest stood queued
    · split at worked
      · cases worked
        exact .idle .absent pool.failed (free _ stood ⟨rfl, rfl, rfl⟩) ⟨rfl, rfl, rfl⟩
      · cases worked
  case h_6 stood =>
    cases worked
    exact .start _ stood
  case h_7 stood =>
    cases worked
    exact .finish _ _ _ stood
  case h_8 stood =>
    cases worked
    exact .panic _ _ stood
  case h_9 stood =>
    cases worked
    exact .complete _ _ stood
  case h_10 stood =>
    cases worked
    exact .write _ _ stood
  case h_11 stood =>
    cases worked
    exact .answer _ _ stood
  case h_12 stood =>
    cases worked
    exact .drop _ stood
  case h_13 stood =>
    cases worked
    exact .unmark _ stood
  case h_14 => cases worked

structure Marks (pool : Pool) : Prop where
  ready_marked : ∀ frame ∈ pool.ready, pool.inFlight frame.conn = true
  carried_marked : ∀ worker conn, (pool.workers worker).carries = some conn →
    pool.inFlight conn = true
  ready_alone : pool.ready.Pairwise fun frame other => frame.conn ≠ other.conn
  ready_free : ∀ frame ∈ pool.ready, ∀ worker,
    (pool.workers worker).carries ≠ some frame.conn
  carrier : ∀ worker other conn, (pool.workers worker).carries = some conn →
    (pool.workers other).carries = some conn → worker = other
  served : ∀ frame ∈ pool.waiting, pool.Served frame.conn
  closed_empty : pool.closed = true → pool.ready = [] ∧ pool.waiting = []

theorem marks_initial : Marks .initial where
  ready_marked := fun _ absurd => nomatch absurd
  carried_marked := fun _ _ absurd => nomatch absurd
  ready_alone := .nil
  ready_free := fun _ absurd => nomatch absurd
  carrier := fun _ _ _ absurd => nomatch absurd
  served := fun _ absurd => nomatch absurd
  closed_empty := fun _ => ⟨rfl, rfl⟩

section

variable {next : Pool} (marks : Marks pool) (ready : next.ready = pool.ready)
include marks ready

theorem Marks.congr (waiting : next.waiting = pool.waiting)
    (inFlight : next.inFlight = pool.inFlight) (closed : next.closed = pool.closed)
    (carries : ∀ worker, (next.workers worker).carries = (pool.workers worker).carries)
    (serves : ∀ worker, (next.workers worker).serves = (pool.workers worker).serves) :
    Marks next := by
  refine ⟨?_, ?_, ?_, ?_, ?_, ?_, ?_⟩
  · rw [ready, inFlight]
    exact marks.ready_marked
  · simp only [carries, inFlight]
    exact marks.carried_marked
  · rw [ready]
    exact marks.ready_alone
  · simp only [carries, ready]
    exact marks.ready_free
  · simp only [carries]
    exact marks.carrier
  · simp only [Pool.Served, serves, ready, waiting]
    exact marks.served
  · rw [closed, ready, waiting]
    exact marks.closed_empty

theorem Marks.drop (waiting : ∀ frame ∈ next.waiting, frame ∈ pool.waiting)
    (inFlight : next.inFlight = pool.inFlight) (closed : next.closed = pool.closed)
    (workers : next.workers = pool.workers) : Marks next := by
  refine ⟨?_, ?_, ?_, ?_, ?_, ?_, ?_⟩
  · rw [ready, inFlight]
    exact marks.ready_marked
  · rw [workers, inFlight]
    exact marks.carried_marked
  · rw [ready]
    exact marks.ready_alone
  · rw [workers, ready]
    exact marks.ready_free
  · rw [workers]
    exact marks.carrier
  · intro frame listed
    rw [Pool.Served, workers, ready]
    exact marks.served frame (waiting frame listed)
  · intro shut
    rw [closed] at shut
    obtain ⟨empty, idle⟩ := marks.closed_empty shut
    refine ⟨ready.trans empty, eq_nil_iff_forall_not_mem.mpr ?_⟩
    intro frame listed
    have held := waiting frame listed
    rw [idle] at held
    cases held

end

theorem Marks.place (marks : Marks pool) {phase : Phase}
    (carries : phase.carries = (pool.workers worker).carries)
    (serves : phase.serves = (pool.workers worker).serves) : Marks (pool.place worker phase) := by
  refine marks.congr rfl rfl rfl rfl ?_ ?_
  · intro other
    rw [Pool.place_workers]
    split
    · rename_i same
      rw [same, carries]
    · rfl
  · intro other
    rw [Pool.place_workers]
    split
    · rename_i same
      rw [same, serves]
    · rfl

theorem Marks.close (marks : Marks pool) : Marks pool.close where
  ready_marked := fun _ absurd => nomatch absurd
  carried_marked := marks.carried_marked
  ready_alone := .nil
  ready_free := fun _ absurd => nomatch absurd
  carrier := marks.carrier
  served := fun _ absurd => nomatch absurd
  closed_empty := fun _ => ⟨rfl, rfl⟩

variable {conn : Nat}

theorem serves_carries {phase : Phase} (serves : phase.serves = some conn) :
    phase.carries = some conn := by
  cases phase <;> first | exact serves | cases serves

section

variable (marks : Marks pool)
include marks

theorem Marks.pull {frame : Frame} {rest : List Frame} (before : pool.workers worker = .pulling)
    (queued : pool.ready = frame :: rest) :
    Marks ({ pool with ready := rest }.place worker (.pulled frame)) := by
  have first : frame ∈ pool.ready := by
    rw [queued]
    exact mem_cons_self
  have later : ∀ other ∈ rest, other ∈ pool.ready := by
    intro other listed
    rw [queued]
    exact mem_cons_of_mem _ listed
  have alone := marks.ready_alone
  rw [queued] at alone
  obtain ⟨apart, alone⟩ := pairwise_cons.mp alone
  have carries : ∀ other conn,
      ((({ pool with ready := rest } : Pool).place worker (.pulled frame)).workers other).carries =
        some conn → other = worker ∧ conn = frame.conn ∨
          (pool.workers other).carries = some conn := by
    intro other conn carried
    rw [Pool.place_workers] at carried
    split at carried
    · rename_i same
      exact .inl ⟨same, (Option.some.inj carried).symm⟩
    · exact .inr carried
  refine ⟨?_, ?_, alone, ?_, ?_, ?_, ?_⟩
  · exact fun other listed => marks.ready_marked other (later other listed)
  · intro other conn carried
    rcases carries other conn carried with ⟨_, rfl⟩ | carried
    · exact marks.ready_marked frame first
    · exact marks.carried_marked other conn carried
  · intro other listed holder carried
    rcases carries holder _ carried with ⟨_, same⟩ | carried
    · exact apart other listed same.symm
    · exact marks.ready_free other (later other listed) holder carried
  · intro one two conn first_carries second_carries
    rcases carries one conn first_carries with ⟨rfl, rfl⟩ | first_held
    · rcases carries two _ second_carries with ⟨same, _⟩ | second_held
      · exact same.symm
      · exact absurd second_held (marks.ready_free frame first two)
    · rcases carries two conn second_carries with ⟨rfl, rfl⟩ | second_held
      · exact absurd first_held (marks.ready_free frame first one)
      · exact marks.carrier one two conn first_held second_held
  · intro other listed
    rcases marks.served other listed with ⟨ahead, waits, same⟩ | ⟨holder, serves⟩
    · rw [queued] at waits
      rcases mem_cons.mp waits with rfl | waits
      · refine .inr ⟨worker, ?_⟩
        rw [Pool.place_workers, if_pos rfl, ← same]
        rfl
      · exact .inl ⟨ahead, waits, same⟩
    · refine .inr ⟨holder, ?_⟩
      rw [Pool.place_workers]
      split
      · rename_i same
        rw [same, before] at serves
        cases serves
      · exact serves
  · intro shut
    have empty := (marks.closed_empty shut).1
    rw [queued] at empty
    cases empty

theorem Marks.dropConn (conn : Nat) :
    Marks (pool.dropConn conn) :=
  marks.drop rfl (fun _ listed => mem_of_mem_filter listed) rfl rfl rfl

/-- The panic recovery drops what waits before it gives the mark up. -/
theorem Marks.dropWorker (before : pool.workers worker = .panicked conn) :
    Marks ((pool.dropConn conn).place worker (.dropped conn)) := by
  have dropped := marks.dropConn conn
  have carries : ∀ other,
      (((pool.dropConn conn).place worker (.dropped conn)).workers other).carries =
        (pool.workers other).carries := by
    intro other
    rw [Pool.place_workers]
    split
    · rename_i same
      rw [same, before]
      rfl
    · rfl
  refine ⟨dropped.ready_marked, ?_, dropped.ready_alone, ?_, ?_, ?_, dropped.closed_empty⟩
  · simp only [carries]
    exact marks.carried_marked
  · simp only [carries]
    exact marks.ready_free
  · simp only [carries]
    exact marks.carrier
  · intro frame listed
    rcases dropped.served frame listed with ahead | ⟨holder, serves⟩
    · exact .inl ahead
    · refine .inr ⟨holder, ?_⟩
      rw [Pool.place_workers]
      split
      · rename_i same
        have serves : (pool.workers holder).serves = some frame.conn := serves
        rw [same, before] at serves
        have other : frame.conn ≠ conn := by simpa using (mem_filter.mp listed).2
        exact absurd (Option.some.inj serves).symm other
      · exact serves

/-- A mark that is given up stands for no other frame. -/
theorem Marks.unmark (before : pool.workers worker = .dropped conn) :
    Marks ((pool.unmark conn).place worker .absent) := by
  have carried : (pool.workers worker).carries = some conn := by
    rw [before]
    rfl
  have others : ∀ other other_conn,
      (((pool.unmark conn).place worker .absent).workers other).carries = some other_conn →
        other ≠ worker ∧ (pool.workers other).carries = some other_conn := by
    intro other other_conn carried
    rw [Pool.place_workers] at carried
    split at carried
    · cases carried
    · rename_i differs
      exact ⟨differs, carried⟩
  have kept : ∀ other_conn, other_conn ≠ conn →
      (pool.unmark conn).inFlight other_conn = pool.inFlight other_conn :=
    fun other_conn differs => update_of_ne differs _ _
  refine ⟨?_, ?_, marks.ready_alone, ?_, ?_, ?_, marks.closed_empty⟩
  · intro frame listed
    refine (kept frame.conn ?_).trans (marks.ready_marked frame listed)
    intro same
    exact marks.ready_free frame listed worker (carried.trans (congrArg some same.symm))
  · intro other other_conn held
    obtain ⟨differs, before_held⟩ := others other other_conn held
    refine (kept other_conn ?_).trans (marks.carried_marked other other_conn before_held)
    rintro rfl
    exact differs (marks.carrier other worker other_conn before_held carried)
  · intro frame listed other held
    exact marks.ready_free frame listed other (others other _ held).2
  · intro one two other_conn first second
    exact marks.carrier one two other_conn (others one _ first).2 (others two _ second).2
  · intro frame listed
    rcases marks.served frame listed with ahead | ⟨holder, serves⟩
    · exact .inl ahead
    · refine .inr ⟨holder, ?_⟩
      rw [Pool.place_workers]
      split
      · rename_i same
        rw [same, before] at serves
        cases serves
      · exact serves

theorem Marks.complete_cases (conn : Nat) :
    ((∀ frame ∈ pool.waiting, frame.conn ≠ conn) ∧ pool.complete conn = pool.unmark conn) ∨
      ∃ frame, pool.waiting.find? (fun frame => frame.conn = conn) = some frame ∧
        frame ∈ pool.waiting ∧ frame.conn = conn ∧ pool.complete conn = { pool with
          waiting := pool.waiting.eraseP fun frame => frame.conn = conn
          inFlight := Function.update pool.inFlight conn true
          ready := pool.ready ++ [frame] } := by
  cases found : pool.waiting.find? fun frame => frame.conn = conn with
  | none =>
    refine .inl ⟨fun frame listed same => ?_, ?_⟩
    · exact absurd (decide_eq_true same) (find?_eq_none.mp found frame listed)
    · simp only [Pool.complete, found]
      rfl
  | some frame =>
    have listed := mem_of_find?_eq_some found
    have same : frame.conn = conn := by
      have fits := find?_some found
      simpa using fits
    refine .inr ⟨frame, rfl, listed, same, ?_⟩
    have running : pool.closed = false := by
      rw [Bool.eq_false_iff]
      intro shut
      rw [(marks.closed_empty shut).2] at listed
      cases listed
    simp only [Pool.complete, found, running, if_false, Bool.false_eq_true,
      update_idem]

theorem Marks.complete {frame : Frame} {result : Ended}
    (before : pool.workers worker = .ended frame result) :
    Marks ((pool.complete frame.conn).place worker (.completed frame result)) := by
  have carried : (pool.workers worker).carries = some frame.conn := by
    rw [before]
    rfl
  have workers : ∀ other, ((pool.complete frame.conn).place worker
      (.completed frame result)).workers other =
        if other = worker then .completed frame result else pool.workers other := by
    intro other
    rw [Pool.place_workers]
    rcases marks.complete_cases frame.conn with ⟨_, same⟩ | ⟨_, _, _, _, same⟩
    · rw [same]
      rfl
    · rw [same]
  have others : ∀ other conn, (((pool.complete frame.conn).place worker
      (.completed frame result)).workers other).carries = some conn →
        conn ≠ frame.conn ∧ (pool.workers other).carries = some conn := by
    intro other conn held
    rw [workers] at held
    split at held
    · cases held
    · rename_i differs
      refine ⟨?_, held⟩
      rintro rfl
      exact differs (marks.carrier other worker _ held carried)
  have apart : ∀ other ∈ pool.ready, other.conn ≠ frame.conn := by
    intro other listed same
    exact marks.ready_free other listed worker (carried.trans (congrArg some same.symm))
  have carrier : ∀ one two conn,
      (((pool.complete frame.conn).place worker (.completed frame result)).workers one).carries =
        some conn →
      (((pool.complete frame.conn).place worker (.completed frame result)).workers two).carries =
        some conn → one = two := fun one two conn first second =>
    marks.carrier one two conn (others one conn first).2 (others two conn second).2
  have served : ∀ other ∈ pool.waiting, other.conn ≠ frame.conn →
      (∃ ahead ∈ pool.ready, ahead.conn = other.conn) ∨
        ∃ holder, (((pool.complete frame.conn).place worker
          (.completed frame result)).workers holder).serves = some other.conn := by
    intro other listed differs
    rcases marks.served other listed with ahead | ⟨holder, serves⟩
    · exact .inl ahead
    · refine .inr ⟨holder, ?_⟩
      rw [workers]
      split
      · rename_i same
        rw [same, before] at serves
        exact absurd (Option.some.inj serves).symm differs
      · exact serves
  rcases marks.complete_cases frame.conn with ⟨none, reached⟩ |
    ⟨released, _, waits, same, reached⟩
  · rw [reached] at others carrier served ⊢
    refine ⟨?_, ?_, marks.ready_alone, ?_, carrier, ?_, marks.closed_empty⟩
    · intro other listed
      exact (update_of_ne (apart other listed) _ _).trans
        (marks.ready_marked other listed)
    · intro other conn held
      obtain ⟨differs, held⟩ := others other conn held
      exact (update_of_ne differs _ _).trans (marks.carried_marked other conn held)
    · intro other listed holder held
      exact marks.ready_free other listed holder (others holder _ held).2
    · intro other listed
      exact served other listed (none other listed)
  · rw [reached] at others carrier served ⊢
    refine ⟨?_, ?_, ?_, ?_, carrier, ?_, ?_⟩
    · intro other listed
      rcases mem_append.mp listed with listed | listed
      · exact (update_of_ne (apart other listed) _ _).trans
          (marks.ready_marked other listed)
      · rw [mem_singleton.mp listed, same]
        exact update_self _ _ _
    · intro other conn held
      obtain ⟨differs, held⟩ := others other conn held
      exact (update_of_ne differs _ _).trans (marks.carried_marked other conn held)
    · refine pairwise_append.mpr ⟨marks.ready_alone, pairwise_singleton _ _, ?_⟩
      intro other listed last newest
      rw [mem_singleton.mp newest, same]
      exact apart other listed
    · intro other listed holder held
      rcases mem_append.mp listed with listed | listed
      · exact marks.ready_free other listed holder (others holder _ held).2
      · rw [mem_singleton.mp listed] at held
        exact (others holder _ held).1 same
    · intro other listed
      by_cases own : other.conn = frame.conn
      · exact .inl ⟨released, mem_append_right _ (mem_singleton.mpr rfl),
          same.trans own.symm⟩
      · rcases served other (mem_of_mem_eraseP listed) own with ⟨ahead, listed, own⟩ | served
        · exact .inl ⟨ahead, mem_append_left _ listed, own⟩
        · exact .inr served
    · intro shut
      have idle := (marks.closed_empty shut).2
      rw [idle] at waits
      cases waits

/-- A frame is submitted where the mark of its connection, if set, is served. -/
theorem Marks.submit (served : pool.closed = false → pool.inFlight conn = true → pool.Served conn) :
    Marks (pool.submit conn) := by
  unfold Pool.submit
  dsimp only
  split
  · exact marks.congr rfl rfl rfl rfl (fun _ => rfl) fun _ => rfl
  · rename_i running
    have running : pool.closed = false := by simpa using running
    split
    · rename_i marked
      refine ⟨marks.ready_marked, marks.carried_marked, marks.ready_alone, marks.ready_free,
        marks.carrier, ?_, ?_⟩
      · intro other listed
        rcases mem_append.mp listed with listed | listed
        · exact marks.served other listed
        · rw [mem_singleton.mp listed]
          exact served running marked
      · intro shut
        rw [running] at shut
        cases shut
    · rename_i unmarked
      have apart : ∀ other, pool.inFlight other = true → other ≠ conn := by
        rintro other marked rfl
        exact unmarked marked
      refine ⟨?_, ?_, ?_, ?_, marks.carrier, ?_, ?_⟩
      · intro other listed
        rcases mem_append.mp listed with listed | listed
        · have marked := marks.ready_marked other listed
          exact (update_of_ne (apart _ marked) _ _).trans marked
        · rw [mem_singleton.mp listed]
          exact update_self _ _ _
      · intro other held carried
        have marked := marks.carried_marked other held carried
        exact (update_of_ne (apart _ marked) _ _).trans marked
      · refine pairwise_append.mpr ⟨marks.ready_alone, pairwise_singleton _ _, ?_⟩
        intro other listed last newest
        rw [mem_singleton.mp newest]
        exact apart _ (marks.ready_marked other listed)
      · intro other listed holder carried
        rcases mem_append.mp listed with listed | listed
        · exact marks.ready_free other listed holder carried
        · rw [mem_singleton.mp listed] at carried
          exact unmarked (marks.carried_marked holder conn carried)
      · intro other listed
        rcases marks.served other listed with ⟨ahead, listed, own⟩ | served
        · exact .inl ⟨ahead, mem_append_left _ listed, own⟩
        · exact .inr served
      · intro shut
        rw [running] at shut
        cases shut

end

end OnlyJs.Bridge.FramePool
