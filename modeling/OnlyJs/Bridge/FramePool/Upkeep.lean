import OnlyJs.Bridge.FramePool.Frames
import OnlyJs.Bridge.FramePool.Route

/-!
# Marks that are given up

Every in-flight mark is that of a queued frame or of a worker that will give it up, as
long as no frame is queued when the pool is closed and no preload fails. What the steps of
a worker answer is read off beside it.
-/

namespace OnlyJs.Bridge.FramePool

open Lib List Option Function

/-- The mark of the connection will be given up. -/
def Pool.Carried (pool : Pool) (conn : Nat) : Prop :=
  (∃ frame ∈ pool.ready, frame.conn = conn) ∨
    ∃ worker, (pool.workers worker).carries = some conn

def Phase.healthy : Phase → Bool
  | .failing => false
  | _ => true

structure Sound (pool : Pool) : Prop where
  marks : Marks pool
  carried : ∀ conn, pool.inFlight conn = true → pool.Carried conn
  proper : ∀ conn, pool.inFlight conn = true → conn ≠ 0
  unfailed : pool.failed = false
  healthy : ∀ worker, (pool.workers worker).healthy = true

theorem sound_initial : Sound .initial :=
  ⟨marks_initial, nofun, nofun, rfl, fun _ => rfl⟩

variable {pool next : Pool} {worker : Nat}

theorem Sound.congr (sound : Sound pool) (ready : next.ready = pool.ready)
    (waiting : next.waiting = pool.waiting) (inFlight : next.inFlight = pool.inFlight)
    (closed : next.closed = pool.closed) (failed : next.failed = pool.failed)
    (carries : ∀ worker, (next.workers worker).carries = (pool.workers worker).carries)
    (serves : ∀ worker, (next.workers worker).serves = (pool.workers worker).serves)
    (healthy : ∀ worker, (next.workers worker).healthy = true) : Sound next := by
  refine ⟨sound.marks.congr ready waiting inFlight closed carries serves, ?_, ?_, ?_, healthy⟩
  · intro conn marked
    simp only [Pool.Carried, ready, carries]
    rw [inFlight] at marked
    exact sound.carried conn marked
  · rw [inFlight]
    exact sound.proper
  · exact failed.trans sound.unfailed

variable {phase : Phase}

theorem healthy_place (healthy : ∀ other, (pool.workers other).healthy = true)
    (fit : phase.healthy = true) (other : Nat) :
    ((pool.place worker phase).workers other).healthy = true := by
  rw [Pool.place_workers]
  split
  · exact fit
  · exact healthy other

theorem Sound.place (sound : Sound pool) (ready : next.ready = pool.ready)
    (waiting : next.waiting = pool.waiting) (inFlight : next.inFlight = pool.inFlight)
    (closed : next.closed = pool.closed) (failed : next.failed = pool.failed)
    (workers : next.workers = pool.workers)
    (carries : phase.carries = (pool.workers worker).carries)
    (serves : phase.serves = (pool.workers worker).serves) (fit : phase.healthy = true) :
    Sound (next.place worker phase) := by
  have same : Sound next := sound.congr ready waiting inFlight closed failed
    (fun other => by rw [workers]) (fun other => by rw [workers])
    (fun other => by rw [workers]; exact sound.healthy other)
  refine same.congr rfl rfl rfl rfl rfl ?_ ?_ (healthy_place same.healthy fit)
  · intro other
    rw [Pool.place_workers]
    split
    · rename_i own
      rw [own, workers, carries]
    · rfl
  · intro other
    rw [Pool.place_workers]
    split
    · rename_i own
      rw [own, workers, serves]
    · rfl

variable {frame : Frame}

theorem Sound.pull (sound : Sound pool) {rest : List Frame} (stood : pool.workers worker = .pulling)
    (queued : pool.ready = frame :: rest) :
    Sound ({ pool with ready := rest }.place worker (.pulled frame)) := by
  refine ⟨sound.marks.pull stood queued, ?_, sound.proper, sound.unfailed,
    healthy_place sound.healthy rfl⟩
  intro conn marked
  rcases sound.carried conn marked with ⟨other, listed, same⟩ | ⟨holder, carries⟩
  · rw [queued] at listed
    rcases mem_cons.mp listed with rfl | later
    · refine .inr ⟨worker, ?_⟩
      rw [Pool.place_workers, if_pos rfl, ← same]
      rfl
    · exact .inl ⟨other, later, same⟩
  · refine .inr ⟨holder, ?_⟩
    rw [Pool.place_workers]
    split
    · rename_i own
      rw [own, stood] at carries
      cases carries
    · exact carries

theorem Sound.complete (sound : Sound pool) {result : Ended}
    (stood : pool.workers worker = .ended frame result) :
    Sound ((pool.complete frame.conn).place worker (.completed frame result)) := by
  have marks := sound.marks.complete stood
  have carries : ∀ other conn, conn ≠ frame.conn → (pool.workers other).carries = some conn →
      other ≠ worker := by
    rintro other conn differs held rfl
    rw [stood] at held
    exact differs (Option.some.inj held).symm
  rcases sound.marks.complete_cases frame.conn with ⟨none, reached⟩ |
    ⟨released, -, waits, same, reached⟩
  · rw [reached] at marks ⊢
    have kept : ∀ conn, (pool.unmark frame.conn).inFlight conn = true →
        conn ≠ frame.conn ∧ pool.inFlight conn = true := by
      intro conn marked
      by_cases own : conn = frame.conn
      · rw [own] at marked
        have cleared : false = true := (update_self _ _ _).symm.trans marked
        cases cleared
      · exact ⟨own, (update_of_ne own _ _).symm.trans marked⟩
    refine ⟨marks, ?_, fun conn marked => sound.proper conn (kept conn marked).2, sound.unfailed,
      healthy_place sound.healthy rfl⟩
    intro conn marked
    obtain ⟨differs, marked⟩ := kept conn marked
    rcases sound.carried conn marked with ready | ⟨holder, held⟩
    · exact .inl ready
    · refine .inr ⟨holder, ?_⟩
      rw [Pool.place_workers, if_neg (carries holder conn differs held)]
      exact held
  · rw [reached] at marks ⊢
    refine ⟨marks, ?_, ?_, sound.unfailed, healthy_place sound.healthy rfl⟩
    · intro conn marked
      by_cases own : conn = frame.conn
      · refine .inl ⟨released, mem_append_right _ (mem_singleton.mpr rfl), ?_⟩
        exact same.trans own.symm
      · have marked : pool.inFlight conn = true := (update_of_ne own _ _).symm.trans marked
        rcases sound.carried conn marked with ⟨other, listed, fits⟩ | ⟨holder, held⟩
        · exact .inl ⟨other, mem_append_left _ listed, fits⟩
        · refine .inr ⟨holder, ?_⟩
          rw [Pool.place_workers, if_neg (carries holder conn own held)]
          exact held
    · intro conn marked
      by_cases own : conn = frame.conn
      · rw [own]
        refine sound.proper frame.conn (sound.marks.carried_marked worker frame.conn ?_)
        rw [stood]
        rfl
      · exact sound.proper conn ((update_of_ne own _ _).symm.trans marked)

variable {conn : Nat}

theorem Sound.dropWorker (sound : Sound pool) (stood : pool.workers worker = .panicked conn) :
    Sound ((pool.dropConn conn).place worker (.dropped conn)) := by
  refine ⟨sound.marks.dropWorker stood, ?_, sound.proper, sound.unfailed,
    healthy_place sound.healthy rfl⟩
  intro other marked
  rcases sound.carried other marked with ready | ⟨holder, held⟩
  · exact .inl ready
  · refine .inr ⟨holder, ?_⟩
    rw [Pool.place_workers]
    split
    · rename_i own
      rw [own, stood] at held
      exact held
    · exact held

theorem Sound.unmark (sound : Sound pool) (stood : pool.workers worker = .dropped conn) :
    Sound ((pool.unmark conn).place worker .absent) := by
  have kept : ∀ other, (pool.unmark conn).inFlight other = true →
      other ≠ conn ∧ pool.inFlight other = true := by
    intro other marked
    by_cases own : other = conn
    · rw [own] at marked
      have cleared : false = true := (update_self _ _ _).symm.trans marked
      cases cleared
    · exact ⟨own, (update_of_ne own _ _).symm.trans marked⟩
  refine ⟨sound.marks.unmark stood, ?_,
    fun other marked => sound.proper other (kept other marked).2, sound.unfailed,
    healthy_place sound.healthy rfl⟩
  intro other marked
  obtain ⟨differs, marked⟩ := kept other marked
  rcases sound.carried other marked with ready | ⟨holder, held⟩
  · exact .inl ready
  · refine .inr ⟨holder, ?_⟩
    rw [Pool.place_workers]
    split
    · rename_i own
      rw [own, stood] at held
      exact absurd (Option.some.inj held).symm differs
    · exact held

variable {input : Input}

theorem work_sound (sound : Sound pool) (loads : input ≠ .fail)
    (worked : work pool worker input = some next) : Sound next := by
  have healthy := sound.healthy worker
  unfold work at worked
  split at worked
  case h_1 stood =>
    cases worked
    exact sound.place rfl rfl rfl rfl rfl rfl (by rw [stood]; rfl) (by rw [stood]; rfl) rfl
  case h_2 => exact absurd rfl loads
  case h_3 stood =>
    cases worked
    exact sound.place rfl rfl rfl rfl rfl rfl (by rw [stood]; rfl) (by rw [stood]; rfl) rfl
  case h_4 stood =>
    rw [stood] at healthy
    cases healthy
  case h_5 stood =>
    split at worked
    · rename_i queued
      cases worked
      exact sound.pull stood queued
    · split at worked <;> cases worked
      exact sound.place rfl rfl rfl rfl rfl rfl (by rw [stood]; rfl) (by rw [stood]; rfl) rfl
  case h_6 stood =>
    cases worked
    exact sound.place rfl rfl rfl rfl rfl rfl (by rw [stood]; rfl) (by rw [stood]; rfl) rfl
  case h_7 frame _ result stood =>
    cases worked
    refine sound.place ?_ ?_ ?_ ?_ ?_ ?_ (by rw [stood]; rfl) (by rw [stood]; rfl) rfl
    all_goals
      cases result with
      | ok state => cases state <;> rfl
      | _ => rfl
  case h_8 frame _ stood =>
    cases worked
    have carries : (pool.workers worker).carries = some frame.conn := by
      rw [stood]
      rfl
    rw [if_neg (sound.proper _ (sound.marks.carried_marked worker _ carries))]
    exact sound.place rfl rfl rfl rfl rfl rfl (by rw [stood]; rfl) (by rw [stood]; rfl) rfl
  case h_9 stood =>
    cases worked
    exact sound.complete stood
  case h_10 frame result stood =>
    cases worked
    refine sound.place ?_ ?_ ?_ ?_ ?_ ?_ (by rw [stood]; rfl) (by rw [stood]; rfl) rfl
    all_goals
      unfold Pool.writeBack
      split
      · split <;> rfl
      · rfl
  case h_11 frame result stood =>
    cases worked
    split <;>
      exact sound.place rfl rfl rfl rfl rfl rfl (by rw [stood]; rfl) (by rw [stood]; rfl) rfl
  case h_12 stood =>
    cases worked
    exact sound.dropWorker stood
  case h_13 stood =>
    cases worked
    exact sound.unmark stood
  case h_14 => cases worked

/-- No frame is fired between the two halves of the recovery of its connection, none is
queued when the pool is closed, and no preload fails. -/
def Fair (state : State) : Label → Prop
  | .fire conn => ∀ worker, state.pool.workers worker ≠ .dropped conn
  | .retireClose => state.pool.ready = []
  | .work _ input => input ≠ .fail
  | _ => True

theorem carries_cases (carries : phase.carries = some conn) :
    phase.serves = some conn ∨ phase = .dropped conn := by
  cases phase with
  | dropped other =>
    cases carries
    exact .inr rfl
  | _ => exact .inl carries

theorem Sound.submit (sound : Sound pool) (proper : conn ≠ 0)
    (settled : ∀ worker, pool.workers worker ≠ .dropped conn) : Sound (pool.submit conn) := by
  have marks : Marks (pool.submit conn) := by
    refine sound.marks.submit fun _ marked => ?_
    rcases sound.carried conn marked with ready | ⟨holder, carries⟩
    · exact .inl ready
    · rcases carries_cases carries with serves | dropped
      · exact .inr ⟨holder, serves⟩
      · exact absurd dropped (settled holder)
  unfold Pool.submit at marks ⊢
  dsimp only at marks ⊢
  split
  · exact sound.congr rfl rfl rfl rfl rfl (fun _ => rfl) (fun _ => rfl) sound.healthy
  · rename_i running
    rw [if_neg running] at marks
    split
    · rename_i marked
      rw [if_pos marked] at marks
      exact ⟨marks, sound.carried, sound.proper, sound.unfailed, sound.healthy⟩
    · rename_i unmarked
      rw [if_neg unmarked] at marks
      refine ⟨marks, ?_, ?_, sound.unfailed, sound.healthy⟩
      · intro other marked
        by_cases own : other = conn
        · exact .inl ⟨_, mem_append_right _ (mem_singleton.mpr rfl), own.symm⟩
        · rcases sound.carried other ((update_of_ne own _ _).symm.trans marked) with
            ⟨frame, listed, same⟩ | carried
          · exact .inl ⟨frame, mem_append_left _ listed, same⟩
          · exact .inr carried
      · intro other marked
        by_cases own : other = conn
        · rw [own]
          exact proper
        · exact sound.proper other ((update_of_ne own _ _).symm.trans marked)

theorem Sound.close (sound : Sound pool) (empty : pool.ready = []) : Sound pool.close := by
  refine ⟨sound.marks.close, ?_, sound.proper, sound.unfailed, sound.healthy⟩
  intro conn marked
  rcases sound.carried conn marked with ⟨frame, listed, -⟩ | carried
  · rw [empty] at listed
    cases listed
  · exact .inr carried

theorem handed_proper {state : State} (sound : Sound state.pool)
    (handed : state.handed conn = true) :
    conn ≠ 0 := by
  rintro rfl
  rw [State.handed, sound.unfailed] at handed
  cases handed

theorem step_sound {state after : State} {label : Label} (sound : Sound state.pool)
    (fair : Fair state label) (stepped : step state label = some after) : Sound after.pool := by
  cases label with
  | spawn worker =>
    rw [step] at stepped
    split at stepped
    · rename_i stood
      cases stepped
      exact sound.place rfl rfl rfl rfl rfl rfl (by rw [stood]; rfl) (by rw [stood]; rfl) rfl
    · cases stepped
  | work worker input =>
    obtain ⟨pool, worked, rfl⟩ := map_eq_some_iff.mp stepped
    exact work_sound sound fair worked
  | attach =>
    obtain ⟨-, same⟩ := ite_none_left_eq_some.mp stepped
    cases same
    exact sound
  | attachOpen =>
    obtain ⟨-, same⟩ := ite_none_left_eq_some.mp stepped
    cases same
    refine ⟨?_, sound.carried, sound.proper, sound.unfailed, sound.healthy⟩
    obtain ⟨ready, carried, alone, free, carrier, served, _⟩ := sound.marks
    exact ⟨ready, carried, alone, free, carrier, served, fun closed => by cases closed⟩
  | attachInsert =>
    obtain ⟨-, same⟩ := ite_none_left_eq_some.mp stepped
    cases same
    exact sound.congr rfl rfl rfl rfl rfl (fun _ => rfl) (fun _ => rfl) sound.healthy
  | fire conn =>
    obtain ⟨handed, same⟩ := ite_none_right_eq_some.mp stepped
    cases same
    exact sound.submit (handed_proper sound handed) fair
  | detach conn =>
    obtain ⟨-, same⟩ := ite_none_right_eq_some.mp stepped
    cases same
    exact sound.congr rfl rfl rfl rfl rfl (fun _ => rfl) (fun _ => rfl) sound.healthy
  | detachDrop conn =>
    obtain ⟨-, same⟩ := ite_none_right_eq_some.mp stepped
    cases same
    exact ⟨sound.marks.dropConn conn, sound.carried, sound.proper, sound.unfailed, sound.healthy⟩
  | detachCheck =>
    obtain ⟨-, same⟩ := ite_none_left_eq_some.mp stepped
    cases same
    exact sound
  | retireWake =>
    obtain ⟨-, same⟩ := ite_none_right_eq_some.mp stepped
    cases same
    exact sound
  | retireClose =>
    obtain ⟨-, same⟩ := ite_none_right_eq_some.mp stepped
    cases same
    exact sound.close fair

/-- The frame is queued, waits, is held by a worker, or has been answered. -/
def Pool.Known (pool : Pool) (frame : Frame) : Prop :=
  frame ∈ pool.ready ∨ frame ∈ pool.waiting ∨
    (∃ worker, (pool.workers worker).holds = some frame) ∨
      ∃ answer, .answered frame answer ∈ pool.history

theorem mem_answer {frames : List Frame} {answer given : Answer}
    (answered : .answered frame given ∈ (pool.answer frames answer).history) :
    (frame ∈ frames ∧ given = answer) ∨ .answered frame given ∈ pool.history := by
  rcases mem_append.mp answered with new | old
  · obtain ⟨other, listed, same⟩ := mem_map.mp new
    cases same
    exact .inl ⟨listed, rfl⟩
  · exact .inr old

theorem known_place (known : (next.place worker phase).Known frame)
    (ready : ∀ other ∈ next.ready, pool.Known other)
    (waiting : ∀ other ∈ next.waiting, pool.Known other) (workers : next.workers = pool.workers)
    (answered : ∀ other answer, .answered other answer ∈ next.history → pool.Known other)
    (holds : ∀ other, phase.holds = some other → pool.Known other) : pool.Known frame := by
  rcases known with listed | waits | ⟨holder, held⟩ | ⟨answer, given⟩
  · exact ready frame listed
  · exact waiting frame waits
  · rw [Pool.place_workers] at held
    split at held
    · exact holds frame held
    · rw [workers] at held
      exact .inr (.inr (.inl ⟨holder, held⟩))
  · exact answered frame answer given

theorem work_known (sound : Sound pool) (worked : work pool worker input = some next)
    (known : next.Known frame) :
    pool.Known frame := by
  have queued : ∀ other ∈ pool.ready, pool.Known other := fun other listed => .inl listed
  have waits : ∀ other ∈ pool.waiting, pool.Known other := fun other listed => .inr (.inl listed)
  have answers : ∀ other answer, .answered other answer ∈ pool.history → pool.Known other :=
    fun other answer given => .inr (.inr (.inr ⟨answer, given⟩))
  have held : ∀ {phase : Phase} {holder : Nat}, pool.workers holder = phase →
      ∀ other, phase.holds = some other → pool.Known other := by
    rintro phase holder stood other holds
    exact .inr (.inr (.inl ⟨holder, stood ▸ holds⟩))
  cases work_moves worked with
  | idle phase failed before after =>
    refine known_place known queued waits rfl answers ?_
    rw [after.2.1]
    exact nofun
  | fail before =>
    refine known_place known (fun _ listed => nomatch listed) (fun _ listed => nomatch listed)
      rfl ?_ (fun _ holds => nomatch holds)
    intro other answer given
    rcases mem_answer given with ⟨listed, -⟩ | old
    · rcases mem_append.mp listed with ready | waiting
      · exact queued other ready
      · exact waits other waiting
    · exact answers other answer old
  | pull first rest before same =>
    refine known_place known (fun other listed => queued other ?_) waits rfl answers ?_
    · rw [same]
      exact mem_cons_of_mem first listed
    · intro other holds
      cases holds
      refine queued first ?_
      rw [same]
      exact mem_cons_self
  | start first before =>
    refine known_place known queued waits rfl (fun other answer given => ?_)
      fun other holds => held before other holds
    exact answers other answer (by simpa [Pool.observe] using given)
  | finish first state result before =>
    refine known_place known ?_ ?_ ?_ ?_ fun other holds => held before other holds
    all_goals
      cases result with
      | ok returned =>
        cases returned
        · first | exact queued | exact waits | rfl | exact answers
        · first
          | exact queued
          | exact waits
          | rfl
          | exact fun other answer given =>
            answers other answer (by simpa [Pool.returned, Pool.observe] using given)
      | _ => first | exact queued | exact waits | rfl | exact answers
  | panic first state before =>
    refine known_place known queued waits rfl (fun other answer given => ?_) ?_
    · rcases mem_answer given with ⟨listed, -⟩ | old
      · rw [mem_singleton.mp listed]
        exact held before first rfl
      · exact answers other answer old
    · split <;> nofun
  | complete first result before =>
    rcases sound.marks.complete_cases first.conn with ⟨-, reached⟩ |
      ⟨released, -, listed, -, reached⟩
    · rw [reached] at known
      exact known_place known queued waits rfl answers fun other holds => held before other holds
    · rw [reached] at known
      refine known_place known ?_
        (fun other later => waits other (mem_of_mem_eraseP later)) rfl answers
        fun other holds => held before other holds
      intro other later
      rcases mem_append.mp later with ready | last
      · exact queued other ready
      · rw [mem_singleton.mp last]
        exact waits released listed
  | write first result before =>
    have kept : ∃ sessions, pool.writeBack first.conn result = { pool with sessions } := by
      unfold Pool.writeBack
      split
      · split
        · exact ⟨_, rfl⟩
        · exact ⟨pool.sessions, rfl⟩
      · exact ⟨pool.sessions, rfl⟩
    obtain ⟨sessions, same⟩ := kept
    rw [same] at known
    exact known_place known queued waits rfl answers fun other holds => held before other holds
  | answer first result before =>
    refine known_place known queued waits rfl (fun other answer given => ?_) ?_
    · rcases mem_answer given with ⟨listed, -⟩ | old
      · rw [mem_singleton.mp listed]
        exact held before first rfl
      · exact answers other answer old
    · split <;> nofun
  | drop conn before =>
    refine known_place known queued
      (fun other listed => waits other (mem_of_mem_filter listed)) rfl
      (fun other answer given => ?_) fun _ holds => nomatch holds
    rcases mem_answer given with ⟨listed, -⟩ | old
    · exact waits other (mem_of_mem_filter listed)
    · exact answers other answer old
  | unmark conn before =>
    exact known_place known queued waits rfl answers fun _ holds => nomatch holds

/-- A worker refuses a frame only by a panic over it. -/
theorem work_refuses (sound : Sound pool) (loads : input ≠ .fail)
    (worked : work pool worker input = some next)
    (answered : .answered frame .poolClosed ∈ next.history) :
    .answered frame .poolClosed ∈ pool.history ∨
      (∃ state, pool.workers worker = .running frame state) ∧ input = .panic := by
  have healthy := sound.healthy worker
  unfold work at worked
  split at worked
  case h_2 => exact absurd rfl loads
  case h_4 stood =>
    rw [stood] at healthy
    cases healthy
  case h_5 =>
    split at worked
    · cases worked
      exact .inl answered
    · split at worked <;> cases worked
      exact .inl answered
  case h_6 =>
    cases worked
    exact .inl (by simpa [Pool.observe, Pool.place] using answered)
  case h_7 frame _ result stood =>
    cases worked
    refine .inl ?_
    cases result with
    | ok state =>
      cases state with
      | none => exact answered
      | some state => simpa [Pool.returned, Pool.observe, Pool.place] using answered
    | _ => exact answered
  case h_8 held state stood =>
    cases worked
    rcases mem_answer answered with ⟨listed, -⟩ | old
    · rw [mem_singleton.mp listed]
      exact .inr ⟨⟨state, stood⟩, rfl⟩
    · exact .inl old
  case h_9 held result stood =>
    cases worked
    refine .inl ?_
    rcases sound.marks.complete_cases held.conn with ⟨-, reached⟩ | ⟨_, -, -, -, reached⟩
    · rw [reached] at answered
      exact answered
    · rw [reached] at answered
      exact answered
  case h_10 held result stood =>
    cases worked
    refine .inl ?_
    unfold Pool.writeBack at answered
    split at answered
    · split at answered <;> exact answered
    · exact answered
  case h_11 held result stood =>
    cases worked
    rcases mem_answer answered with ⟨-, given⟩ | old
    · cases result <;> cases given
    · exact .inl old
  case h_12 conn stood =>
    cases worked
    rcases mem_answer answered with ⟨-, given⟩ | old
    · cases given
    · exact .inl old
  case h_14 => cases worked
  all_goals
    cases worked
    exact .inl answered

theorem work_next (worked : work pool worker input = some next) :
    next.nextFrame = pool.nextFrame := by
  cases work_moves worked with
  | finish frame state result before =>
    cases result with
    | ok returned => cases returned <;> rfl
    | _ => rfl
  | complete frame result before =>
    unfold Pool.complete
    dsimp only
    split
    · rfl
    · split <;> rfl
  | write frame result before =>
    unfold Pool.writeBack
    split
    · split <;> rfl
    · rfl
  | _ => rfl

theorem seated_iff (sessions : Finmap fun _ : Nat => Value) :
    FiniteMap.size sessions ≠ 0 ↔ ∃ conn, (sessions.lookup conn).isSome = true := by
  rw [FiniteMap.size_eq_weight, ne_eq, FiniteMap.weight_eq_zero_iff]
  push Not
  constructor
  · rintro ⟨conn, state, found, -⟩
    exact ⟨conn, by rw [found]; rfl⟩
  · rintro ⟨conn, found⟩
    obtain ⟨state, found⟩ := isSome_iff_exists.mp found
    exact ⟨conn, state, found, one_ne_zero⟩

theorem writeBack_sessions (frame : Frame) (result : Ended) (conn : Nat) :
    ((pool.writeBack frame.conn result).sessions.lookup conn).isSome =
      (pool.sessions.lookup conn).isSome := by
  unfold Pool.writeBack
  split
  · split
    · rename_i there
      by_cases own : conn = frame.conn
      · rw [own, Finmap.lookup_insert, there]
        rfl
      · rw [Finmap.lookup_insert_of_ne _ own]
    · rfl
  · rfl

/-- The other workers, the sessions there are, and whether the pool is closed. -/
theorem work_kept (sound : Sound pool) (loads : input ≠ .fail)
    (worked : work pool worker input = some next) :
    next.closed = pool.closed ∧
      (∀ other, other ≠ worker → next.workers other = pool.workers other) ∧
        ∀ conn, (next.sessions.lookup conn).isSome = (pool.sessions.lookup conn).isSome := by
  have placed : ∀ {before : Pool} {phase : Phase}, before.workers = pool.workers →
      ∀ other, other ≠ worker → (before.place worker phase).workers other = pool.workers other := by
    intro before phase same other differs
    rw [Pool.place_workers, if_neg differs, same]
  have healthy := sound.healthy worker
  unfold work at worked
  split at worked
  case h_2 => exact absurd rfl loads
  case h_4 stood =>
    rw [stood] at healthy
    cases healthy
  case h_5 =>
    split at worked
    · cases worked
      exact ⟨rfl, placed rfl, fun _ => rfl⟩
    · split at worked <;> cases worked
      exact ⟨rfl, placed rfl, fun _ => rfl⟩
  case h_7 frame _ result stood =>
    cases worked
    cases result with
    | ok state => cases state <;> exact ⟨rfl, placed rfl, fun _ => rfl⟩
    | _ => exact ⟨rfl, placed rfl, fun _ => rfl⟩
  case h_9 frame result stood =>
    cases worked
    rcases sound.marks.complete_cases frame.conn with ⟨-, reached⟩ | ⟨_, -, -, -, reached⟩
    · rw [reached]
      exact ⟨rfl, placed rfl, fun _ => rfl⟩
    · rw [reached]
      exact ⟨rfl, placed rfl, fun _ => rfl⟩
  case h_10 frame result stood =>
    cases worked
    refine ⟨?_, placed ?_, writeBack_sessions frame result⟩
    all_goals
      unfold Pool.writeBack
      split
      · split <;> rfl
      · rfl
  case h_14 => cases worked
  all_goals
    cases worked
    exact ⟨rfl, placed rfl, fun _ => rfl⟩

end OnlyJs.Bridge.FramePool
