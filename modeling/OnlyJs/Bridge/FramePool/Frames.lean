import OnlyJs.Bridge.FramePool.Threads

/-!
# The frames of a connection

In a run in which no frame begins on a state that another worker has still to
replace, and none is submitted behind a mark that nothing will clear, the frames of
a connection run one at a time and in order, each on the state that the last one
returned, and each is answered once.
-/

namespace OnlyJs.Bridge.FramePool

open Lib List

/-- What the pool promises in a state. A pool is at rest when no worker can take a
step although one is there. -/
structure Promises (pool : Pool) : Prop where
  single : ∀ worker other frame next state current,
    pool.workers worker = .running frame state → pool.workers other = .running next current →
      frame.conn = next.conn → worker = other
  ordered : ∀ conn, (startedIds conn pool.history).Pairwise (· > ·)
  threaded : Threaded pool.history
  once : (answeredIds pool.history).Nodup
  settled : (∃ worker, pool.workers worker ≠ .absent) →
    (∀ worker input, work pool worker input = none) →
    ∀ frame, .fired frame ∈ pool.history → frame.id ∈ answeredIds pool.history

/-- The steps that keep the promises: a frame is submitted on a connection of its
own, behind a mark that a queued frame or a worker will clear, and a frame begins
when the session of its connection holds the last state. -/
def Orderly (state : State) : Label → Prop
  | .fire conn => state.pool.closed = false →
      conn ≠ 0 ∧ (state.pool.inFlight conn = true → state.pool.Served conn)
  | .work worker .proceed => ∀ frame, state.pool.workers worker = .pulled frame →
      state.pool.ReadsCurrent frame.conn
  | _ => True

structure Invariant (pool : Pool) : Prop where
  marks : Marks pool
  order : Order pool
  books : Books pool.history pool.nextFrame pool.connSeq pool.Located
  threads : Threads pool

theorem books_initial : Books Pool.initial.history Pool.initial.nextFrame Pool.initial.connSeq
    Pool.initial.Located := by
  have empty : ∀ frame, ¬ Pool.initial.Located frame := by
    rintro frame (absurd | absurd | ⟨_, absurd⟩) <;> cases absurd
  refine ⟨?_, ?_, ?_, ?_, ?_, .nil, ?_, ?_⟩
  · exact fun _ absurd => nomatch absurd
  · exact fun _ _ absurd => nomatch absurd
  · exact fun frame held => absurd held (empty frame)
  · exact fun frame held => absurd held (empty frame)
  · exact fun _ absurd => nomatch absurd
  · exact fun _ absurd => nomatch absurd
  · exact fun frame held => absurd held (empty frame)

theorem invariant_initial : Invariant .initial :=
  ⟨marks_initial, order_initial, books_initial, threads_initial⟩

section

variable {pool : Pool} {worker : Nat} {phase : Phase}

theorem free_isPulled (free : phase.Free) : phase.isPulled = none := by
  have carries := free.1
  cases phase <;> first | rfl | cases carries

theorem free_began (free : phase.Free) : phase.began = none := by
  have holds := free.2.1
  cases phase <;> first | rfl | cases holds

theorem free_serves (free : phase.Free) : phase.serves = none := by
  have carries := free.1
  cases phase <;> first | rfl | cases carries

theorem located_place (frame : Frame) :
    (pool.place worker phase).Located frame ↔
      frame ∈ pool.ready ∨ frame ∈ pool.waiting ∨ phase.holds = some frame ∨
        ∃ other, other ≠ worker ∧ (pool.workers other).holds = some frame := by
  refine or_congr Iff.rfl (or_congr Iff.rfl ?_)
  constructor
  · rintro ⟨other, holds⟩
    rw [Pool.place_workers] at holds
    split at holds
    · exact .inl holds
    · rename_i differs
      exact .inr ⟨other, differs, holds⟩
  · rintro (holds | ⟨other, differs, holds⟩)
    · refine ⟨worker, ?_⟩
      rwa [Pool.place_workers, if_pos rfl]
    · refine ⟨other, ?_⟩
      rwa [Pool.place_workers, if_neg differs]

theorem located_iff (worker : Nat) (frame : Frame) :
    pool.Located frame ↔
      frame ∈ pool.ready ∨ frame ∈ pool.waiting ∨ (pool.workers worker).holds = some frame ∨
        ∃ other, other ≠ worker ∧ (pool.workers other).holds = some frame := by
  refine or_congr Iff.rfl (or_congr Iff.rfl ?_)
  constructor
  · rintro ⟨other, holds⟩
    by_cases same : other = worker
    · exact .inl (same ▸ holds)
    · exact .inr ⟨other, same, holds⟩
  · rintro (holds | ⟨other, _, holds⟩)
    · exact ⟨worker, holds⟩
    · exact ⟨other, holds⟩

theorem located_keep (pool : Pool) {worker : Nat} {phase : Phase}
    (holds : phase.holds = (pool.workers worker).holds) (frame : Frame) :
    (pool.place worker phase).Located frame ↔ pool.Located frame := by
  rw [located_place, located_iff worker, holds]

theorem located_release (marks : Marks pool) (order : Order pool) {held : Frame}
    (before : (pool.workers worker).holds = some held) (holds : phase.holds = none)
    (frame : Frame) :
    (pool.place worker phase).Located frame ↔ pool.Located frame ∧ frame ∉ [held] := by
  rw [located_place, located_iff worker, holds, before, mem_singleton]
  constructor
  · rintro (listed | listed | absurd | ⟨other, differs, keeps⟩)
    · refine ⟨.inl listed, ?_⟩
      rintro rfl
      exact ready_not_held marks order listed worker before
    · refine ⟨.inr (.inl listed), ?_⟩
      rintro rfl
      exact waiting_not_held order listed worker before
    · cases absurd
    · refine ⟨.inr (.inr (.inr ⟨other, differs, keeps⟩)), ?_⟩
      rintro rfl
      exact differs (order.held_alone other worker frame keeps before)
  · rintro ⟨listed | listed | same | later, differs⟩
    · exact .inl listed
    · exact .inr (.inl listed)
    · exact absurd (Option.some.inj same).symm differs
    · exact .inr (.inr (.inr later))

theorem Order.place (order : Order pool)
    (pulled : phase.isPulled = none) (began : ∀ frame, phase.began = some frame →
      (pool.workers worker).began = some frame)
    (holds : ∀ frame, phase.holds = some frame → (pool.workers worker).holds = some frame) :
    Order (pool.place worker phase) := by
  have kept : ∀ other frame, ((pool.place worker phase).workers other).holds = some frame →
      (pool.workers other).holds = some frame := by
    intro other frame held
    rw [Pool.place_workers] at held
    split at held
    · rename_i same
      exact same ▸ holds frame held
    · exact held
  refine order.mono (List.Sublist.refl _) (fun _ listed => listed) ?_ ?_ (fun _ => rfl)
    (Nat.le_refl _) ?_
  · intro other frame held
    rw [Pool.place_workers] at held
    split at held
    · rw [pulled] at held
      cases held
    · exact .inl held
  · intro other frame held
    rw [Pool.place_workers] at held
    split at held
    · rename_i same
      exact same ▸ began frame held
    · exact held
  · intro one two frame first second
    exact order.held_alone one two frame (kept one frame first) (kept two frame second)

end

section

variable {pool : Pool} {worker : Nat} {phase : Phase} {frame : Frame}

theorem Order.congr {next : Pool} (order : Order pool) (ready : next.ready = pool.ready)
    (waiting : next.waiting = pool.waiting) (workers : next.workers = pool.workers)
    (started : ∀ conn, startedIds conn next.history = startedIds conn pool.history)
    (numbers : pool.nextFrame ≤ next.nextFrame) : Order next := by
  refine order.mono (by rw [waiting]) (by rw [ready]; exact fun _ listed => listed) ?_ ?_ started
    numbers ?_
  · rw [workers]
    exact fun _ _ held => .inl held
  · rw [workers]
    exact fun _ _ held => held
  · rw [workers]
    exact order.held_alone

theorem Order.answer (order : Order pool) (frames : List Frame) (answer : Answer) :
    Order (pool.answer frames answer) :=
  order.congr rfl rfl rfl (fun conn => startedIds_answer conn frames answer pool.history)
    (Nat.le_refl _)

theorem Marks.answer (marks : Marks pool) (frames : List Frame) (answer : Answer) :
    Marks (pool.answer frames answer) :=
  marks.congr rfl rfl rfl rfl (fun _ => rfl) fun _ => rfl

section

variable (invariant : Invariant pool)
include invariant

theorem Invariant.release (before : (pool.workers worker).holds = some frame) (answer : Answer)
    (holds : phase.holds = none) (carries : phase.carries = (pool.workers worker).carries)
    (serves : phase.serves = (pool.workers worker).serves)
    (unwritten : phase.unwritten = (pool.workers worker).unwritten) :
    Invariant ((pool.answer [frame] answer).place worker phase) := by
  have pulled : phase.isPulled = none := by
    cases phase <;> first | rfl | cases holds
  have began : phase.began = none := by
    cases phase <;> first | rfl | cases holds
  refine ⟨(invariant.marks.answer [frame] answer).place carries serves, ?_, ?_, ?_⟩
  · refine (invariant.order.answer [frame] answer).place pulled ?_ ?_
    · rw [began]
      exact fun _ absurd => nomatch absurd
    · rw [holds]
      exact fun _ absurd => nomatch absurd
  · refine invariant.books.answer answer ?_ (nodup_singleton frame)
      (located_release invariant.marks invariant.order before holds)
    intro other listed
    rw [mem_singleton.mp listed]
    exact .inr (.inr ⟨worker, before⟩)
  · refine (invariant.threads.answer [frame] answer).place unwritten ?_
    rintro other state rfl
    cases holds

theorem Invariant.keep (pulled : phase.isPulled = none)
    (began : phase.began = (pool.workers worker).began)
    (holds : phase.holds = (pool.workers worker).holds)
    (carries : phase.carries = (pool.workers worker).carries)
    (serves : phase.serves = (pool.workers worker).serves)
    (unwritten : phase.unwritten = (pool.workers worker).unwritten)
    (idle : ∀ other state, phase ≠ .running other state) :
    Invariant (pool.place worker phase) := by
  refine ⟨invariant.marks.place carries serves, ?_, ?_, invariant.threads.place unwritten idle⟩
  · exact invariant.order.place pulled (by rw [began]; exact fun _ held => held)
      (by rw [holds]; exact fun _ held => held)
  · exact invariant.books.congr (located_keep _ holds) (fun _ => Iff.rfl) rfl (Nat.le_refl _)

theorem Invariant.idle (before : (pool.workers worker).Free) (after : phase.Free) :
    Invariant (pool.place worker phase) := by
  refine invariant.keep (free_isPulled after) ?_ ?_ ?_ ?_ ?_ ?_
  · rw [free_began before, free_began after]
  · rw [before.2.1, after.2.1]
  · rw [before.1, after.1]
  · rw [free_serves before, free_serves after]
  · rw [before.2.2, after.2.2]
  · rintro other state rfl
    cases after.1

theorem Invariant.flag (failed : Bool) :
    Invariant { pool with failed } where
  marks := invariant.marks.congr rfl rfl rfl rfl (fun _ => rfl) fun _ => rfl
  order := invariant.order.congr rfl rfl rfl (fun _ => rfl) (Nat.le_refl _)
  books := invariant.books.congr (fun _ => Iff.rfl) (fun _ => Iff.rfl) rfl (Nat.le_refl _)
  threads := invariant.threads.congr (fun _ => rfl) invariant.threads.threaded (fun _ => rfl)
    (fun _ _ _ runs => runs) (fun _ _ found => found) rfl

theorem Invariant.close : Invariant pool.close := by
  have ⟨marks, order, books, threads⟩ := invariant
  refine ⟨marks.close, ?_, ?_, ?_⟩
  · refine order.mono (nil_sublist _) (fun _ absurd => nomatch absurd)
      (fun _ _ held => .inl held) (fun _ _ held => held)
      (fun conn => startedIds_answer conn _ _ pool.history) (Nat.le_refl _) order.held_alone
  · refine books.answer .poolClosed ?_ ?_ ?_
    · intro other listed
      rcases mem_append.mp listed with listed | listed
      · exact .inl listed
      · exact .inr (.inl listed)
    · refine nodup_append.mpr ⟨ready_nodup marks, waiting_nodup order, ?_⟩
      rintro other listed _ waits rfl
      exact ready_not_waiting order listed waits
    · intro other
      rw [mem_append]
      constructor
      · rintro (absurd | absurd | ⟨holder, holds⟩)
        · cases absurd
        · cases absurd
        · refine ⟨.inr (.inr ⟨holder, holds⟩), ?_⟩
          rintro (listed | listed)
          · exact ready_not_held marks order listed holder holds
          · exact waiting_not_held order listed holder holds
      · rintro ⟨listed | listed | held, outside⟩
        · exact absurd (.inl listed) outside
        · exact absurd (.inr listed) outside
        · exact .inr (.inr held)
  · exact threads.congr (fun conn => lastReturned_answer conn _ _ pool.history)
      (threaded_answer threads.threaded) (fun _ => rfl) (fun _ _ _ runs => runs)
      (fun _ _ found => found) rfl

theorem Invariant.dropConn (conn : Nat) :
    Invariant (pool.dropConn conn) := by
  have ⟨marks, order, books, threads⟩ := invariant
  refine ⟨marks.dropConn conn, ?_, ?_, ?_⟩
  · exact order.mono filter_sublist (fun _ listed => listed) (fun _ _ held => .inl held)
      (fun _ _ held => held) (fun conn => startedIds_answer conn _ _ pool.history)
      (Nat.le_refl _) order.held_alone
  · refine books.answer .dropped ?_ ((waiting_nodup order).filter _) ?_
    · exact fun other listed => .inr (.inl (mem_of_mem_filter listed))
    · intro other
      have kept : other ∈ (pool.dropConn conn).waiting ↔
          other ∈ pool.waiting ∧ other.conn ≠ conn := by
        simp [Pool.dropConn, Pool.answer]
      have gone : other ∈ pool.waiting.filter (fun frame => frame.conn = conn) ↔
          other ∈ pool.waiting ∧ other.conn = conn := by
        simp
      rw [gone]
      constructor
      · rintro (listed | listed | ⟨holder, holds⟩)
        · exact ⟨.inl listed, fun waits => ready_not_waiting order listed waits.1⟩
        · obtain ⟨waits, differs⟩ := kept.mp listed
          exact ⟨.inr (.inl waits), fun same => differs same.2⟩
        · exact ⟨.inr (.inr ⟨holder, holds⟩),
            fun waits => waiting_not_held order waits.1 holder holds⟩
      · rintro ⟨listed | listed | held, outside⟩
        · exact .inl listed
        · exact .inr (.inl (kept.mpr ⟨listed, fun same => outside ⟨listed, same⟩⟩))
        · exact .inr (.inr held)
  · exact threads.congr (fun conn => lastReturned_answer conn _ _ pool.history)
      (threaded_answer threads.threaded) (fun _ => rfl) (fun _ _ _ runs => runs)
      (fun _ _ found => found) rfl

end

end

section

variable {pool : Pool} {worker : Nat} {frame : Frame}

theorem Invariant.pull (invariant : Invariant pool) {rest : List Frame}
    (before : pool.workers worker = .pulling) (queued : pool.ready = frame :: rest) :
    Invariant ({ pool with ready := rest }.place worker (.pulled frame)) := by
  have ⟨marks, order, books, threads⟩ := invariant
  have first : frame ∈ pool.ready := by
    rw [queued]
    exact mem_cons_self
  have later : ∀ other ∈ rest, other ∈ pool.ready := by
    intro other listed
    rw [queued]
    exact mem_cons_of_mem _ listed
  refine ⟨marks.pull before queued, ?_, ?_, ?_⟩
  · refine order.mono (List.Sublist.refl _) later ?_ ?_ (fun _ => rfl) (Nat.le_refl _) ?_
    · intro other held pulled
      rw [Pool.place_workers] at pulled
      split at pulled
      · cases pulled
        exact .inr first
      · exact .inl pulled
    · intro other held began
      rw [Pool.place_workers] at began
      split at began
      · cases began
      · exact began
    · intro one two held first_holds second_holds
      rw [Pool.place_workers] at first_holds second_holds
      split at first_holds
      · rename_i here
        split at second_holds
        · rename_i there
          rw [here, there]
        · cases first_holds
          exact absurd second_holds (ready_not_held marks order first two)
      · split at second_holds
        · cases second_holds
          exact absurd first_holds (ready_not_held marks order first one)
        · exact order.held_alone one two held first_holds second_holds
  · refine books.congr ?_ (fun _ => Iff.rfl) rfl (Nat.le_refl _)
    intro other
    rw [located_place, located_iff worker other, before, queued]
    constructor
    · rintro (listed | listed | same | held)
      · exact .inl (mem_cons_of_mem _ listed)
      · exact .inr (.inl listed)
      · cases same
        exact .inl mem_cons_self
      · exact .inr (.inr (.inr held))
    · rintro (listed | listed | absurd | held)
      · rcases mem_cons.mp listed with rfl | listed
        · exact .inr (.inr (.inl rfl))
        · exact .inl listed
      · exact .inr (.inl listed)
      · cases absurd
      · exact .inr (.inr (.inr held))
  · refine threads.congr (fun _ => rfl) threads.threaded ?_ ?_ (fun _ _ found => found) rfl
    · intro other
      rw [Pool.place_workers]
      split
      · rename_i same
        rw [same, before]
        rfl
      · rfl
    · intro other held state runs
      rw [Pool.place_workers] at runs
      split at runs
      · cases runs
      · exact runs

/-- A frame begins after all earlier ones of its connection. -/
theorem Order.start (order : Order pool) (marks : Marks pool)
    (before : pool.workers worker = .pulled frame) (numbered : frame.id < pool.nextFrame)
    (state : Value) :
    Order ((pool.observe (.started frame state)).place worker (.running frame state)) := by
  have pulled : (pool.workers worker).isPulled = some frame := by
    rw [before]
    rfl
  have carried : (pool.workers worker).carries = some frame.conn := by
    rw [before]
    rfl
  have other_pulled : ∀ other held, (((pool.observe (.started frame state)).place worker
      (.running frame state)).workers other).isPulled = some held →
        other ≠ worker ∧ (pool.workers other).isPulled = some held := by
    intro other held pulled
    rw [Pool.place_workers] at pulled
    split at pulled
    · cases pulled
    · rename_i differs
      exact ⟨differs, pulled⟩
  have grown : ∀ conn, startedIds conn (.started frame state :: pool.history) =
      if frame.conn = conn then frame.id :: startedIds conn pool.history
      else startedIds conn pool.history := fun _ => rfl
  refine ⟨order.waiting_sorted, order.ready_before, ?_, ?_, ?_, ?_, ?_, ?_⟩
  · intro other held pulled
    exact order.pulled_before other held (other_pulled other held pulled).2
  · intro other pending id listed
    have pending : pool.Pending other ∧ (frame.conn = other.conn → frame.id < other.id) := by
      rcases pending with queued | waits | ⟨holder, held⟩
      · refine ⟨.inl queued, fun same => ?_⟩
        exact absurd (carried.trans (congrArg some same)) (marks.ready_free other queued worker)
      · exact ⟨.inr (.inl waits), order.pulled_before worker frame pulled other waits⟩
      · obtain ⟨differs, held⟩ := other_pulled holder other held
        refine ⟨.inr (.inr ⟨holder, held⟩), fun same => ?_⟩
        refine absurd (marks.carrier holder worker other.conn ?_ ?_) differs
        · rw [pulled_holds held]
          rfl
        · exact carried.trans (congrArg some same)
    change id ∈ startedIds other.conn (.started frame state :: pool.history) at listed
    rw [grown] at listed
    split at listed
    · rename_i same
      rcases mem_cons.mp listed with rfl | listed
      · exact pending.2 same
      · exact order.started_before other pending.1 id listed
    · exact order.started_before other pending.1 id listed
  · intro conn
    change (startedIds conn (.started frame state :: pool.history)).Pairwise _
    rw [grown]
    split
    · rename_i same
      refine pairwise_cons.mpr ⟨?_, order.started_sorted conn⟩
      rw [← same]
      exact order.started_before frame (.inr (.inr ⟨worker, pulled⟩))
    · exact order.started_sorted conn
  · intro conn id listed
    change id ∈ startedIds conn (.started frame state :: pool.history) at listed
    rw [grown] at listed
    split at listed
    · rcases mem_cons.mp listed with rfl | listed
      · exact numbered
      · exact order.started_numbered conn id listed
    · exact order.started_numbered conn id listed
  · intro other held began
    change held.id ∈ startedIds held.conn (.started frame state :: pool.history)
    rw [grown]
    rw [Pool.place_workers] at began
    split at began
    · cases began
      rw [if_pos rfl]
      exact mem_cons_self
    · split
      · exact mem_cons_of_mem _ (order.began_started other held began)
      · exact order.began_started other held began
  · have kept : ∀ other held, (((pool.observe (.started frame state)).place worker
        (.running frame state)).workers other).holds = some held →
          (pool.workers other).holds = some held := by
      intro other held holds
      rw [Pool.place_workers] at holds
      split at holds
      · rename_i same
        rw [same, before]
        exact holds
      · exact holds
    intro one two held first second
    exact order.held_alone one two held (kept one held first) (kept two held second)

theorem Invariant.start (invariant : Invariant pool)
    (before : pool.workers worker = .pulled frame) (current : pool.ReadsCurrent frame.conn) :
    Invariant ((pool.observe (.started frame (pool.stateOf frame.conn))).place worker
      (.running frame (pool.stateOf frame.conn))) := by
  have ⟨marks, order, books, threads⟩ := invariant
  have holds : (pool.workers worker).holds = some frame := by
    rw [before]
    rfl
  refine ⟨?_, ?_, ?_, threads.start before current⟩
  · have watched : Marks (pool.observe (.started frame (pool.stateOf frame.conn))) :=
      marks.congr rfl rfl rfl rfl (fun _ => rfl) fun _ => rfl
    refine watched.place ?_ ?_
    · change _ = (pool.workers worker).carries
      rw [before]
      rfl
    · change _ = (pool.workers worker).serves
      rw [before]
      rfl
  · exact order.start marks before (books.numbered (.inr (.inr ⟨worker, holds⟩))) _
  · refine books.congr ?_ ?_ rfl (Nat.le_refl _)
    · exact located_keep (pool.observe (.started frame (pool.stateOf frame.conn))) holds.symm
    · intro other
      exact ⟨fun listed => (mem_cons.mp listed).resolve_left nofun,
        mem_cons_of_mem _⟩

theorem Invariant.finish (invariant : Invariant pool) {state : Value} (result : Ended)
    (before : pool.workers worker = .running frame state) :
    Invariant ((pool.returned frame result).place worker (.ended frame result)) := by
  have plain : (Phase.ended frame result).unwritten = none →
      Invariant (pool.place worker (.ended frame result)) := by
    intro unwritten
    refine invariant.keep rfl ?_ ?_ ?_ ?_ ?_ nofun
    · rw [before]
      rfl
    · rw [before]
      rfl
    · rw [before]
      rfl
    · rw [before]
      rfl
    · rw [before, unwritten]
      rfl
  cases result with
  | timeout | oom | core => exact plain rfl
  | ok returned =>
    cases returned with
    | none => exact plain rfl
    | some returned =>
      have ⟨marks, order, books, threads⟩ := invariant
      have holds : (pool.workers worker).holds = some frame := by
        rw [before]
        rfl
      have known := (books.proper frame (.inr (.inr ⟨worker, holds⟩))).2
      have watched : Marks (pool.observe (.returned frame returned)) :=
        marks.congr rfl rfl rfl rfl (fun _ => rfl) fun _ => rfl
      have noted : Order (pool.observe (.returned frame returned)) :=
        order.congr rfl rfl rfl (fun _ => rfl) (Nat.le_refl _)
      refine ⟨watched.place ?_ ?_, noted.place rfl ?_ ?_, ?_,
        threads.finish marks before known returned⟩
      · change _ = (pool.workers worker).carries
        rw [before]
        rfl
      · change _ = (pool.workers worker).serves
        rw [before]
        rfl
      · intro other began
        change (pool.workers worker).began = _
        rw [before]
        exact began
      · intro other held
        change (pool.workers worker).holds = _
        rw [before]
        exact held
      · refine books.congr ?_ ?_ rfl (Nat.le_refl _)
        · exact located_keep (pool.observe (.returned frame returned)) holds.symm
        · intro other
          exact ⟨fun listed => (mem_cons.mp listed).resolve_left nofun,
            mem_cons_of_mem _⟩

theorem Invariant.write (invariant : Invariant pool) {result : Ended}
    (before : pool.workers worker = .completed frame result) :
    Invariant ((pool.writeBack frame.conn result).place worker (.answering frame result)) := by
  have ⟨marks, order, books, threads⟩ := invariant
  have written := threads.write before
  obtain ⟨sessions, same⟩ : ∃ sessions, pool.writeBack frame.conn result =
      { pool with sessions } := by
    unfold Pool.writeBack
    split
    · split
      · exact ⟨_, rfl⟩
      · exact ⟨pool.sessions, rfl⟩
    · exact ⟨pool.sessions, rfl⟩
  rw [same] at written ⊢
  have stored : Marks { pool with sessions } :=
    marks.congr rfl rfl rfl rfl (fun _ => rfl) fun _ => rfl
  have kept : Order { pool with sessions } :=
    order.congr rfl rfl rfl (fun _ => rfl) (Nat.le_refl _)
  refine ⟨stored.place ?_ ?_, kept.place rfl ?_ ?_, ?_, written⟩
  · change _ = (pool.workers worker).carries
    rw [before]
    rfl
  · change _ = (pool.workers worker).serves
    rw [before]
    rfl
  · intro other began
    rw [before]
    exact began
  · intro other held
    rw [before]
    exact held
  · refine books.congr (located_keep { pool with sessions } ?_) (fun _ => Iff.rfl) rfl
      (Nat.le_refl _)
    rw [before]
    rfl

variable {conn : Nat}

theorem Invariant.dropWorker (invariant : Invariant pool)
    (before : pool.workers worker = .panicked conn) :
    Invariant ((pool.dropConn conn).place worker (.dropped conn)) := by
  have dropped := invariant.dropConn conn
  have stood : (pool.dropConn conn).workers worker = .panicked conn := before
  have holds : (Phase.dropped conn).holds = ((pool.dropConn conn).workers worker).holds := by
    rw [stood]
    rfl
  refine ⟨invariant.marks.dropWorker before, ?_, ?_, ?_⟩
  · exact dropped.order.place rfl (fun _ absurd => nomatch absurd) fun _ absurd => nomatch absurd
  · exact dropped.books.congr (located_keep _ holds) (fun _ => Iff.rfl) rfl (Nat.le_refl _)
  · refine dropped.threads.place ?_ nofun
    rw [stood]
    rfl

theorem Invariant.unmark (invariant : Invariant pool)
    (before : pool.workers worker = .dropped conn) :
    Invariant ((pool.unmark conn).place worker .absent) := by
  have ⟨marks, order, books, threads⟩ := invariant
  have cleared : Order (pool.unmark conn) :=
    order.congr rfl rfl rfl (fun _ => rfl) (Nat.le_refl _)
  have threaded : Threads (pool.unmark conn) :=
    threads.congr (fun _ => rfl) threads.threaded (fun _ => rfl) (fun _ _ _ runs => runs)
      (fun _ _ found => found) rfl
  have stood : (pool.unmark conn).workers worker = .dropped conn := before
  refine ⟨marks.unmark before, ?_, ?_, ?_⟩
  · exact cleared.place rfl (fun _ absurd => nomatch absurd) fun _ absurd => nomatch absurd
  · refine books.congr (located_keep (pool.unmark conn) ?_) (fun _ => Iff.rfl) rfl
      (Nat.le_refl _)
    rw [stood]
    rfl
  · refine threaded.place ?_ nofun
    rw [stood]
    rfl

variable {first : Frame}

theorem first_of_sorted {waiting : List Frame}
    (sorted : waiting.Pairwise fun frame other => frame.id < other.id)
    (found : waiting.find? (fun frame => frame.conn = conn) = some first) :
    ∀ other ∈ waiting.eraseP (fun frame => frame.conn = conn), other.conn = conn →
      first.id < other.id := by
  induction waiting with
  | nil => cases found
  | cons head rest ih =>
    obtain ⟨least, sorted⟩ := pairwise_cons.mp sorted
    intro other listed same
    by_cases here : head.conn = conn
    · rw [find?_cons_of_pos (by simpa using here)] at found
      rw [eraseP_cons_of_pos (by simpa using here)] at listed
      cases found
      exact least other listed
    · rw [find?_cons_of_neg (by simpa using here)] at found
      rw [eraseP_cons_of_neg (by simpa using here)] at listed
      rcases mem_cons.mp listed with rfl | listed
      · exact absurd same here
      · exact ih sorted found other listed same

theorem Order.release (order : Order pool) (inFlight : Nat → Bool)
    (found : pool.waiting.find? (fun frame => frame.conn = conn) = some first)
    (waits : first ∈ pool.waiting) (own : first.conn = conn) :
    Order { pool with
      waiting := pool.waiting.eraseP fun frame => frame.conn = conn
      inFlight
      ready := pool.ready ++ [first] } := by
  have still : ∀ other ∈ pool.waiting.eraseP (fun frame => frame.conn = conn),
      other ∈ pool.waiting := fun other listed => mem_of_mem_eraseP listed
  refine ⟨order.waiting_sorted.sublist eraseP_sublist, ?_, ?_, ?_,
    order.started_sorted, order.started_numbered, order.began_started, order.held_alone⟩
  · intro other listed later waiting same
    rcases mem_append.mp listed with listed | listed
    · exact order.ready_before other listed later (still later waiting) same
    · rw [mem_singleton.mp listed] at same ⊢
      exact first_of_sorted order.waiting_sorted found later waiting (same.symm.trans own)
  · intro holder other pulled later waiting
    exact order.pulled_before holder other pulled later (still later waiting)
  · intro other pending
    apply order.started_before other
    rcases pending with listed | listed | held
    · rcases mem_append.mp listed with listed | listed
      · exact .inl listed
      · rw [mem_singleton.mp listed]
        exact .inr (.inl waits)
    · exact .inr (.inl (still other listed))
    · exact .inr (.inr held)

theorem mem_waiting_iff {waiting : List Frame}
    (found : waiting.find? (fun frame => frame.conn = conn) = some first) (other : Frame) :
    other ∈ waiting ↔
      other = first ∨ other ∈ waiting.eraseP fun frame => frame.conn = conn := by
  obtain ⟨fits, before, rest, rfl, none⟩ := find?_eq_some_iff_append.mp found
  rw [eraseP_append_right _ (by simpa using none), eraseP_cons_of_pos (by simpa using fits),
    mem_append, mem_cons, mem_append]
  exact or_left_comm

theorem Invariant.complete (invariant : Invariant pool) {result : Ended}
    (before : pool.workers worker = .ended frame result) :
    Invariant ((pool.complete frame.conn).place worker (.completed frame result)) := by
  have ⟨marks, order, books, threads⟩ := invariant
  have completed := marks.complete before
  -- the queues after the mark is cleared or handed on; the workers are as they were
  obtain ⟨workers, cleared, accounted, threaded⟩ :
      (pool.complete frame.conn).workers = pool.workers ∧ Order (pool.complete frame.conn) ∧
        Books (pool.complete frame.conn).history (pool.complete frame.conn).nextFrame
          (pool.complete frame.conn).connSeq (pool.complete frame.conn).Located ∧
        Threads (pool.complete frame.conn) := by
    rcases marks.complete_cases frame.conn with ⟨_, same⟩ | ⟨first, found, waits, own, same⟩
    · rw [same]
      refine ⟨rfl, order.congr rfl rfl rfl (fun _ => rfl) (Nat.le_refl _),
        books.congr (fun _ => Iff.rfl) (fun _ => Iff.rfl) rfl (Nat.le_refl _), ?_⟩
      exact threads.congr (fun _ => rfl) threads.threaded (fun _ => rfl) (fun _ _ _ runs => runs)
        (fun _ _ found => found) rfl
    · rw [same]
      refine ⟨rfl, order.release _ found waits own,
        books.congr ?_ (fun _ => Iff.rfl) rfl (Nat.le_refl _), ?_⟩
      · intro other
        rw [Pool.Located, Pool.Located, mem_waiting_iff found, mem_append,
          mem_singleton, or_assoc, or_assoc]
      · exact threads.congr (fun _ => rfl) threads.threaded (fun _ => rfl)
          (fun _ _ _ runs => runs) (fun _ _ found => found) rfl
  have stood : (pool.complete frame.conn).workers worker = .ended frame result := by
    rw [workers, before]
  refine ⟨completed, cleared.place rfl ?_ ?_, accounted.congr (located_keep _ ?_)
    (fun _ => Iff.rfl) rfl (Nat.le_refl _), threaded.place ?_ nofun⟩
  · rw [stood]
    exact fun _ began => began
  · rw [stood]
    exact fun _ held => held
  · rw [stood]
    rfl
  · rw [stood]
    cases result with
    | ok state => cases state <;> rfl
    | timeout | oom | core => rfl

/-- A worker's step keeps the invariant if a frame begins on the last state. -/
theorem invariant_moves {next : Pool} (invariant : Invariant pool)
    (current : ∀ frame, pool.workers worker = .pulled frame → pool.ReadsCurrent frame.conn)
    (moves : Moves pool worker next) : Invariant next := by
  cases moves with
  | idle phase failed before after => exact (invariant.flag failed).idle before after
  | fail before => exact invariant.close.idle before ⟨rfl, rfl, rfl⟩
  | pull frame rest before queued => exact invariant.pull before queued
  | start frame before => exact invariant.start before (current frame before)
  | finish frame state result before => exact invariant.finish result before
  | panic frame state before =>
    have holds : (pool.workers worker).holds = some frame := by
      rw [before]
      rfl
    have proper := invariant.books.proper frame (.inr (.inr ⟨worker, holds⟩))
    rw [if_neg proper.1]
    apply invariant.release holds .poolClosed rfl
    · rw [before]
      rfl
    · rw [before]
      rfl
    · rw [before]
      rfl
  | complete frame result before => exact invariant.complete before
  | write frame result before => exact invariant.write before
  | answer frame result before =>
    have holds : (pool.workers worker).holds = some frame := by
      rw [before]
      rfl
    split
    · apply invariant.release holds result.answer rfl <;> rw [before] <;> rfl
    · apply invariant.release holds result.answer rfl <;> rw [before] <;> rfl
  | drop conn before => exact invariant.dropWorker before
  | unmark conn before => exact invariant.unmark before

/-- A new frame goes to the end of the ready queue or of the waiting frames. -/
theorem Order.submit (order : Order pool) (marks : Marks pool)
    (books : Books pool.history pool.nextFrame pool.connSeq pool.Located) (conn : Nat) :
    Order (pool.submit conn) := by
  have numbered : ∀ other, pool.Located other → other.id < pool.nextFrame :=
    fun other held => books.numbered held
  have pulled_numbered : ∀ holder other, (pool.workers holder).isPulled = some other →
      other.id < pool.nextFrame := by
    intro holder other pulled
    refine numbered other (.inr (.inr ⟨holder, ?_⟩))
    rw [pulled_holds pulled]
    rfl
  have started : ∀ other id, id ∈ startedIds other pool.history → id < pool.nextFrame :=
    fun other id listed => order.started_numbered other id listed
  have newest : ∀ other id, id ∈ startedIds other pool.history → id < pool.nextFrame + 1 :=
    fun other id listed => Nat.lt_succ_of_lt (started other id listed)
  unfold Pool.submit
  dsimp only
  split
  · refine order.congr rfl rfl rfl (fun other => startedIds_answer other _ _ _) ?_
    exact Nat.le_succ _
  · split
    · refine ⟨?_, ?_, ?_, ?_, order.started_sorted, newest, order.began_started,
        order.held_alone⟩
      · refine pairwise_append.mpr ⟨order.waiting_sorted, pairwise_singleton _ _, ?_⟩
        intro other listed last same
        rw [mem_singleton.mp same]
        exact numbered other (.inr (.inl listed))
      · intro other listed later waits same
        rcases mem_append.mp waits with waits | waits
        · exact order.ready_before other listed later waits same
        · rw [mem_singleton.mp waits]
          exact numbered other (.inl listed)
      · intro holder other pulled later waits same
        rcases mem_append.mp waits with waits | waits
        · exact order.pulled_before holder other pulled later waits same
        · rw [mem_singleton.mp waits]
          exact pulled_numbered holder other pulled
      · rintro other (listed | listed | held)
        · exact order.started_before other (.inl listed)
        · rcases mem_append.mp listed with listed | listed
          · exact order.started_before other (.inr (.inl listed))
          · rw [mem_singleton.mp listed]
            exact started conn
        · exact order.started_before other (.inr (.inr held))
    · rename_i unmarked
      refine ⟨order.waiting_sorted, ?_, order.pulled_before, ?_, order.started_sorted, newest,
        order.began_started, order.held_alone⟩
      · intro other listed later waits same
        rcases mem_append.mp listed with listed | listed
        · exact order.ready_before other listed later waits same
        · -- what waits is behind a mark
          rw [mem_singleton.mp listed] at same
          refine absurd ?_ unmarked
          have same : conn = later.conn := same
          rw [same]
          rcases marks.served later waits with ⟨ahead, queued, own⟩ | ⟨holder, serves⟩
          · exact own ▸ marks.ready_marked ahead queued
          · exact marks.carried_marked holder later.conn (serves_carries serves)
      · rintro other (listed | listed | held)
        · rcases mem_append.mp listed with listed | listed
          · exact order.started_before other (.inl listed)
          · rw [mem_singleton.mp listed]
            exact started conn
        · exact order.started_before other (.inr (.inl listed))
        · exact order.started_before other (.inr (.inr held))

section

variable (invariant : Invariant pool)
include invariant

theorem Invariant.submit (known : conn ≤ pool.connSeq)
    (placed : pool.closed = false → conn ≠ 0 ∧ (pool.inFlight conn = true → pool.Served conn)) :
    Invariant (pool.submit conn) := by
  have ⟨marks, order, books, threads⟩ := invariant
  refine ⟨marks.submit fun running => (placed running).2, order.submit marks books conn, ?_, ?_⟩
  · unfold Pool.submit
    dsimp only
    split
    · exact books.refuse conn .poolClosed
    · rename_i running
      have proper : conn ≠ 0 := (placed (by simpa using running)).1
      split
      · refine books.fire ⟨proper, known⟩ ?_
        simp only [Pool.Located, mem_append, mem_singleton]
        tauto
      · refine books.fire ⟨proper, known⟩ ?_
        simp only [Pool.Located, mem_append, mem_singleton]
        tauto
  · unfold Pool.submit
    dsimp only
    split
    · exact threads.congr (fun _ => rfl) threads.threaded (fun _ => rfl) (fun _ _ _ runs => runs)
        (fun _ _ found => found) rfl
    · split <;>
        exact threads.congr (fun _ => rfl) threads.threaded (fun _ => rfl)
          (fun _ _ _ runs => runs) (fun _ _ found => found) rfl

theorem Invariant.attachOpen :
    Invariant { pool with closed := false } where
  marks :=
    ⟨invariant.marks.ready_marked, invariant.marks.carried_marked, invariant.marks.ready_alone,
      invariant.marks.ready_free, invariant.marks.carrier, invariant.marks.served, nofun⟩
  order := invariant.order.congr rfl rfl rfl (fun _ => rfl) (Nat.le_refl _)
  books := invariant.books.congr (fun _ => Iff.rfl) (fun _ => Iff.rfl) rfl (Nat.le_refl _)
  threads := invariant.threads.congr (fun _ => rfl) invariant.threads.threaded (fun _ => rfl)
    (fun _ _ _ runs => runs) (fun _ _ found => found) rfl

theorem Invariant.attachInsert :
    Invariant { pool with
      connSeq := pool.connSeq + 1
      sessions := pool.sessions.insert (pool.connSeq + 1) .null } where
  marks := invariant.marks.congr rfl rfl rfl rfl (fun _ => rfl) fun _ => rfl
  order := invariant.order.congr rfl rfl rfl (fun _ => rfl) (Nat.le_refl _)
  books := invariant.books.congr (fun _ => Iff.rfl) (fun _ => Iff.rfl) rfl (Nat.le_succ _)
  threads := invariant.threads.attach

theorem Invariant.detach (conn : Nat) :
    Invariant { pool with sessions := pool.sessions.erase conn } where
  marks := invariant.marks.congr rfl rfl rfl rfl (fun _ => rfl) fun _ => rfl
  order := invariant.order.congr rfl rfl rfl (fun _ => rfl) (Nat.le_refl _)
  books := invariant.books.congr (fun _ => Iff.rfl) (fun _ => Iff.rfl) rfl (Nat.le_refl _)
  threads := by
    refine invariant.threads.congr (fun _ => rfl) invariant.threads.threaded (fun _ => rfl)
      (fun _ _ _ runs => runs) ?_ rfl
    intro other state found
    by_cases same : other = conn
    · rw [same, Finmap.lookup_erase] at found
      cases found
    · rwa [Finmap.lookup_erase_ne same] at found

end

end

theorem handed_known {state : State} {conn : Nat} (handed : state.handed conn = true) :
    conn ≤ state.pool.connSeq := by
  rw [State.handed] at handed
  split at handed
  · rename_i zero
    rw [zero]
    exact Nat.zero_le _
  · exact of_decide_eq_true handed

theorem invariant_preserved :
    StepSystem.Preserved system Orderly fun state => Invariant state.pool := by
  intro state label next invariant permitted fired
  cases label with
  | spawn worker =>
    change step state (.spawn worker) = some next at fired
    rw [step] at fired
    split at fired
    · rename_i stood
      cases fired
      refine invariant.idle ?_ ⟨rfl, rfl, rfl⟩
      rw [stood]
      exact ⟨rfl, rfl, rfl⟩
    · cases fired
  | work worker input =>
    obtain ⟨pool, worked, rfl⟩ := Option.map_eq_some_iff.mp fired
    refine invariant_moves invariant ?_ (work_moves worked)
    intro frame pulled
    have proceeds : input = .proceed := by
      unfold work at worked
      rw [pulled] at worked
      cases input <;> first | rfl | cases worked
    rw [proceeds] at permitted
    exact permitted frame pulled
  | attach =>
    obtain ⟨_, fired⟩ := Option.ite_none_left_eq_some.mp fired
    cases fired
    exact invariant
  | attachOpen =>
    obtain ⟨_, fired⟩ := Option.ite_none_left_eq_some.mp fired
    cases fired
    exact invariant.attachOpen
  | attachInsert =>
    obtain ⟨_, fired⟩ := Option.ite_none_left_eq_some.mp fired
    cases fired
    exact invariant.attachInsert
  | fire conn =>
    obtain ⟨handed, fired⟩ := Option.ite_none_right_eq_some.mp fired
    cases fired
    exact invariant.submit (handed_known handed) permitted
  | detach conn =>
    obtain ⟨_, fired⟩ := Option.ite_none_right_eq_some.mp fired
    cases fired
    exact invariant.detach conn
  | detachDrop conn =>
    obtain ⟨_, fired⟩ := Option.ite_none_right_eq_some.mp fired
    cases fired
    exact invariant.dropConn conn
  | detachCheck =>
    obtain ⟨_, fired⟩ := Option.ite_none_left_eq_some.mp fired
    cases fired
    exact invariant
  | retireWake =>
    obtain ⟨_, fired⟩ := Option.ite_none_right_eq_some.mp fired
    cases fired
    exact invariant
  | retireClose =>
    obtain ⟨_, fired⟩ := Option.ite_none_right_eq_some.mp fired
    cases fired
    exact invariant.close

theorem rest_pulling {pool : Pool} (rest : ∀ worker input, work pool worker input = none)
    (worker : Nat) : pool.workers worker = .absent ∨
      pool.workers worker = .pulling ∧ pool.ready = [] := by
  have stays := rest worker .proceed
  have idle := rest worker .panic
  unfold work at stays idle
  cases stood : pool.workers worker <;> rw [stood] at stays idle <;>
    first
    | exact .inl rfl
    | cases stays; done
    | cases idle; done
    | skip
  cases queued : pool.ready with
  | nil => exact .inr ⟨rfl, rfl⟩
  | cons frame later =>
    rw [queued] at stays
    cases stays

theorem promises_of_invariant {pool : Pool} (invariant : Invariant pool) : Promises pool := by
  have ⟨marks, order, books, threads⟩ := invariant
  refine ⟨?_, order.started_sorted, threads.threaded, books.once, ?_⟩
  · intro worker other frame next state current runs follows same
    apply marks.carrier worker other frame.conn
    · rw [runs]
      rfl
    · rw [follows, same]
      rfl
  · rintro ⟨present, there⟩ rest frame fired
    have empty : pool.ready = [] := by
      rcases rest_pulling rest present with absent | ⟨_, empty⟩
      · exact absurd absent there
      · exact empty
    have quiet : ∀ worker, (pool.workers worker).holds = none ∧
        (pool.workers worker).serves = none := by
      intro worker
      rcases rest_pulling rest worker with stood | ⟨stood, _⟩ <;> rw [stood] <;> exact ⟨rfl, rfl⟩
    rcases books.covered frame fired with done | listed | waits | ⟨holder, holds⟩
    · exact done
    · rw [empty] at listed
      cases listed
    · rcases marks.served frame waits with ⟨_, queued, _⟩ | ⟨holder, serves⟩
      · rw [empty] at queued
        cases queued
      · rw [(quiet holder).2] at serves
        cases serves
    · rw [(quiet holder).1] at holds
      cases holds

/-- In a run of orderly steps the pool keeps its promises in every state. -/
theorem frames_in_order (labels : List Label) (state : State)
    (path : StepSystem.Path system Orderly system.init labels state) : Promises state.pool :=
  promises_of_invariant (StepSystem.path_preserves invariant_preserved path invariant_initial)

def firstFrame : List Label :=
  [.attach, .attachOpen, .attachInsert, .spawn 0, .work 0 .proceed, .fire 1, .work 0 .proceed,
    .work 0 .proceed]

theorem firstFrame_path : ∃ state : State,
    StepSystem.Path system Orderly system.init firstFrame state ∧
      startedIds 1 state.pool.history = [0] := by
  refine ⟨_, ⟨trivial, _, rfl, trivial, _, rfl, trivial, _, rfl, trivial, _, rfl, nofun, _, rfl,
    fun _ => ⟨by decide, nofun⟩, _, rfl, nofun, _, rfl, ?_, _, rfl, rfl⟩, rfl⟩
  rintro frame ⟨⟩
  refine ⟨rfl, ?_⟩
  intro worker state held
  by_cases same : worker = 0
  · rw [same] at held
    have absurd : (none : Option (Nat × Value)) = some (1, state) := held
    cases absurd
  · have idle : (Phase.absent).unwritten = some (1, state) := by
      rw [← held]
      symm
      exact congrArg Phase.unwritten ((Function.update_of_ne same _ _).trans
        ((Function.update_of_ne same _ _).trans (Function.update_of_ne same _ _)))
    cases idle

theorem frames_in_order_first : ∃ state : State,
    startedIds 1 state.pool.history = [0] ∧ Promises state.pool := by
  obtain ⟨state, path, begun⟩ := firstFrame_path
  exact ⟨state, begun, frames_in_order firstFrame state path⟩

def staleRun : List Label :=
  [.attach, .attachOpen, .attachInsert, .spawn 0, .spawn 1, .work 0 .proceed, .work 1 .proceed,
    .fire 1, .fire 1, .work 0 .proceed, .work 0 .proceed,
    .work 0 (.finish (.ok (some (.int 1)))), .work 0 .proceed, .work 1 .proceed,
    .work 1 .proceed]

theorem stale_state_handed :
    ¬ ∀ labels state, StepSystem.Path system StepSystem.Unrestricted system.init labels state →
      Promises state.pool := by
  intro promised
  have threaded := (promised staleRun _ (StepSystem.path_of_run _ _ _ rfl)).threaded
  have handed : Value.null = .int 1 := threaded.1
  cases handed

end OnlyJs.Bridge.FramePool
