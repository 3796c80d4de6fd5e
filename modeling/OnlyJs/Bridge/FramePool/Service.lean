import OnlyJs.Bridge.FramePool.Upkeep

/-!
# Service of attached connections

Where the pool is closed only when nobody is attached or about to be and no frame is
queued, where a connection that brings up no workers finds one, where a worker that is
lost is replaced unless nothing is left to do, and where no frame is fired between the two
halves of a recovery: a frame of an attached connection is refused only if its worker
panics over it, somebody will look at the queue, and what waits is released.
-/

namespace OnlyJs.Bridge.FramePool

open Lib List Option Function

def Thread.manned : Thread → Bool
  | .gone => false
  | .leaving => false
  | _ => true

def Thread.awake (permit : Bool) (round : Nat) : Thread → Bool
  | .gone => false
  | .leaving => false
  | .pulling (.awaiting noted) => permit || noted ≠ round
  | .pulling .parked => false
  | _ => true

/-- A lost worker need not be replaced: nothing is queued, and another worker stays, or
no session is there or about to come without workers of its own. -/
def Route.Spare (route : Route) (worker : Nat) : Prop :=
  route.pool.ready = [] ∧
    ((∃ other, other ≠ worker ∧ (route.threads other).manned = true) ∨
      (route.hasSessions = false ∧ route.quiet = 0))

/-- The pool is closed while nobody is attached or attaching, no frame is queued, and none
waits that was fired on a connection with a session. An attaching connection brings up
workers or finds one. A lost worker finds the workers too few and a session, or is spare.
No frame is fired on a connection that is still marked after a panic. -/
def Careful (workers : Nat) (route : Route) : RouteLabel → Prop
  | .retireClose => route.hasSessions = false ∧ route.state.opened = 0 ∧ route.pool.ready = [] ∧
      ∀ frame ∈ route.pool.waiting, frame.id ∉ route.owed
  | .attachOpen => route.pool.closed = true ∨ route.live = 0 ∨
      ∃ worker, (route.threads worker).manned = true
  | .measure worker =>
    match route.threads worker with
    | .counted => route.live < max workers 1 ∨ route.Spare worker
    | .short => route.hasSessions = true ∨ route.Spare worker
    | _ => True
  | .fire conn => ∀ worker, route.pool.workers worker ≠ .dropped conn
  | _ => True

/-- Frames are numbered, and a frame fired on a connection with a session is refused only
by a panic. -/
structure Accounts (pool : Pool) (owed crashed : List Nat) : Prop where
  sound : Sound pool
  numbered : ∀ frame, pool.Known frame → frame.id < pool.nextFrame
  owed_numbered : ∀ id ∈ owed, id < pool.nextFrame
  refused : ∀ frame, .answered frame .poolClosed ∈ pool.history → frame.id ∈ owed →
    frame.id ∈ crashed

variable {pool next : Pool} {owed crashed : List Nat}

theorem Accounts.congr (accounts : Accounts pool owed crashed) (sound : Sound next)
    (known : ∀ frame, next.Known frame → pool.Known frame)
    (refused : ∀ frame, .answered frame .poolClosed ∈ next.history →
      .answered frame .poolClosed ∈ pool.history)
    (nextFrame : next.nextFrame = pool.nextFrame) : Accounts next owed crashed := by
  refine ⟨sound, ?_, ?_, fun frame answered => accounts.refused frame (refused frame answered)⟩
  · intro frame listed
    rw [nextFrame]
    exact accounts.numbered frame (known frame listed)
  · rw [nextFrame]
    exact accounts.owed_numbered

theorem Accounts.work (accounts : Accounts pool owed crashed) {worker : Nat} {input : Input}
    (loads : input ≠ .fail) (worked : work pool worker input = some next) :
    Accounts next owed (Route.crash (pool.workers worker) input ++ crashed) := by
  have sound := accounts.sound
  have same := work_next worked
  refine ⟨work_sound sound loads worked, ?_, ?_, ?_⟩
  · intro frame known
    rw [same]
    exact accounts.numbered frame (work_known sound worked known)
  · rw [same]
    exact accounts.owed_numbered
  · intro frame answered promised
    rcases work_refuses sound loads worked answered with old | ⟨⟨state, stood⟩, rfl⟩
    · exact mem_append_right _ (accounts.refused frame old promised)
    · rw [stood]
      exact mem_append_left _ (mem_singleton.mpr rfl)

variable {conn : Nat}

/-- A frame is fired on a connection, which has a session only while the pool is open. -/
theorem Accounts.submit (accounts : Accounts pool owed crashed) (proper : conn ≠ 0)
    (settled : ∀ worker, pool.workers worker ≠ .dropped conn)
    (served : pool.closed = true → (pool.sessions.lookup conn).isSome = false) :
    Accounts (pool.submit conn)
      (if (pool.sessions.lookup conn).isSome then pool.nextFrame :: owed else owed) crashed := by
  have later : (pool.submit conn).nextFrame = pool.nextFrame + 1 := by
    unfold Pool.submit
    dsimp only
    split
    · rfl
    · split <;> rfl
  have known : ∀ frame, (pool.submit conn).Known frame →
      pool.Known frame ∨ frame.id = pool.nextFrame := by
    intro frame
    unfold Pool.submit
    dsimp only
    split
    · rintro (listed | listed | held | ⟨answer, answered⟩)
      · exact .inl (.inl listed)
      · exact .inl (.inr (.inl listed))
      · exact .inl (.inr (.inr (.inl held)))
      · rcases mem_answer answered with ⟨new, -⟩ | old
        · rw [mem_singleton.mp new]
          exact .inr rfl
        · exact .inl (.inr (.inr (.inr ⟨answer, by simpa using old⟩)))
    · split
      · rintro (listed | listed | held | ⟨answer, answered⟩)
        · exact .inl (.inl listed)
        · rcases mem_append.mp listed with old | new
          · exact .inl (.inr (.inl old))
          · rw [mem_singleton.mp new]
            exact .inr rfl
        · exact .inl (.inr (.inr (.inl held)))
        · exact .inl (.inr (.inr (.inr ⟨answer, by simpa using answered⟩)))
      · rintro (listed | listed | held | ⟨answer, answered⟩)
        · rcases mem_append.mp listed with old | new
          · exact .inl (.inl old)
          · rw [mem_singleton.mp new]
            exact .inr rfl
        · exact .inl (.inr (.inl listed))
        · exact .inl (.inr (.inr (.inl held)))
        · exact .inl (.inr (.inr (.inr ⟨answer, by simpa using answered⟩)))
  have refused : ∀ frame, .answered frame .poolClosed ∈ (pool.submit conn).history →
      .answered frame .poolClosed ∈ pool.history ∨
        frame.id = pool.nextFrame ∧ (pool.sessions.lookup conn).isSome = false := by
    intro frame
    unfold Pool.submit
    dsimp only
    split
    · rename_i shut
      intro answered
      rcases mem_answer answered with ⟨new, -⟩ | old
      · rw [mem_singleton.mp new]
        exact .inr ⟨rfl, served shut⟩
      · exact .inl (by simpa using old)
    · split <;> exact fun answered => .inl (by simpa using answered)
  refine ⟨accounts.sound.submit proper settled, ?_, ?_, ?_⟩
  · intro frame listed
    rw [later]
    rcases known frame listed with old | new
    · exact (accounts.numbered frame old).trans (Nat.lt_succ_self _)
    · exact new ▸ Nat.lt_succ_self _
  · intro id listed
    rw [later]
    split at listed
    · rcases mem_cons.mp listed with rfl | old
      · exact Nat.lt_succ_self _
      · exact (accounts.owed_numbered id old).trans (Nat.lt_succ_self _)
    · exact (accounts.owed_numbered id listed).trans (Nat.lt_succ_self _)
  · intro frame answered promised
    have before : .answered frame .poolClosed ∈ pool.history → frame.id ∈ owed := by
      intro old
      split at promised
      · rcases mem_cons.mp promised with same | listed
        · have earlier := accounts.numbered frame (.inr (.inr (.inr ⟨_, old⟩)))
          rw [same] at earlier
          exact absurd earlier (lt_irrefl _)
        · exact listed
      · exact promised
    rcases refused frame answered with old | ⟨new, bare⟩
    · exact accounts.refused frame old (before old)
    · rw [bare, if_neg Bool.false_ne_true] at promised
      have earlier := accounts.owed_numbered _ promised
      rw [new] at earlier
      exact absurd earlier (lt_irrefl _)

theorem Accounts.close (accounts : Accounts pool owed crashed) (empty : pool.ready = [])
    (free : ∀ frame ∈ pool.waiting, frame.id ∉ owed) : Accounts pool.close owed crashed := by
  refine ⟨accounts.sound.close empty, ?_, accounts.owed_numbered, ?_⟩
  · rintro frame (listed | listed | held | ⟨answer, answered⟩)
    · cases listed
    · cases listed
    · exact accounts.numbered frame (.inr (.inr (.inl held)))
    · rcases mem_answer answered with ⟨listed, -⟩ | old
      · rw [empty, nil_append] at listed
        exact accounts.numbered frame (.inr (.inl listed))
      · exact accounts.numbered frame (.inr (.inr (.inr ⟨answer, old⟩)))
  · intro frame answered promised
    rcases mem_answer answered with ⟨listed, -⟩ | old
    · rw [empty, nil_append] at listed
      exact absurd promised (free frame listed)
    · exact accounts.refused frame old promised

theorem Accounts.dropConn (accounts : Accounts pool owed crashed) (conn : Nat) :
    Accounts (pool.dropConn conn) owed crashed := by
  have sound := accounts.sound
  have dropped : Sound (pool.dropConn conn) :=
    ⟨sound.marks.dropConn conn, sound.carried, sound.proper, sound.unfailed, sound.healthy⟩
  refine accounts.congr dropped ?_ ?_ rfl
  · rintro frame (listed | listed | held | ⟨answer, answered⟩)
    · exact .inl listed
    · exact .inr (.inl (mem_of_mem_filter listed))
    · exact .inr (.inr (.inl held))
    · rcases mem_answer answered with ⟨listed, -⟩ | old
      · exact .inr (.inl (mem_of_mem_filter listed))
      · exact .inr (.inr (.inr ⟨answer, old⟩))
  · intro frame answered
    rcases mem_answer answered with ⟨-, given⟩ | old
    · cases given
    · exact old

/-- A worker in `pull` is so in the pool, the waiting ones are listed, and while a
notification is stored nobody waits. -/
structure Bench (phases : Nat → Phase) (threads : Nat → Thread) (parked : List Nat)
    (permit : Bool) (round : Nat) : Prop where
  pulling : ∀ worker pull, threads worker = .pulling pull → phases worker = .pulling
  listed : ∀ worker, threads worker = .pulling .parked ↔ worker ∈ parked
  distinct : parked.Nodup
  stored : permit = true → parked = []
  noted : ∀ worker noted, threads worker = .pulling (.checking noted) ∨
    threads worker = .pulling (.awaiting noted) → noted ≤ round

variable {phases after : Nat → Phase} {threads : Nat → Thread} {parked rest : List Nat}
  {permit : Bool} {round worker : Nat} {thread : Thread}

theorem Bench.turn (bench : Bench phases threads parked permit round)
    (before : threads worker ≠ .pulling .parked) (now : thread ≠ .pulling .parked)
    (others : ∀ other pull, other ≠ worker → threads other = .pulling pull →
      after other = phases other)
    (pulling : ∀ pull, thread = .pulling pull → after worker = .pulling)
    (noted : ∀ noted, thread = .pulling (.checking noted) ∨ thread = .pulling (.awaiting noted) →
      noted ≤ round) :
    Bench after (Function.update threads worker thread) parked permit round := by
  refine ⟨?_, ?_, bench.distinct, bench.stored, ?_⟩
  · intro other pull stood
    rw [update_apply] at stood
    split at stood
    · rename_i own
      rw [own]
      exact pulling pull stood
    · rename_i differs
      exact (others other pull differs stood).trans (bench.pulling other pull stood)
  · intro other
    rw [update_apply]
    split
    · rename_i own
      rw [own, ← bench.listed worker]
      exact ⟨fun stood => absurd stood now, fun stood => absurd stood before⟩
    · exact bench.listed other
  · intro other held stood
    rw [update_apply] at stood
    split at stood
    · exact noted held stood
    · exact bench.noted other held stood

theorem Bench.started (bench : Bench phases threads parked permit round)
    (before : threads worker ≠ .pulling .parked)
    (others : ∀ other pull, other ≠ worker → threads other = .pulling pull →
      after other = phases other) :
    Bench after (Function.update threads worker .started) parked permit round :=
  bench.turn before nofun others nofun fun _ goes => goes.elim nofun nofun

theorem Bench.notify (bench : Bench phases threads (worker :: rest) permit round) :
    Bench phases (Function.update threads worker (.pulling .fresh)) rest permit round := by
  obtain ⟨apart, distinct⟩ := nodup_cons.mp bench.distinct
  have stood : threads worker = .pulling .parked :=
    (bench.listed worker).mpr mem_cons_self
  refine ⟨?_, ?_, distinct, fun stored => (nomatch bench.stored stored), ?_⟩
  · intro other pull held
    rw [update_apply] at held
    split at held
    · rename_i own
      rw [own]
      exact bench.pulling worker _ stood
    · exact bench.pulling other pull held
  · intro other
    rw [update_apply]
    split
    · rename_i own
      rw [own]
      exact ⟨nofun, fun listed => absurd listed apart⟩
    · rename_i differs
      rw [bench.listed other, mem_cons]
      exact ⟨fun listed => listed.resolve_left differs, .inr⟩
  · intro other held stands
    rw [update_apply] at stands
    split at stands
    · rcases stands with stands | stands <;> cases stands
    · exact bench.noted other held stands

theorem Bench.wake (bench : Bench phases threads parked permit round) :
    Bench phases (fun worker =>
      if threads worker = .pulling .parked then .pulling .fresh else threads worker) [] permit
        (round + 1) := by
  refine ⟨?_, ?_, .nil, fun _ => rfl, ?_⟩
  · intro other pull stood
    split at stood
    · rename_i waits
      exact bench.pulling other _ waits
    · exact bench.pulling other pull stood
  · intro other
    split
    · exact ⟨nofun, nofun⟩
    · rename_i differs
      exact ⟨fun stood => absurd stood differs, nofun⟩
  · intro other held stood
    split at stood
    · rcases stood with stood | stood <;> cases stood
    · exact (bench.noted other held stood).trans (Nat.le_succ _)

theorem Bench.park (bench : Bench phases threads parked false round) {noted : Nat}
    (before : threads worker = .pulling (.awaiting noted)) :
    Bench phases (Function.update threads worker (.pulling .parked)) (parked ++ [worker]) false
      round := by
  refine ⟨?_, ?_, ?_, nofun, ?_⟩
  · intro other pull stood
    rw [update_apply] at stood
    split at stood
    · rename_i own
      rw [own]
      exact bench.pulling worker _ before
    · exact bench.pulling other pull stood
  · intro other
    rw [update_apply, mem_append, mem_singleton]
    split
    · rename_i own
      exact ⟨fun _ => .inr own, fun _ => rfl⟩
    · rename_i differs
      rw [bench.listed other]
      exact ⟨.inl, fun listed => listed.resolve_right differs⟩
  · refine nodup_append.mpr ⟨bench.distinct, nodup_singleton _, ?_⟩
    rintro other listed last same rfl
    rw [mem_singleton.mp same, ← bench.listed, before] at listed
    cases listed
  · intro other held stood
    rw [update_apply] at stood
    split at stood
    · rcases stood with stood | stood <;> cases stood
    · exact bench.noted other held stood

/-- Where a session is there, or about to come without workers of its own, a worker stays
or is about to be spawned. -/
def Staffed (sessions : Bool) (threads : Nat → Thread) (quiet loud spawning : Nat) : Prop :=
  sessions = true ∨ 0 < quiet →
    (∃ worker, (threads worker).manned = true) ∨ 0 < loud ∨ 0 < spawning

/-- Where a frame is queued and a worker stays, a worker is awake or a call is about to
notify one. -/
def Heard (ready : List Frame) (threads : Nat → Thread) (permit : Bool) (round notifying : Nat) :
    Prop :=
  ready ≠ [] → (∃ worker, (threads worker).manned = true) →
    (∃ worker, (threads worker).awake permit round = true) ∨ 0 < notifying

theorem awake_manned {thread : Thread} (awake : thread.awake permit round = true) :
    thread.manned = true := by
  cases thread <;> first | rfl | cases awake

theorem update_manned (manned : thread.manned = true) :
    ∃ other, (Function.update threads worker thread other).manned = true :=
  ⟨worker, by rw [update_self]; exact manned⟩

theorem heard_update {ready : List Frame} {notifying : Nat}
    (awake : thread.awake permit round = true) :
    Heard ready (Function.update threads worker thread) permit round notifying :=
  fun _ _ => .inl ⟨worker, by rw [update_self]; exact awake⟩

theorem update_others {other : Nat} (manned : (threads other).manned = true)
    (before : (threads worker).manned = false) :
    (Function.update threads worker thread other).manned = true := by
  rw [update_apply]
  split
  · rename_i own
    rw [own, before] at manned
    cases manned
  · exact manned

theorem awake_of_stored (bench : Bench phases threads [] permit round)
    (manned : (threads worker).manned = true) : (threads worker).awake true round = true := by
  cases stood : threads worker with
  | gone | leaving =>
    rw [stood] at manned
    cases manned
  | pulling pull =>
    cases pull with
    | parked =>
      have absurd := (bench.listed worker).mp stood
      cases absurd
    | _ => rfl
  | _ => rfl

theorem awake_of_woken (bench : Bench phases threads parked permit round)
    (manned : (if threads worker = .pulling .parked then .pulling .fresh
      else threads worker : Thread).manned = true) :
    (if threads worker = .pulling .parked then .pulling .fresh
      else threads worker : Thread).awake permit (round + 1) = true := by
  split
  · rfl
  · rename_i differs
    rw [if_neg differs] at manned
    cases stood : threads worker with
    | gone | leaving =>
      rw [stood] at manned
      cases manned
    | pulling pull =>
      cases pull with
      | parked => exact absurd stood differs
      | awaiting noted =>
        have bound := bench.noted worker noted (.inr stood)
        simp only [Thread.awake, Bool.or_eq_true, decide_eq_true_eq]
        exact .inr (by omega)
      | _ => rfl
    | _ => rfl

/-- A closed pool has no sessions, and the calls that have passed the scheduler are those
that spawn and those that do not. -/
structure Doors (closed sessions : Bool) (opened quiet loud : Nat) : Prop where
  shut : closed = true → sessions = false ∧ opened = 0
  calls : quiet + loud = opened

structure Service (route : Route) : Prop where
  accounts : Accounts route.pool route.owed route.crashed
  doors : Doors route.pool.closed route.hasSessions route.state.opened route.quiet route.loud
  bench : Bench route.pool.workers route.threads route.parked route.permit route.round
  staffed : Staffed route.hasSessions route.threads route.quiet route.loud route.spawning
  heard : Heard route.pool.ready route.threads route.permit route.round route.notifying

variable {route later : Route} {workers : Nat} {input : Input}

theorem hasSessions_iff (route : Route) :
    route.hasSessions = true ↔ ∃ conn, (route.pool.sessions.lookup conn).isSome = true := by
  unfold Route.hasSessions
  rw [decide_eq_true_eq, seated_iff]

theorem hasSessions_congr
    (same : ∀ conn, (later.pool.sessions.lookup conn).isSome =
      (route.pool.sessions.lookup conn).isSome) : later.hasSessions = route.hasSessions := by
  rw [Bool.eq_iff_iff, hasSessions_iff, hasSessions_iff]
  exact exists_congr fun conn => by rw [same]

theorem afterwards_awake (phase : Phase) :
    (Route.afterwards phase).awake permit round = true := by
  cases phase <;> rfl

theorem afterwards_manned (phase : Phase) : (Route.afterwards phase).manned = true := by
  cases phase <;> rfl

section

variable (service : Service route)
include service

theorem Service.work (stood : route.threads worker = .started) (loads : input ≠ .fail)
    (worked : FramePool.work route.pool worker input = some pool) :
    Service { (route.withPool pool).become worker (Route.afterwards (pool.workers worker)) with
      notifying := route.notifying + Route.notifies (route.pool.workers worker)
      crashed := Route.crash (route.pool.workers worker) input ++ route.crashed } := by
  obtain ⟨closed, others, seated⟩ := work_kept service.accounts.sound loads worked
  have sessions : (route.withPool pool).hasSessions = route.hasSessions := hasSessions_congr seated
  refine ⟨service.accounts.work loads worked, ?_, ?_, fun _ => .inl (update_manned ?_),
    heard_update (afterwards_awake _)⟩
  · refine ⟨fun shut => ?_, service.doors.calls⟩
    obtain ⟨empty, opened⟩ := service.doors.shut (closed.symm.trans shut)
    exact ⟨sessions.trans empty, opened⟩
  · refine service.bench.turn ?_ ?_ (fun other _ differs _ => others other differs) ?_ ?_
    · rw [stood]
      exact nofun
    · cases pool.workers worker <;> nofun
    · intro pull goes
      cases phase : pool.workers worker <;> rw [phase] at goes <;>
        first | exact phase | cases goes
    · intro noted goes
      cases phase : pool.workers worker <;> rw [phase] at goes <;>
        rcases goes with goes | goes <;> cases goes
  · exact afterwards_manned _

theorem Service.stir (before : route.threads worker ≠ .pulling .parked)
    (now : thread ≠ .pulling .parked)
    (pulling : ∀ pull, thread = .pulling pull → route.pool.workers worker = .pulling)
    (noted : ∀ noted, thread = .pulling (.checking noted) ∨ thread = .pulling (.awaiting noted) →
      noted ≤ route.round)
    (awake : thread.awake route.permit route.round = true) :
    Service (route.become worker thread) :=
  ⟨service.accounts, service.doors,
    service.bench.turn before now (fun _ _ _ _ => rfl) pulling noted,
    fun _ => .inl (update_manned (awake_manned awake)), heard_update awake⟩

/-- A worker looks at the queue: it takes a frame, leaves a closed pool, or goes on to wait. -/
theorem Service.check {noted : Nat} (stood : route.threads worker = .pulling (.checking noted))
    (stepped : route.pull worker (.checking noted) = some later) : Service later := by
  have phase := service.bench.pulling worker _ stood
  have before : route.threads worker ≠ .pulling .parked := by
    rw [stood]
    exact nofun
  have bound := service.bench.noted worker noted (.inl stood)
  unfold Route.pull at stepped
  cases worked : FramePool.work route.pool worker .proceed with
  | some pool =>
    rw [worked] at stepped
    cases stepped
    have loads : Input.proceed ≠ .fail := nofun
    obtain ⟨closed, others, seated⟩ := work_kept service.accounts.sound loads worked
    have sessions : (route.withPool pool).hasSessions = route.hasSessions :=
      hasSessions_congr seated
    have accounts := service.accounts.work loads worked
    rw [phase] at accounts
    have doors : Doors pool.closed (route.withPool pool).hasSessions route.state.opened
        route.quiet route.loud := by
      refine ⟨fun shut => ?_, service.doors.calls⟩
      obtain ⟨empty, opened⟩ := service.doors.shut (closed.symm.trans shut)
      exact ⟨sessions.trans empty, opened⟩
    unfold FramePool.work at worked
    rw [phase] at worked
    dsimp only at worked
    split at worked
    · cases worked
      rw [Pool.place_workers, if_pos rfl]
      refine ⟨accounts, doors, ?_, fun _ => .inl (update_manned rfl), heard_update rfl⟩
      exact service.bench.turn before nofun (fun other _ differs _ => others other differs) nofun
        fun _ goes => goes.elim nofun nofun
    · rename_i empty
      split at worked <;> cases worked
      rename_i shut
      rw [Pool.place_workers, if_pos rfl]
      refine ⟨accounts, doors, ?_, ?_, fun queued => absurd empty queued⟩
      · exact service.bench.turn before nofun (fun other _ differs _ => others other differs)
          nofun fun _ goes => goes.elim nofun nofun
      · obtain ⟨vacant, opened⟩ := service.doors.shut shut
        have calls := service.doors.calls
        rintro (seats | quiet)
        · exact absurd (vacant.symm.trans seats) Bool.false_ne_true
        · have quiet : 0 < route.quiet := quiet
          omega
  | none =>
    rw [worked] at stepped
    cases stepped
    have empty : route.pool.ready = [] := by
      unfold FramePool.work at worked
      rw [phase] at worked
      dsimp only at worked
      split at worked
      · cases worked
      · assumption
    refine ⟨service.accounts, service.doors, ?_, fun _ => .inl (update_manned rfl),
      fun queued => absurd empty queued⟩
    refine service.bench.turn before nofun (fun _ _ _ _ => rfl) (fun _ _ => phase) ?_
    rintro other (goes | goes) <;> cases goes
    exact bound

/-- A worker that has found nothing waits, unless it is notified already. -/
theorem Service.await {noted : Nat} (stood : route.threads worker = .pulling (.awaiting noted))
    (stepped : route.pull worker (.awaiting noted) = some later) : Service later := by
  have phase := service.bench.pulling worker _ stood
  have before : route.threads worker ≠ .pulling .parked := by
    rw [stood]
    exact nofun
  have fresh : ∀ permit, (permit = true → route.parked = []) →
      Bench route.pool.workers (Function.update route.threads worker (.pulling .fresh))
        route.parked permit route.round := by
    intro permit stored
    have now : Thread.pulling .fresh ≠ .pulling .parked := nofun
    have bench := service.bench.turn before now (fun _ _ _ _ => rfl) (fun _ _ => phase)
      fun _ goes => goes.elim nofun nofun
    exact ⟨bench.pulling, bench.listed, bench.distinct, stored, bench.noted⟩
  simp only [Route.pull] at stepped
  split at stepped
  · cases stepped
    exact ⟨service.accounts, service.doors, fresh false nofun, fun _ => .inl (update_manned rfl),
      heard_update rfl⟩
  · rename_i empty
    have empty : route.permit = false := by simpa using empty
    split at stepped
    · cases stepped
      exact ⟨service.accounts, service.doors, fresh _ service.bench.stored,
        fun _ => .inl (update_manned rfl), heard_update rfl⟩
    · rename_i same
      have same : noted = route.round := by simpa using same
      cases stepped
      have bench := service.bench
      rw [empty] at bench
      have parks := bench.park stood
      rw [← empty] at parks
      refine ⟨service.accounts, service.doors, parks, fun _ => .inl (update_manned rfl), ?_⟩
      intro queued manned
      -- the worker that goes to wait was not awake itself
      rcases service.heard queued ⟨worker, by rw [stood]; rfl⟩ with ⟨other, awake⟩ | notifying
      · refine .inl ⟨other, ?_⟩
        by_cases own : other = worker
        · rw [own, stood] at awake
          simp [Thread.awake, empty, same] at awake
        · exact (congrArg _ (update_of_ne own _ _)).trans awake
      · exact .inr notifying

/-- A worker that leaves or is lost gives up its count. -/
theorem Service.discount (stepped : route.discount worker = some later) : Service later := by
  unfold Route.discount at stepped
  split at stepped
  case h_1 stood =>
    cases stepped
    have unmanned : (route.threads worker).manned = false := by
      rw [stood]
      rfl
    have unchanged : ∀ other, (Function.update route.threads worker Thread.gone other).manned =
        true → (route.threads other).manned = true := by
      intro other manned
      rw [update_apply] at manned
      split at manned
      · cases manned
      · exact manned
    refine ⟨service.accounts, service.doors, ?_, ?_, ?_⟩
    · refine service.bench.turn ?_ nofun (fun _ _ _ _ => rfl) nofun fun _ goes =>
        goes.elim nofun nofun
      rw [stood]
      exact nofun
    · intro wanted
      rcases service.staffed wanted with ⟨other, manned⟩ | coming
      · exact .inl ⟨other, update_others manned unmanned⟩
      · exact .inr coming
    · rintro queued ⟨other, manned⟩
      rcases service.heard queued ⟨other, unchanged other manned⟩ with ⟨other, awake⟩ | notifying
      · refine .inl ⟨other, ?_⟩
        by_cases own : other = worker
        · rw [own, stood] at awake
          cases awake
        · exact (congrArg _ (update_of_ne own _ _)).trans awake
      · exact .inr notifying
  case h_2 stood =>
    cases stepped
    refine ⟨service.accounts, service.doors, ?_, fun _ => .inl (update_manned rfl),
      heard_update rfl⟩
    refine service.bench.turn ?_ nofun (fun _ _ _ _ => rfl) nofun fun _ goes =>
      goes.elim nofun nofun
    rw [stood]
    exact nofun
  case h_3 => cases stepped

theorem Service.spare (before : route.threads worker ≠ .pulling .parked)
    (spare : route.Spare worker) : Service (route.become worker .gone) := by
  obtain ⟨empty, others⟩ := spare
  refine ⟨service.accounts, service.doors, ?_, ?_, fun queued => absurd empty queued⟩
  · exact service.bench.turn before nofun (fun _ _ _ _ => rfl) nofun fun _ goes =>
      goes.elim nofun nofun
  · rintro wanted
    rcases others with ⟨other, differs, manned⟩ | ⟨vacant, none⟩
    · exact .inl ⟨other, (congrArg _ (update_of_ne differs _ _)).trans manned⟩
    · rcases wanted with seats | quiet
      · exact absurd (vacant.symm.trans seats) Bool.false_ne_true
      · exact absurd none (Nat.pos_iff_ne_zero.mp quiet)

theorem Service.measure (careful : Careful workers route (.measure worker))
    (stepped : route.measure workers worker = some later) : Service later := by
  unfold Route.measure at stepped
  split at stepped
  case h_1 stood =>
    simp only [Careful, stood] at careful
    have before : route.threads worker ≠ .pulling .parked := by
      rw [stood]
      exact nofun
    cases stepped
    split
    · exact service.stir before nofun nofun (fun _ goes => goes.elim nofun nofun) rfl
    · rename_i enough
      exact service.spare before (careful.resolve_left enough)
  case h_2 stood =>
    simp only [Careful, stood] at careful
    have before : route.threads worker ≠ .pulling .parked := by
      rw [stood]
      exact nofun
    cases stepped
    split
    · exact service.stir before nofun nofun (fun _ goes => goes.elim nofun nofun) rfl
    · rename_i vacant
      exact service.spare before (careful.resolve_left vacant)
  case h_3 => cases stepped

end

theorem service_spawnWorker (stepped : route.spawnWorker worker = some later)
    (accounts : Accounts route.pool route.owed route.crashed)
    (doors : Doors route.pool.closed route.hasSessions route.state.opened route.quiet route.loud)
    (bench : Bench route.pool.workers route.threads route.parked route.permit route.round)
    (spawning : Nat) :
    Service { later with spawning } := by
  obtain ⟨stood, stepped⟩ := ite_none_right_eq_some.mp stepped
  obtain ⟨state, started, rfl⟩ := map_eq_some_iff.mp stepped
  have fair : Fair route.state (.spawn worker) := trivial
  have sound := step_sound accounts.sound fair started
  rw [step] at started
  split at started
  · cases started
    have placed : Accounts (route.pool.place worker .starting) route.owed route.crashed := by
      refine accounts.congr sound ?_ (fun _ answered => answered) rfl
      intro frame known
      exact known_place known (fun _ listed => .inl listed) (fun _ listed => .inr (.inl listed)) rfl
        (fun _ answer answered => .inr (.inr (.inr ⟨answer, answered⟩)))
        fun _ holds => by cases holds
    refine ⟨placed, doors, bench.started ?_ ?_, fun _ => .inl (update_manned rfl),
      heard_update rfl⟩
    · rw [stood]
      decide
    · intro other _ differs _
      exact update_of_ne differs _ _
  · cases started

section

variable (service : Service route)
include service

theorem Service.notify (notifying : Nat) :
    Service ({ route with notifying }.notifyOne) := by
  have bench := service.bench
  unfold Route.notifyOne
  split
  · rename_i empty
    have empty : route.parked = [] := empty
    rw [empty] at bench
    have stored : Bench route.pool.workers route.threads route.parked true route.round := by
      rw [empty]
      exact ⟨bench.pulling, bench.listed, bench.distinct, fun _ => rfl, bench.noted⟩
    refine ⟨service.accounts, service.doors, stored, service.staffed, ?_⟩
    rintro - ⟨worker, manned⟩
    exact .inl ⟨worker, awake_of_stored bench manned⟩
  · rename_i worker rest first
    have first : route.parked = worker :: rest := first
    rw [first] at bench
    exact ⟨service.accounts, service.doors, bench.notify, fun _ => .inl (update_manned rfl),
      heard_update rfl⟩

theorem Service.broadcast (broadcasting : Nat) :
    Service ({ route with broadcasting }.notifyWaiters) := by
  have kept : ∀ worker, (if route.threads worker = .pulling .parked then .pulling .fresh
      else route.threads worker : Thread).manned = (route.threads worker).manned := by
    intro worker
    split
    · rename_i stood
      rw [stood]
      rfl
    · rfl
  refine ⟨service.accounts, service.doors, service.bench.wake, ?_, ?_⟩
  · intro wanted
    rcases service.staffed wanted with ⟨worker, manned⟩ | coming
    · exact .inl ⟨worker, (kept worker).trans manned⟩
    · exact .inr coming
  · rintro - ⟨worker, manned⟩
    exact .inl ⟨worker, awake_of_woken service.bench manned⟩

theorem Service.attachOpen (careful : Careful workers route .attachOpen)
    (stepped : routeStep workers route .attachOpen = some later) : Service later := by
  obtain ⟨state, opens, rfl⟩ := map_eq_some_iff.mp stepped
  have fair : Fair route.state .attachOpen := trivial
  have sound := step_sound service.accounts.sound fair opens
  obtain ⟨-, same⟩ := ite_none_left_eq_some.mp opens
  cases same
  have calls := service.doors.calls
  have accounts : Accounts { route.pool with closed := false } route.owed route.crashed :=
    service.accounts.congr sound (fun _ known => known) (fun _ answered => answered) rfl
  split
  · refine ⟨accounts, ⟨nofun, ?_⟩, service.bench, fun _ => .inr (.inl (Nat.succ_pos _)),
      service.heard⟩
    show route.quiet + (route.loud + 1) = route.state.opened + 1
    omega
  · rename_i quietly
    have manned : ∃ worker, (route.threads worker).manned = true := by
      rcases careful with shut | idle | manned
      · exact absurd (.inl shut) quietly
      · exact absurd (.inr idle) quietly
      · exact manned
    refine ⟨accounts, ⟨nofun, ?_⟩, service.bench, fun _ => .inl manned, service.heard⟩
    show route.quiet + 1 + route.loud = route.state.opened + 1
    omega

theorem Service.attachInsert {spawns : Bool}
    (stepped : routeStep workers route (.attachInsert spawns) = some later) : Service later := by
  have doors := service.doors
  have calls := doors.calls
  have open_ : route.state.opened ≠ 0 → route.pool.closed = true → False :=
    fun opened shut => opened (doors.shut shut).2
  cases spawns with
  | true =>
    obtain ⟨some, stepped⟩ := ite_none_left_eq_some.mp stepped
    obtain ⟨state, inserts, rfl⟩ := map_eq_some_iff.mp stepped
    have fair : Fair route.state .attachInsert := trivial
    have sound := step_sound service.accounts.sound fair inserts
    obtain ⟨opened, same⟩ := ite_none_left_eq_some.mp inserts
    cases same
    refine ⟨service.accounts.congr sound (fun _ known => known) (fun _ answered => answered) rfl,
      ⟨fun shut => (open_ opened shut).elim, ?_⟩, service.bench, fun _ => .inr (.inr ?_),
      service.heard⟩
    · show route.quiet + (route.loud - 1) = route.state.opened - 1
      omega
    · show 0 < route.spawning + max workers 1
      omega
  | false =>
    obtain ⟨some, stepped⟩ := ite_none_left_eq_some.mp stepped
    obtain ⟨state, inserts, rfl⟩ := map_eq_some_iff.mp stepped
    have fair : Fair route.state .attachInsert := trivial
    have sound := step_sound service.accounts.sound fair inserts
    obtain ⟨opened, same⟩ := ite_none_left_eq_some.mp inserts
    cases same
    refine ⟨service.accounts.congr sound (fun _ known => known) (fun _ answered => answered) rfl,
      ⟨fun shut => (open_ opened shut).elim, ?_⟩, service.bench, fun _ => ?_, service.heard⟩
    · show route.quiet - 1 + route.loud = route.state.opened - 1
      omega
    · exact service.staffed (.inr (Nat.pos_of_ne_zero some))

theorem Service.fire (careful : Careful workers route (.fire conn))
    (stepped : routeStep workers route (.fire conn) = some later) : Service later := by
  obtain ⟨state, fires, rfl⟩ := map_eq_some_iff.mp stepped
  obtain ⟨handed, same⟩ := ite_none_right_eq_some.mp fires
  cases same
  have kept : (route.pool.submit conn).closed = route.pool.closed ∧
      (route.pool.submit conn).sessions = route.pool.sessions ∧
        (route.pool.submit conn).workers = route.pool.workers ∧
          (route.pool.closed = true → (route.pool.submit conn).ready = route.pool.ready) := by
    unfold Pool.submit
    dsimp only
    split
    · exact ⟨rfl, rfl, rfl, fun _ => rfl⟩
    · rename_i running
      split <;> exact ⟨rfl, rfl, rfl, fun shut => absurd shut running⟩
  obtain ⟨closed, sessions, phases, refused⟩ := kept
  have vacant : route.pool.closed = true →
      (route.pool.sessions.lookup conn).isSome = false := by
    intro shut
    have none := (service.doors.shut shut).1
    rw [← Bool.not_eq_true] at none ⊢
    exact fun there => none ((hasSessions_iff route).mpr ⟨conn, there⟩)
  refine ⟨service.accounts.submit (handed_proper service.accounts.sound handed) careful vacant,
    ?_, ?_, ?_, ?_⟩
  · show Doors (route.pool.submit conn).closed
      (decide (FiniteMap.size (route.pool.submit conn).sessions ≠ 0)) _ _ _
    rw [closed, sessions]
    exact service.doors
  · show Bench (route.pool.submit conn).workers route.threads route.parked route.permit route.round
    rw [phases]
    exact service.bench
  · show Staffed (decide (FiniteMap.size (route.pool.submit conn).sessions ≠ 0)) _ _ _ _
    rw [sessions]
    exact service.staffed
  · intro queued manned
    dsimp only
    split
    · rename_i shut
      have ready : (route.pool.submit conn).ready ≠ [] := queued
      rw [refused shut] at ready
      exact service.heard ready manned
    · exact .inr (Nat.succ_pos _)

theorem Service.detach {state : State} (detaches : step route.state (.detach conn) = some state) :
    Service { route with state } := by
  have fair : Fair route.state (.detach conn) := trivial
  have sound := step_sound service.accounts.sound fair detaches
  obtain ⟨-, same⟩ := ite_none_right_eq_some.mp detaches
  cases same
  have fewer : ∀ other, ((route.pool.sessions.erase conn).lookup other).isSome = true →
      (route.pool.sessions.lookup other).isSome = true := by
    intro other there
    by_cases own : other = conn
    · rw [own, Finmap.lookup_erase] at there
      cases there
    · rwa [Finmap.lookup_erase_ne own] at there
  have seats : ∀ after : Route, after.pool.sessions = route.pool.sessions.erase conn →
      after.hasSessions = true → route.hasSessions = true := by
    intro after same there
    obtain ⟨other, found⟩ := (hasSessions_iff after).mp there
    rw [same] at found
    exact (hasSessions_iff route).mpr ⟨other, fewer other found⟩
  refine ⟨service.accounts.congr sound (fun _ known => known) (fun _ answered => answered) rfl,
    ⟨fun shut => ⟨?_, (service.doors.shut shut).2⟩, service.doors.calls⟩, service.bench, ?_,
    service.heard⟩
  · rw [← Bool.not_eq_true]
    intro there
    exact Bool.false_ne_true ((service.doors.shut shut).1.symm.trans (seats _ rfl there))
  · rintro (there | quiet)
    · exact service.staffed (.inl (seats _ rfl there))
    · exact service.staffed (.inr quiet)

theorem Service.retireClose (careful : Careful workers route .retireClose)
    (stepped : routeStep workers route .retireClose = some later) : Service later := by
  obtain ⟨state, closes, rfl⟩ := map_eq_some_iff.mp stepped
  obtain ⟨-, same⟩ := ite_none_right_eq_some.mp closes
  cases same
  obtain ⟨vacant, opened, empty, free⟩ := careful
  exact ⟨service.accounts.close empty free, ⟨fun _ => ⟨vacant, opened⟩, service.doors.calls⟩,
    service.bench, service.staffed, fun queued => absurd rfl queued⟩

theorem Service.beside {state : State} (pool : state.pool = route.pool)
    (opened : state.opened = route.state.opened) : Service { route with state } := by
  have accounts := service.accounts
  have doors := service.doors
  have bench := service.bench
  have staffed := service.staffed
  have heard := service.heard
  unfold Route.hasSessions at doors staffed
  rw [← pool] at accounts doors bench staffed heard
  rw [← opened] at doors
  exact ⟨accounts, doors, bench, staffed, heard⟩

end

theorem service_step : StepSystem.Preserved (routeSystem workers) (Careful workers) Service := by
  intro route label later service careful stepped
  cases label with
  | attach =>
    obtain ⟨state, attaches, rfl⟩ := map_eq_some_iff.mp stepped
    obtain ⟨-, same⟩ := ite_none_left_eq_some.mp attaches
    cases same
    exact service.beside rfl rfl
  | attachOpen => exact service.attachOpen careful stepped
  | attachInsert spawns => exact service.attachInsert stepped
  | attachSpawn worker =>
    obtain ⟨-, stepped⟩ := ite_none_left_eq_some.mp stepped
    obtain ⟨spawned, spawns, rfl⟩ := map_eq_some_iff.mp stepped
    exact service_spawnWorker spawns service.accounts service.doors service.bench _
  | fire conn => exact service.fire careful stepped
  | detach conn =>
    obtain ⟨state, detaches, rfl⟩ := map_eq_some_iff.mp stepped
    exact service.detach detaches
  | detachDrop conn =>
    obtain ⟨state, drops, rfl⟩ := map_eq_some_iff.mp stepped
    obtain ⟨-, same⟩ := ite_none_right_eq_some.mp drops
    cases same
    exact ⟨service.accounts.dropConn conn, service.doors, service.bench, service.staffed,
      service.heard⟩
  | detachCheck =>
    obtain ⟨state, checks, rfl⟩ := map_eq_some_iff.mp stepped
    obtain ⟨-, same⟩ := ite_none_left_eq_some.mp checks
    cases same
    exact service.beside rfl rfl
  | retireWake =>
    obtain ⟨state, wakes, rfl⟩ := map_eq_some_iff.mp stepped
    obtain ⟨-, same⟩ := ite_none_right_eq_some.mp wakes
    cases same
    exact service.beside rfl rfl
  | retireClose => exact service.retireClose careful stepped
  | notify =>
    obtain ⟨-, same⟩ := ite_none_left_eq_some.mp stepped
    cases same
    exact service.notify _
  | broadcast =>
    obtain ⟨-, same⟩ := ite_none_left_eq_some.mp stepped
    cases same
    exact service.broadcast _
  | work worker input =>
    replace stepped : route.work worker input = some later := stepped
    unfold Route.work at stepped
    split at stepped
    case h_1 => cases stepped
    case h_2 stood loads =>
      obtain ⟨pool, worked, rfl⟩ := map_eq_some_iff.mp stepped
      exact service.work stood (fun fails => loads fails) worked
    case h_3 pull stood =>
      cases pull with
      | fresh =>
        have phase := service.bench.pulling worker _ stood
        cases stepped
        refine service.stir ?_ nofun (fun _ _ => phase) ?_ rfl
        · rw [stood]
          exact nofun
        · rintro noted (goes | goes) <;> cases goes
          exact le_rfl
      | checking noted => exact service.check stood stepped
      | awaiting noted => exact service.await stood stepped
      | parked => cases stepped
    case h_4 => cases stepped
  | discount worker => exact service.discount stepped
  | measure worker => exact service.measure careful stepped
  | replace worker new =>
    obtain ⟨stood, spawns⟩ := ite_none_right_eq_some.mp stepped
    refine service_spawnWorker spawns service.accounts service.doors ?_ later.spawning
    refine service.bench.turn ?_ nofun (fun _ _ _ _ => rfl) nofun fun _ goes =>
      goes.elim nofun nofun
    rw [stood]
    exact nofun

theorem service_initial : Service .initial := by
  refine ⟨⟨sound_initial, ?_, nofun, nofun⟩, ⟨fun _ => ⟨rfl, rfl⟩, rfl⟩, ?_, ?_, nofun⟩
  · rintro frame (absurd | absurd | ⟨_, absurd⟩ | ⟨_, absurd⟩) <;> cases absurd
  · exact ⟨nofun, fun _ => ⟨nofun, nofun⟩, .nil, fun _ => rfl,
      fun _ _ goes => goes.elim nofun nofun⟩
  · rintro (absurd | absurd) <;> cases absurd

/-- In every careful run: a frame that was fired on a connection between its attach and its
detach is refused only if its worker panicked over it; where a frame is queued and a
session is there, a worker is awake, a notification is about to be given, or a worker is
about to be spawned; and what waits is behind a queued frame of its connection or a worker
that will release it, while every mark will be given up. -/
theorem connections_served
    (reached : StepSystem.Reachable (routeSystem workers) (Careful workers) route) :
    (∀ frame, .answered frame .poolClosed ∈ route.pool.history → frame.id ∈ route.owed →
      frame.id ∈ route.crashed) ∧
    (route.pool.ready ≠ [] → route.hasSessions = true →
      (∃ worker, (route.threads worker).awake route.permit route.round = true) ∨
        0 < route.notifying ∨ 0 < route.loud ∨ 0 < route.spawning) ∧
    (∀ frame ∈ route.pool.waiting, route.pool.Served frame.conn) ∧
    ∀ conn, route.pool.inFlight conn = true → route.pool.Carried conn := by
  have service := StepSystem.invariant_of_step service_initial service_step reached
  have sound := service.accounts.sound
  refine ⟨service.accounts.refused, fun queued seats => ?_, sound.marks.served, sound.carried⟩
  rcases service.staffed (.inl seats) with manned | coming
  · rcases service.heard queued manned with awake | notifying
    · exact .inl awake
    · exact .inr (.inl notifying)
  · exact .inr (.inr coming)

/-- A connection brings up the worker that executes its frame. -/
theorem connections_served_first :
    ∃ route : Route, .answered ⟨0, 1⟩ .ok ∈ route.pool.history ∧ 0 ∈ route.owed ∧
      ∀ frame ∈ route.pool.waiting, route.pool.Served frame.conn := by
  have settled : ∀ worker, Function.update (fun _ => Phase.absent) 0 .starting worker ≠
      .dropped 1 := by
    intro worker
    rw [update_apply]
    split <;> nofun
  have path : StepSystem.Path (routeSystem 1) (Careful 1) .initial
      [.attach, .attachOpen, .attachInsert true, .attachSpawn 0, .fire 1, .notify,
        .work 0 .proceed, .work 0 .proceed, .work 0 .proceed, .work 0 .proceed,
        .work 0 (.finish (.ok none)), .work 0 .proceed, .notify, .work 0 .proceed,
        .work 0 .proceed] _ :=
    ⟨trivial, _, rfl, .inr (.inl rfl), _, rfl, trivial, _, rfl, trivial, _, rfl, settled, _, rfl,
      trivial, _, rfl, trivial, _, rfl, trivial, _, rfl, trivial, _, rfl, trivial, _, rfl,
      trivial, _, rfl, trivial, _, rfl, trivial, _, rfl, trivial, _, rfl, trivial, _, rfl, rfl⟩
  exact ⟨_, mem_cons_self, mem_cons_self, (connections_served ⟨_, path⟩).2.2.1⟩

theorem unserved (ready : pool.ready = []) (idle : ∀ worker, (pool.workers worker).serves = none) :
    ¬ pool.Served conn := by
  rintro (⟨frame, listed, -⟩ | ⟨worker, serves⟩)
  · rw [ready] at listed
    cases listed
  · rw [idle] at serves
    cases serves

/-- The retire thread finds no session, a connection attaches, and the pool is closed under
it: its frame is refused. After the next attach its mark is still there, and its next
frame waits behind nothing. And with a panic while nobody is attached, the frame of a
connection that is gone keeps a later one waiting while the worker that is left is not
woken. -/
theorem closed_under_session :
    (∃ route, StepSystem.Reachable (routeSystem 1) StepSystem.Unrestricted route ∧
      .answered ⟨0, 2⟩ .poolClosed ∈ route.pool.history ∧ 0 ∈ route.owed ∧
        route.crashed = [] ∧ (route.pool.sessions.lookup 2).isSome = true ∧
          ⟨1, 2⟩ ∈ route.pool.waiting ∧ ¬ route.pool.Served 2) ∧
    ∃ route, StepSystem.Reachable (routeSystem 2) StepSystem.Unrestricted route ∧
      route.pool.ready ≠ [] ∧ route.hasSessions = true ∧
        (∀ worker, (route.threads worker).awake route.permit route.round = false) ∧
          route.permit = false ∧ route.notifying = 0 ∧ route.loud = 0 ∧ route.spawning = 0 := by
  constructor
  · have path : StepSystem.Path (routeSystem 1) StepSystem.Unrestricted .initial
        [.attach, .attachOpen, .attachInsert true, .attachSpawn 0, .detach 1, .detachDrop 1,
          .detachCheck, .retireWake, .attach, .attachOpen, .attachInsert false, .fire 2, .notify,
          .retireClose, .broadcast, .attach, .attachOpen, .attachInsert true, .attachSpawn 1,
          .fire 2, .notify] _ := StepSystem.path_of_run _ _ _ rfl
    refine ⟨_, ⟨_, path⟩, mem_cons_of_mem _ mem_cons_self,
      mem_cons_of_mem _ mem_cons_self, rfl, rfl, mem_cons_self,
      unserved rfl fun worker => ?_⟩
    match worker with
    | 0 | 1 | worker + 2 => rfl
  · have path : StepSystem.Path (routeSystem 2) StepSystem.Unrestricted .initial
        [.attach, .attachOpen, .attachInsert true, .attachSpawn 0, .attachSpawn 1, .attach,
          .attachOpen, .attachInsert false, .work 0 .proceed, .work 0 .proceed, .work 0 .proceed,
          .work 1 .proceed, .work 1 .proceed, .work 1 .proceed, .fire 1, .notify, .fire 2, .notify,
          .work 0 .proceed, .work 0 .proceed, .work 0 .proceed, .work 0 .proceed, .work 1 .proceed,
          .detach 1, .detachDrop 1, .detach 2, .detachDrop 2, .work 0 .panic, .work 0 .proceed,
          .work 0 .proceed, .discount 0, .measure 0, .measure 0, .attach, .attachOpen,
          .attachInsert false] _ := StepSystem.path_of_run _ _ _ rfl
    refine ⟨_, ⟨_, path⟩, cons_ne_nil _ _, rfl, fun worker => ?_, rfl, rfl, rfl, rfl⟩
    match worker with
    | 0 | 1 | worker + 2 => rfl

end OnlyJs.Bridge.FramePool
