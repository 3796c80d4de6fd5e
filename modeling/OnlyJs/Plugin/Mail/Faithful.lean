import OnlyJs.Plugin.Mail.Accounts
import OnlyJs.Plugin.Mail.Shutdown

/-!
# What the mail engine keeps

No job is lost and none is handed to the transport twice, if a drain meets its deadline or finds
no submission with a sender, if the exit signals go to one drain, and if the replies have been
forwarded when a drain with all signals destroys the runtime. Otherwise a submission may be
refused whose job was sent, or all drains may fail in time.
-/

namespace OnlyJs.Plugin.Mail

open Lib.StepSystem List Lib.Tally

set_option autoImplicit false

variable {config : Config}

section Property

/-- A drain that has returned `Ok`. -/
def Drain.Succeeded (config : Config) (drain : Drain) : Prop :=
  drain.phase = .returned ∧ drain.got = config.workers

/-- A job that has exactly one result, through its own channel. -/
def Engine.Reported (engine : Engine) (job : Job) : Prop :=
  if job.enqueueOnly then engine.emitted.count job = 1 ∧ job ∉ engine.replied
  else engine.replied.count job = 1 ∧ job ∉ engine.emitted

structure Faithful (config : Config) (engine : Engine) : Prop where
  /-- No job is handed to the transport whose submission was answered by a refusal. -/
  refused : ∀ (index : Nat) submission answer, engine.submissions[index]? = some submission →
    submission.phase = .answered answer →
    answer = .queueFull ∨ answer = .stopped ∨ answer = .validation →
    ⟨index, submission.enqueueOnly⟩ ∉ engine.delivered
  /-- No job is handed to the transport whose result is a validation code. -/
  rejected : ∀ job ∈ engine.rejected, job ∉ engine.delivered
  once : ∀ job, engine.delivered.count job ≤ 1
  /-- When a drain has returned `Ok`, every accepted job has its one result. -/
  reported : (∃ drain ∈ engine.drains, drain.Succeeded config) →
    ∀ job ∈ engine.accepted, engine.Reported job
  /-- No job was accepted when a drain had returned. -/
  inTime : engine.late = false
  /-- When a drain has returned `Ok`, every job that was handed to the transport has had its
  submission answered by its number or by its result. -/
  raced : (∃ drain ∈ engine.drains, drain.Succeeded config) →
    ∀ (index : Nat) submission, engine.submissions[index]? = some submission →
    ⟨index, submission.enqueueOnly⟩ ∈ engine.delivered →
    submission.phase = .answered (if submission.enqueueOnly then .enqueued else .result)
  /-- When all drains have returned, one has returned `Ok`, unless a deadline passed before the
  accepted jobs had finished. -/
  drained : engine.drains ≠ [] → (∀ drain ∈ engine.drains, drain.phase = .returned) →
    engine.gaveUp = false → ∃ drain ∈ engine.drains, drain.Succeeded config

/-- A drain runs into its deadline only while no submission holds a sender, and when all accepted
jobs have finished only if a drain has all exit signals. Exit signals go to one drain, unless a
deadline has passed before. A drain with all signals destroys the runtime when all replies have
been forwarded. -/
def Careful (config : Config) (engine : Engine) : Label → Prop
  | .giveUp _ => Quiet engine.submissions ∧
      (engine.finished = true → ∃ drain ∈ engine.drains, drain.got = config.workers)
  | .signal index => engine.gaveUp = true ∨
      ∀ (other : Nat) drain, other ≠ index → engine.drains[other]? = some drain → drain.got = 0
  | .dispose index => ∀ drain, engine.drains[index]? = some drain → drain.got = config.workers →
      ∀ submission ∈ engine.submissions,
        submission.phase ≠ .waiting ∧ submission.phase ≠ .answered .lost
  | _ => True

end Property

section Invariant

structure Kept (config : Config) (engine : Engine) : Prop where
  books : Books engine.queue engine.workers engine.accepted engine.delivered engine.rejected
    engine.replied engine.emitted
  entries : Entries engine.submissions engine.accepted
  doors : Doors engine.txOpen engine.rtThere engine.queue engine.workers engine.submissions
    engine.drains
  counts : Signals config engine.gaveUp engine.workers engine.signals engine.drains
  replies : Replies config engine.submissions engine.drains
  inTime : engine.late = false

variable {engine next : Engine}

theorem kept_initial : Kept config (Engine.initial config) where
  books := by
    refine ⟨fun job => ?_, fun job => ?_, nofun, nofun⟩
    · have none : tally (fun worker : Worker => worker.jobs.count job)
          (List.replicate config.workers .idle) = 0 := tally_replicate _ _ _
      dsimp only [Engine.initial]
      simp only [none, count_nil]
    · have none : tally (fun worker : Worker => worker.unhanded.count job)
          (List.replicate config.workers .idle) = 0 := tally_replicate _ _ _
      dsimp only [Engine.initial]
      simp only [none]
      exact Nat.le_refl 0
  entries := ⟨nofun, nofun, nofun⟩
  doors := by
    refine ⟨nofun, nofun, fun member => ?_, fun job member => ?_, nofun⟩
    · cases eq_of_mem_replicate member
    · cases eq_of_mem_replicate member
  counts := by
    refine ⟨length_replicate, ?_, nofun, nofun, nofun⟩
    dsimp only [Engine.initial]
    rw [tally_replicate]
    exact (Nat.mul_zero _).symm
  replies := nofun
  inTime := rfl

section

variable (kept : Kept config engine)
include kept

theorem Kept.outlived (succeeded : ∃ drain ∈ engine.drains, drain.Succeeded config) :
    ∀ worker ∈ engine.workers, worker = .exited := by
  obtain ⟨drain, member, _, full⟩ := succeeded
  exact kept.counts.outlived member full

theorem Kept.anyWorker : ∃ worker, worker ∈ engine.workers := by
  apply exists_mem_of_length_pos
  rw [kept.counts.size]
  exact config.workersPos

theorem Kept.reported (succeeded : ∃ drain ∈ engine.drains, drain.Succeeded config) {job : Job}
    (member : job ∈ engine.accepted) : engine.Reported job := by
  have gone := kept.outlived succeeded
  obtain ⟨worker, present⟩ := kept.anyWorker
  have exited : .exited ∈ engine.workers := gone worker present ▸ present
  have empty : engine.queue.count job = 0 := by
    rw [(kept.doors.exited exited).2.2]
    rfl
  have free : tally (fun worker : Worker => worker.jobs.count job) engine.workers = 0 := by
    apply tally_zero
    intro other there
    rw [gone other there]
    rfl
  have accounted := kept.books.accounted job
  have one : engine.accepted.count job = 1 :=
    Nat.le_antisymm (kept.entries.count_le job) (count_pos_iff.mpr member)
  unfold Engine.Reported
  split
  · rename_i channel
    have away : job ∉ engine.replied := by
      intro replied
      rw [kept.books.replies job replied] at channel
      cases channel
    have none := count_eq_zero.mpr away
    exact ⟨by omega, away⟩
  · rename_i channel
    have away : job ∉ engine.emitted := by
      intro emitted
      exact channel (kept.books.emissions job emitted)
    have none := count_eq_zero.mpr away
    exact ⟨by omega, away⟩

theorem Kept.delivered_le (job : Job) :
    engine.delivered.count job + engine.rejected.count job ≤ engine.accepted.count job := by
  have handed := kept.books.handed job
  omega

end

variable {index : Nat} {submission : Submission}

theorem Kept.raced (kept : Kept config engine)
    (succeeded : ∃ drain ∈ engine.drains, drain.Succeeded config)
    (found : engine.submissions[index]? = some submission)
    (delivered : ⟨index, submission.enqueueOnly⟩ ∈ engine.delivered) :
    submission.phase = .answered (if submission.enqueueOnly then .enqueued else .result) := by
  have positive := count_pos_iff.mpr delivered
  have bounded := kept.delivered_le ⟨index, submission.enqueueOnly⟩
  have counted := kept.entries.counted index submission found
  have member := mem_of_getElem? found
  have fits := kept.entries.fitting submission member
  obtain ⟨drain, among, ended, full⟩ := succeeded
  have quiet := kept.doors.left drain among (by rw [ended]; rfl) submission member
  obtain ⟨forwarded, found⟩ := kept.replies drain among (Or.inr ended) full submission member
  cases phase : submission.phase with
  | entered | cloned | checked =>
    rw [phase] at counted
    have none : engine.accepted.count ⟨index, submission.enqueueOnly⟩ = 0 := counted
    omega
  | queued =>
    rw [phase] at quiet
    cases quiet
  | waiting => exact absurd phase forwarded
  | answered answer =>
    rw [phase] at counted fits found
    cases answer with
    | queueFull | stopped | validation | unknownProfile =>
      have none : engine.accepted.count ⟨index, submission.enqueueOnly⟩ = 0 := counted
      omega
    | enqueued =>
      rw [show submission.enqueueOnly = true from fits]
      rfl
    | result =>
      rw [show submission.enqueueOnly = false from fits]
      rfl
    | lost => exact absurd rfl found

theorem Kept.faithful (kept : Kept config engine) : Faithful config engine where
  refused := by
    intro index submission answer found phase refusal delivered
    have positive := count_pos_iff.mpr delivered
    have bounded := kept.delivered_le ⟨index, submission.enqueueOnly⟩
    have counted := kept.entries.counted index submission found
    have outside : submission.phase.isAccepted = false := by
      rw [phase]
      rcases refusal with rfl | rfl | rfl <;> rfl
    rw [outside, if_neg Bool.false_ne_true] at counted
    omega
  rejected := by
    intro job rejected delivered
    have positive := count_pos_iff.mpr delivered
    have other := count_pos_iff.mpr rejected
    have bounded := kept.delivered_le job
    have once := kept.entries.count_le job
    omega
  once := by
    intro job
    have bounded := kept.delivered_le job
    have once := kept.entries.count_le job
    omega
  reported := fun succeeded _ member => kept.reported succeeded member
  inTime := kept.inTime
  raced := fun succeeded _ _ found delivered => kept.raced succeeded found delivered
  drained := by
    intro some returned patient
    obtain ⟨first, member⟩ := exists_mem_of_ne_nil engine.drains some
    have left : ∃ drain ∈ engine.drains, drain.phase.hasLeft = true :=
      ⟨first, member, by rw [returned first member]; rfl⟩
    obtain ⟨drain, among, full⟩ := kept.counts.complete patient left
    exact ⟨drain, among, returned drain among, full⟩

variable {phase : Phase}

section

variable (kept : Kept config engine) (found : engine.submissions[index]? = some submission)
include kept found

theorem Kept.setPhase (fits : phase.fits submission.enqueueOnly)
    (side : phase.isAccepted = submission.phase.isAccepted)
    (opened : phase.holds = true → submission.phase.holds = true ∨ engine.txOpen = true)
    (owing : phase = .waiting ∨ phase = .answered .lost →
      submission.phase = .waiting ∨ ∀ drain ∈ engine.drains, drain.phase.hasLeft = false) :
    Kept config (engine.setPhase index submission phase) where
  books := kept.books
  entries := kept.entries.move found fits side
  doors := kept.doors.setPhase found opened
  counts := kept.counts
  replies := kept.replies.setPhase found owing
  inTime := kept.inTime

theorem Kept.refuse (outside : submission.phase.isAccepted = false) {answer : Answer}
    (refusal : (Phase.answered answer).isAccepted = false) :
    Kept config (engine.answer index submission answer) := by
  have fits : (Phase.answered answer).fits submission.enqueueOnly := by
    cases answer with
    | queueFull | stopped | validation | unknownProfile => trivial
    | enqueued | result | lost => cases refusal
  apply kept.setPhase found fits
  · rw [refusal, outside]
  · nofun
  · rintro (same | same)
    · cases same
    · cases same
      cases refusal

theorem Kept.accept (checked : submission.phase = .checked)
    (fits : phase.fits submission.enqueueOnly) (behind : phase.isAccepted = true)
    (owing : ¬(phase = .waiting ∨ phase = .answered .lost)) :
    Kept config { engine.setPhase index submission phase with
      queue := engine.queue ++ [⟨index, submission.enqueueOnly⟩]
      accepted := engine.accepted ++ [⟨index, submission.enqueueOnly⟩]
      late := engine.late || engine.drains.any Drain.isReturned } where
  books := kept.books.accept _
  entries := kept.entries.accept found fits (by rw [checked]; rfl) behind
  doors := by
    have holds : submission.phase.holds = true := by rw [checked]; rfl
    exact (kept.doors.requeue (kept.doors.busy found holds) _).setPhase found
      fun _ => Or.inl holds
  counts := kept.counts
  replies := kept.replies.setPhase found fun owes => absurd owes owing
  inTime := by
    have holds : submission.phase.holds = true := by rw [checked]; rfl
    have none : engine.drains.any Drain.isReturned = false := by
      apply any_eq_false.mpr
      intro drain member returned
      have waits := kept.doors.waiting found holds drain member
      rw [of_decide_eq_true returned] at waits
      cases waits
    rw [kept.inTime, none]
    rfl

theorem Kept.trySend (checked : submission.phase = .checked) :
    Kept config (engine.trySend config index submission) := by
  have outside : submission.phase.isAccepted = false := by rw [checked]; rfl
  unfold Engine.trySend
  split
  · exact kept.refuse found outside rfl
  · split
    · exact kept.refuse found outside rfl
    · dsimp only
      split
      · rename_i channel
        exact kept.accept found checked channel rfl (by rintro (same | same) <;> cases same)
      · rename_i channel
        exact kept.accept found checked (Bool.eq_false_of_not_eq_true channel) rfl
          (by rintro (same | same) <;> cases same)

end

theorem onSubmission_some {step : Submission → Option Engine}
    (fired : engine.onSubmission index phase step = some next) :
    ∃ submission, engine.submissions[index]? = some submission ∧ submission.phase = phase ∧
      step submission = some next := by
  obtain ⟨submission, found, stepped⟩ := Option.bind_eq_some_iff.mp fired
  split at stepped
  · rename_i same
    exact ⟨submission, found, same, stepped⟩
  · cases stepped

variable {label : Label}

section

variable (kept : Kept config engine)
include kept

theorem Kept.submissionStep (fired : engine.submissionStep config label = some next) :
    Kept config next := by
  cases label with
  | submit enqueueOnly =>
    cases Option.some.inj fired
    exact ⟨kept.books, kept.entries.enter enqueueOnly, kept.doors.enter enqueueOnly,
      kept.counts, kept.replies.enter enqueueOnly, kept.inTime⟩
  | obtain_ index =>
    obtain ⟨submission, found, phase, stepped⟩ := onSubmission_some fired
    cases Option.some.inj stepped
    have outside : submission.phase.isAccepted = false := by rw [phase]; rfl
    split
    · rename_i isOpen
      apply kept.setPhase found
      · trivial
      · exact outside.symm
      · exact fun _ => Or.inr isOpen
      · rintro (same | same) <;> cases same
    · exact kept.refuse found outside rfl
  | look index check =>
    obtain ⟨submission, found, phase, stepped⟩ := onSubmission_some fired
    cases Option.some.inj stepped
    have outside : submission.phase.isAccepted = false := by rw [phase]; rfl
    unfold Engine.look
    split
    · cases check with
      | passes =>
        apply kept.setPhase found
        · trivial
        · exact outside.symm
        · exact fun _ => Or.inl (by rw [phase]; rfl)
        · rintro (same | same) <;> cases same
      | unknownProfile | overLimit => exact kept.refuse found outside rfl
    · exact kept.refuse found outside rfl
  | trySend index =>
    obtain ⟨submission, found, phase, stepped⟩ := onSubmission_some fired
    cases Option.some.inj stepped
    exact kept.trySend found phase
  | attach index =>
    obtain ⟨submission, found, phase, stepped⟩ := onSubmission_some fired
    cases Option.some.inj stepped
    have holds : submission.phase.holds = true := by rw [phase]; rfl
    have fits := kept.entries.fitting submission (mem_of_getElem? found)
    rw [phase] at fits
    unfold Engine.attach
    rw [if_pos (kept.doors.runtime found holds)]
    apply kept.setPhase found
    · exact fits
    · rw [phase]
      rfl
    · nofun
    · exact fun _ => Or.inr (kept.doors.waiting found holds)
  | forward index =>
    obtain ⟨submission, found, phase, stepped⟩ := onSubmission_some fired
    have fits := kept.entries.fitting submission (mem_of_getElem? found)
    rw [phase] at fits
    split at stepped
    · cases Option.some.inj stepped
      apply kept.setPhase found
      · exact fits
      · rw [phase]
        rfl
      · nofun
      · rintro (same | same) <;> cases same
    · cases stepped
  | lose index =>
    obtain ⟨submission, found, phase, stepped⟩ := onSubmission_some fired
    have fits := kept.entries.fitting submission (mem_of_getElem? found)
    rw [phase] at fits
    split at stepped
    · cases stepped
    · cases Option.some.inj stepped
      apply kept.setPhase found
      · exact fits
      · rw [phase]
        rfl
      · nofun
      · exact fun _ => Or.inl phase
  | _ => cases fired

theorem Kept.setWorker {old new : Worker} {queue' delivered' rejected' replied' emitted' : List Job}
    (books : Books queue' (engine.workers.set index new) engine.accepted delivered' rejected'
      replied' emitted')
    (found : engine.workers[index]? = some old) (before : old.exits = 0) (after : new.exits = 0)
    (kills : ∀ job, new = .killed job → engine.rtThere = false)
    (same : queue' = engine.queue ∨ .exited ∉ engine.workers) :
    Kept config { engine.setWorker index new with
      queue := queue', delivered := delivered', rejected := rejected', replied := replied',
      emitted := emitted' } where
  books := books
  entries := kept.entries
  doors := by
    have stays : new = .exited → engine.txOpen = false ∧ Quiet engine.submissions ∧
        queue' = [] := by
      rintro rfl
      cases after
    rcases same with rfl | busy
    · exact kept.doors.setWorker index stays kills
    · exact (kept.doors.requeue busy queue').setWorker index stays kills
  counts := by
    apply kept.counts.setWorker found
    rw [before, after]
    rfl
  replies := kept.replies
  inTime := kept.inTime

theorem Kept.report {old : Worker} {job : Job} (found : engine.workers[index]? = some old)
    (before : old.exits = 0) (has : old.jobs = [job]) {rejected' : List Job}
    (fewer : ∀ job, rejected'.count job ≤ engine.rejected.count job + old.unhanded.count job) :
    Kept config { engine.report index job with rejected := rejected' } := by
  have books := kept.books.report found has fewer
  have reported := kept.setWorker books found before rfl nofun (Or.inl rfl)
  unfold Engine.report
  split
  · rename_i channel
    rw [if_pos channel, if_pos channel] at reported
    exact reported
  · rename_i channel
    rw [if_neg channel, if_neg channel] at reported
    exact reported

theorem Kept.exit (found : engine.workers[index]? = some .idle) (closed : engine.closed = true) :
    Kept config { engine.setWorker index .exited with signals := engine.signals + 1 } where
  books := by
    apply kept.books.move found
    · intro job
      rfl
    · intro job
      exact Nat.le_refl _
    · exact kept.books.replies
    · exact kept.books.emissions
  entries := kept.entries
  doors := by
    apply kept.doors.setWorker
    · intro _
      obtain ⟨shut, empty⟩ := Bool.and_eq_true_iff.mp closed
      obtain ⟨shut, quiet⟩ := Bool.and_eq_true_iff.mp shut
      refine ⟨Bool.not_eq_true' _ ▸ shut, ?_, List.isEmpty_iff.mp empty⟩
      intro submission member
      have free := all_eq_true.mp quiet submission member
      exact Bool.not_eq_true' _ ▸ free
    · nofun
  counts := kept.counts.setWorker found rfl
  replies := kept.replies
  inTime := kept.inTime

theorem Kept.workerStep (fired : engine.workerStep label = some next) :
    Kept config next := by
  cases label with
  | take index =>
    unfold Engine.workerStep at fired
    dsimp only at fired
    split at fired
    · rename_i job rest found queue
      cases Option.some.inj fired
      have busy : .exited ∉ engine.workers := by
        intro member
        rw [(kept.doors.exited member).2.2] at queue
        cases queue
      have counted : ∀ other, engine.queue.count other =
          rest.count other + [job].count other := by
        intro other
        rw [queue, count_cons, count_singleton]
      have books : Books rest (engine.workers.set index (.holding job)) engine.accepted
          engine.delivered engine.rejected engine.replied engine.emitted := by
        apply kept.books.move found
        · intro other
          have sum := counted other
          change _ + [job].count other + _ + _ = _ + [].count other + _ + _
          rw [count_nil]
          omega
        · intro other
          have sum := counted other
          change _ + [job].count other ≤ _ + [].count other
          omega
        · exact kept.books.replies
        · exact kept.books.emissions
      exact kept.setWorker books found rfl rfl nofun (Or.inr busy)
    · cases fired
  | invoke index =>
    unfold Engine.workerStep at fired
    dsimp only at fired
    split at fired
    · rename_i job found
      cases Option.some.inj fired
      have books : Books engine.queue (engine.workers.set index (.sending job))
          engine.accepted (engine.delivered ++ [job]) engine.rejected engine.replied
          engine.emitted := by
        apply kept.books.move found
        · intro other
          rfl
        · intro other
          change _ + [].count other ≤ _ + [job].count other
          rw [count_append, count_nil]
          omega
        · exact kept.books.replies
        · exact kept.books.emissions
      exact kept.setWorker books found rfl rfl nofun (Or.inl rfl)
    · cases fired
  | reject index =>
    unfold Engine.workerStep at fired
    dsimp only at fired
    split at fired
    · rename_i job found
      cases Option.some.inj fired
      apply kept.report found rfl rfl
      intro other
      rw [count_append]
      exact Nat.le_refl _
    · cases fired
  | report index =>
    unfold Engine.workerStep at fired
    dsimp only at fired
    split at fired
    · rename_i job found
      cases Option.some.inj fired
      have reported := kept.report found rfl rfl fun _ => Nat.le_add_right _ _
      have same : { engine.report index job with rejected := engine.rejected } =
          engine.report index job := by
        unfold Engine.report
        split <;> rfl
      rw [same] at reported
      exact reported
    · cases fired
  | exit index =>
    unfold Engine.workerStep at fired
    dsimp only at fired
    split at fired
    · rename_i found
      split at fired
      · rename_i closed
        cases Option.some.inj fired
        exact kept.exit found closed
      · cases fired
    · cases fired
  | kill index =>
    unfold Engine.workerStep at fired
    dsimp only at fired
    split at fired
    · cases fired
    · cases fired
    · cases fired
    · rename_i worker stays lives found
      split at fired
      · cases fired
      · rename_i down
        cases Option.some.inj fired
        have none : worker.exits = 0 := by
          cases worker with
          | exited => exact (stays rfl).elim
          | idle | holding job | sending job | killed job => rfl
        have same : worker.jobs = (Worker.killed worker.job).jobs := rfl
        have books : Books engine.queue (engine.workers.set index (.killed worker.job))
            engine.accepted engine.delivered engine.rejected engine.replied
            engine.emitted := by
          apply kept.books.move found
          · intro other
            rw [same]
          · intro other
            exact Nat.le_add_right _ _
          · exact kept.books.replies
          · exact kept.books.emissions
        have gone := Bool.eq_false_of_not_eq_true down
        exact kept.setWorker books found none rfl (fun _ _ => gone) (Or.inl rfl)
  | _ => cases fired

end

theorem onDrain_some {step : Drain → Option Engine}
    (fired : engine.onDrain index step = some next) :
    ∃ drain, engine.drains[index]? = some drain ∧ step drain = some next :=
  Option.bind_eq_some_iff.mp fired

variable {drain : Drain}

section

variable (kept : Kept config engine) (found : engine.drains[index]? = some drain)
include kept found

theorem Kept.leave (waits : drain.phase = .waiting) (quiet : Quiet engine.submissions)
    {gaveUp' : Bool} (patient : gaveUp' = false → engine.gaveUp = false)
    (full : gaveUp' = false → ∃ other ∈ engine.drains, other.got = config.workers) :
    Kept config { engine.setDrain index { drain with phase := .leaving } with
      gaveUp := gaveUp' } where
  books := kept.books
  entries := kept.entries
  doors := by
    have closed := kept.doors.shut drain (mem_of_getElem? found) (by rw [waits]; nofun)
    apply kept.doors.setDrain found
    · exact id
    · exact fun _ => closed
    · exact fun _ => quiet
    · exact fun _ => rfl
    · exact id
    · exact fun _ => Or.inr rfl
  counts := kept.counts.setDrain found patient fun now _ => Or.inr (full now)
  replies := by
    apply kept.replies.setDrain index
    rintro (same | same) <;> cases same
  inTime := kept.inTime

theorem Kept.close (called : drain.phase = .called) :
    Kept config { engine.setDrain index { drain with phase := .waiting } with
      txOpen := false } where
  books := kept.books
  entries := kept.entries
  doors := by
    apply kept.doors.setDrain found
    · exact fun _ => rfl
    · exact fun _ => rfl
    · nofun
    · rw [called]
      nofun
    · exact id
    · exact Or.inl
  counts := kept.counts.setDrain found id nofun
  replies := by
    apply kept.replies.setDrain index
    rintro (same | same) <;> cases same
  inTime := kept.inTime

theorem Kept.signal (waits : drain.phase = .waiting) (missing : drain.got < config.workers)
    (there : 0 < engine.signals)
    (only : engine.gaveUp = true ∨ ∀ (other : Nat) present, other ≠ index →
      engine.drains[other]? = some present → present.got = 0) :
    Kept config { engine.setDrain index { drain with got := drain.got + 1 } with
      signals := engine.signals - 1 } where
  books := kept.books
  entries := kept.entries
  doors := by
    have member := mem_of_getElem? found
    apply kept.doors.setDrain found
    · exact id
    · exact kept.doors.shut drain member
    · exact kept.doors.left drain member
    · exact id
    · exact id
    · exact Or.inl
  counts := kept.counts.signal found missing there only
  replies := by
    apply kept.replies.setDrain index
    rw [waits]
    rintro (same | same) <;> cases same
  inTime := kept.inTime

theorem Kept.fall {phase : DrainPhase} (ending : phase = .disposing ∨ phase = .returned)
    {rtThere' targetsThere' : Bool} (closed : engine.txOpen = false)
    (quiet : Quiet engine.submissions) (falls : engine.rtThere = false → rtThere' = false)
    (full : engine.gaveUp = false → ∃ other ∈ engine.drains, other.got = config.workers)
    (forwarded : drain.got = config.workers →
      ∀ submission ∈ engine.submissions, submission.phase ≠ .waiting ∧
      submission.phase ≠ .answered .lost) :
    Kept config { engine.setDrain index { drain with phase } with
      rtThere := rtThere', targetsThere := targetsThere' } where
  books := kept.books
  entries := kept.entries
  doors := by
    have left : phase.hasLeft = true := by rcases ending with rfl | rfl <;> rfl
    apply kept.doors.setDrain found
    · exact id
    · exact fun _ => closed
    · exact fun _ => quiet
    · exact fun _ => left
    · exact falls
    · exact fun _ => Or.inr left
  counts := kept.counts.setDrain found id fun patient _ => Or.inr (full patient)
  replies := kept.replies.setDrain index fun _ => forwarded
  inTime := kept.inTime

end

theorem Kept.deserted (kept : Kept config engine) (deserted : engine.deserted = true) :
    Quiet engine.submissions ∧
      ((∀ worker ∈ engine.workers, worker = .exited) ∨ engine.rtThere = false) := by
  have each := all_eq_true.mp deserted
  by_cases gone : engine.rtThere = false
  · obtain ⟨drain, member, left⟩ := kept.doors.destroyed gone
    exact ⟨kept.doors.left drain member left, Or.inr gone⟩
  · have all : ∀ worker ∈ engine.workers, worker = .exited := by
      intro worker member
      have stopped := each worker member
      cases worker with
      | exited => rfl
      | killed job => exact absurd (kept.doors.killed job member) gone
      | idle | holding job | sending job => cases stopped
    obtain ⟨worker, present⟩ := kept.anyWorker
    have exited : .exited ∈ engine.workers := all worker present ▸ present
    exact ⟨(kept.doors.exited exited).2.1, Or.inl all⟩

theorem Kept.dispose (kept : Kept config engine) (found : engine.drains[index]? = some drain)
    (enabled : drain.phase = .leaving ∨ (drain.phase = .waiting ∧ drain.got = config.workers))
    (forwarded : drain.got = config.workers →
      ∀ submission ∈ engine.submissions, submission.phase ≠ .waiting ∧
      submission.phase ≠ .answered .lost) :
    Kept config { engine.setDrain index { drain with phase := .disposing } with
      rtThere := false } := by
  have member := mem_of_getElem? found
  rcases enabled with leaving | ⟨waits, full⟩
  · have left : drain.phase.hasLeft = true := by rw [leaving]; rfl
    have closed := kept.doors.shut drain member (by rw [leaving]; nofun)
    apply kept.fall found (Or.inl rfl) closed (kept.doors.left drain member left)
    · exact fun _ => rfl
    · intro patient
      exact kept.counts.complete patient ⟨drain, member, left⟩
    · exact forwarded
  · have gone := kept.counts.outlived member full
    obtain ⟨worker, present⟩ := kept.anyWorker
    have exited : .exited ∈ engine.workers := gone worker present ▸ present
    obtain ⟨closed, quiet, _⟩ := kept.doors.exited exited
    apply kept.fall found (Or.inl rfl) closed quiet
    · exact fun _ => rfl
    · exact fun _ => ⟨drain, member, full⟩
    · exact forwarded

theorem Kept.drainStep (kept : Kept config engine) (careful : Careful config engine label)
    (fired : engine.drainStep config label = some next) : Kept config next := by
  cases label with
  | drain =>
    cases Option.some.inj fired
    exact ⟨kept.books, kept.entries, kept.doors.call, kept.counts.call, kept.replies.call,
      kept.inTime⟩
  | close index =>
    obtain ⟨drain, found, stepped⟩ := onDrain_some fired
    split at stepped
    · rename_i called
      cases Option.some.inj stepped
      exact kept.close found called
    · cases stepped
  | signal index =>
    obtain ⟨drain, found, stepped⟩ := onDrain_some fired
    split at stepped
    · rename_i enabled
      obtain ⟨waits, missing, there⟩ := enabled
      cases Option.some.inj stepped
      exact kept.signal found waits missing there careful
    · cases stepped
  | giveUp index =>
    obtain ⟨drain, found, stepped⟩ := onDrain_some fired
    split at stepped
    · rename_i waits
      cases Option.some.inj stepped
      obtain ⟨quiet, full⟩ := careful
      apply kept.leave found waits.1 quiet
      · intro patient
        exact (Bool.or_eq_false_iff.mp patient).1
      · intro patient
        apply full
        have done := (Bool.or_eq_false_iff.mp patient).2
        exact Bool.not_eq_false' _ ▸ done
    · cases stepped
  | disconnect index =>
    obtain ⟨drain, found, stepped⟩ := onDrain_some fired
    split at stepped
    · rename_i waits
      obtain ⟨waits, _, empty, deserted⟩ := waits
      cases Option.some.inj stepped
      obtain ⟨quiet, gone⟩ := kept.deserted deserted
      apply kept.leave found waits quiet id
      intro patient
      rcases gone with exited | down
      · exact kept.counts.taken patient empty exited
      · exact kept.counts.complete patient (kept.doors.destroyed down)
    · cases stepped
  | dispose index =>
    obtain ⟨drain, found, stepped⟩ := onDrain_some fired
    split at stepped
    · rename_i enabled
      cases Option.some.inj stepped
      exact kept.dispose found enabled (careful drain found)
    · cases stepped
  | return_ index =>
    obtain ⟨drain, found, stepped⟩ := onDrain_some fired
    split at stepped
    · rename_i disposing
      cases Option.some.inj stepped
      have member := mem_of_getElem? found
      have left : drain.phase.hasLeft = true := by rw [disposing]; rfl
      have closed := kept.doors.shut drain member (by rw [disposing]; nofun)
      apply kept.fall found (Or.inr rfl) closed (kept.doors.left drain member left) id
      · intro patient
        exact kept.counts.complete patient ⟨drain, member, left⟩
      · exact kept.replies drain member (Or.inl disposing)
    · cases stepped
  | _ => cases fired

theorem step_cases (fired : engine.step config label = some next) :
    engine.submissionStep config label = some next ∨ engine.workerStep label = some next ∨
      engine.drainStep config label = some next := by
  cases label with
  | submit _ | obtain_ _ | look _ _ | trySend _ | attach _ | forward _ | lose _ =>
    exact Or.inl fired
  | take _ | invoke _ | reject _ | report _ | exit _ | kill _ => exact Or.inr (Or.inl fired)
  | drain | close _ | signal _ | giveUp _ | disconnect _ | dispose _ | return_ _ =>
    exact Or.inr (Or.inr fired)

theorem kept_step : Preserved (system config) (Careful config) (Kept config) := by
  intro engine label next kept careful fired
  rcases step_cases fired with submission | worker | drain
  · exact kept.submissionStep submission
  · exact kept.workerStep worker
  · exact kept.drainStep careful drain

end Invariant

section Runs

/-- In every run whose drains and signals are careful, the engine keeps its promises. -/
theorem careful_faithful {engine : Engine}
    (reached : Reachable (system config) (Careful config) engine) : Faithful config engine := by
  have kept := invariant_of_step kept_initial kept_step reached
  exact kept.faithful

def oneWorker : Config := ⟨1, 1, by decide, by decide⟩

def twoWorkers : Config := ⟨2, 1, by decide, by decide⟩

/-- A job is sent, its reply is forwarded, and the drain returns `Ok`. -/
theorem careful_faithful_drained : ∃ engine, Faithful oneWorker engine ∧
    (∃ drain ∈ engine.drains, drain.Succeeded oneWorker) ∧ engine.delivered = [⟨0, false⟩] := by
  let labels : List Label := [.submit false, .obtain_ 0, .look 0 .passes, .trySend 0, .attach 0,
    .take 0, .invoke 0, .report 0, .forward 0, .drain, .close 0, .exit 0, .signal 0, .dispose 0,
    .return_ 0]
  let engine := ((system oneWorker).run (.initial oneWorker) labels).getD (.initial oneWorker)
  have lone : ∀ (other : Nat) (drain : Drain), other ≠ 0 →
      [(⟨0, .waiting⟩ : Drain)][other]? = some drain → drain.got = 0 := by
    intro other drain away found
    cases other with
    | zero => exact absurd rfl away
    | succ other => cases found
  have forwarded : ∀ submission ∈ [(⟨false, .answered .result⟩ : Submission)],
      submission.phase ≠ .waiting ∧ submission.phase ≠ .answered .lost := by decide
  have reached : Reachable (system oneWorker) (Careful oneWorker) engine :=
    ⟨labels, trivial, _, rfl, trivial, _, rfl, trivial, _, rfl, trivial, _, rfl, trivial, _, rfl,
      trivial, _, rfl, trivial, _, rfl, trivial, _, rfl, trivial, _, rfl, trivial, _, rfl,
      trivial, _, rfl, trivial, _, rfl, Or.inr lone, _, rfl, fun _ _ _ => forwarded, _, rfl,
      trivial, _, rfl, rfl⟩
  exact ⟨engine, careful_faithful reached, ⟨⟨1, .returned⟩, by decide, rfl, rfl⟩, rfl⟩

/-- A drain destroys the runtime between a submission's entry into the queue and its look for
the runtime: the submission is refused, and its job was sent. Two drains share the signals of
two workers: neither returns `Ok`, and neither has met its deadline. -/
theorem sent_and_refused :
    (∃ engine, Reachable (system oneWorker) Unrestricted engine ∧ ¬Faithful oneWorker engine) ∧
      ∃ engine, Reachable (system twoWorkers) Unrestricted engine ∧
        engine.drains = [⟨1, .returned⟩, ⟨1, .returned⟩] ∧ engine.gaveUp = false ∧
        ¬Faithful twoWorkers engine := by
  refine ⟨?_, ?_⟩
  · let labels : List Label := [.submit false, .obtain_ 0, .look 0 .passes, .trySend 0, .take 0,
      .invoke 0, .drain, .close 0, .giveUp 0, .dispose 0, .attach 0]
    let engine := ((system oneWorker).run (.initial oneWorker) labels).getD (.initial oneWorker)
    refine ⟨engine, ⟨labels, path_of_run _ _ labels rfl⟩, fun faithful => ?_⟩
    apply faithful.refused 0 ⟨false, .answered .stopped⟩ .stopped rfl rfl (by decide)
    decide
  · let labels : List Label := [.drain, .drain, .close 0, .close 1, .exit 0, .exit 1, .signal 0,
      .signal 1, .disconnect 0, .disconnect 1, .dispose 0, .dispose 1, .return_ 0, .return_ 1]
    let engine := ((system twoWorkers).run (.initial twoWorkers) labels).getD
      (.initial twoWorkers)
    refine ⟨engine, ⟨labels, path_of_run _ _ labels rfl⟩, rfl, rfl, fun faithful => ?_⟩
    obtain ⟨drain, member, _, full⟩ := faithful.drained (by decide) (by decide) rfl
    have short : ∀ drain ∈ engine.drains, drain.got ≠ twoWorkers.workers := by decide
    exact short drain member full

end Runs

end OnlyJs.Plugin.Mail
