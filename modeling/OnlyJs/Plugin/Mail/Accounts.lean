import OnlyJs.Lib.Tally
import OnlyJs.Plugin.Mail.Engine

/-!
# The accounts of the mail engine

Every accepted job is in the queue, with a worker, or has its one result, and it is the job of
a submission that has come behind the queue.
-/

namespace OnlyJs.Plugin.Mail

open Lib.Tally List

set_option autoImplicit false

section Books

def Worker.unhanded : Worker → List Job
  | .holding job => [job]
  | _ => []

def Worker.jobs (worker : Worker) : List Job := worker.job.toList

structure Books (queue : List Job) (workers : List Worker)
    (accepted delivered rejected replied emitted : List Job) : Prop where
  accounted : ∀ job, queue.count job + tally (fun worker => worker.jobs.count job) workers +
    replied.count job + emitted.count job = accepted.count job
  handed : ∀ job, delivered.count job + rejected.count job + queue.count job +
    tally (fun worker => worker.unhanded.count job) workers ≤ accepted.count job
  replies : ∀ job ∈ replied, job.enqueueOnly = false
  emissions : ∀ job ∈ emitted, job.enqueueOnly = true

variable {queue : List Job} {workers : List Worker}
  {accepted delivered rejected replied emitted : List Job}

section

variable (books : Books queue workers accepted delivered rejected replied emitted)
include books

theorem Books.accept (job : Job) :
    Books (queue ++ [job]) workers (accepted ++ [job]) delivered rejected replied emitted where
  accounted := by
    intro other
    have accounted := books.accounted other
    rw [count_append, count_append]
    omega
  handed := by
    intro other
    have handed := books.handed other
    rw [count_append, count_append]
    omega
  replies := books.replies
  emissions := books.emissions

theorem Books.move {index : Nat} {old new : Worker} (found : workers[index]? = some old)
    {queue' delivered' rejected' replied' emitted' : List Job}
    (kept : ∀ job, queue'.count job + new.jobs.count job + replied'.count job + emitted'.count job =
      queue.count job + old.jobs.count job + replied.count job + emitted.count job)
    (fewer : ∀ job, delivered'.count job + rejected'.count job + queue'.count job +
      new.unhanded.count job ≤ delivered.count job + rejected.count job + queue.count job +
      old.unhanded.count job)
    (replies : ∀ job ∈ replied', job.enqueueOnly = false)
    (emissions : ∀ job ∈ emitted', job.enqueueOnly = true) :
    Books queue' (workers.set index new) accepted delivered' rejected' replied' emitted' where
  accounted := by
    intro job
    have accounted := books.accounted job
    have moved := tally_set (fun worker : Worker => worker.jobs.count job) found new
    have same := kept job
    omega
  handed := by
    intro job
    have handed := books.handed job
    have moved := tally_set (fun worker : Worker => worker.unhanded.count job) found new
    have less := fewer job
    omega
  replies := replies
  emissions := emissions

/-- A result goes to its channel; a worker that has not handed its job over may reject it. -/
theorem Books.report {index : Nat} {old : Worker} {job : Job} (found : workers[index]? = some old)
    (has : old.jobs = [job]) {rejected' : List Job}
    (fewer : ∀ job, rejected'.count job ≤ rejected.count job + old.unhanded.count job) :
    Books queue (workers.set index .idle) accepted delivered rejected'
      (if job.enqueueOnly then replied else replied ++ [job])
      (if job.enqueueOnly then emitted ++ [job] else emitted) := by
  have none : Worker.idle.jobs = [] := rfl
  have free : Worker.idle.unhanded = [] := rfl
  have less : ∀ other, delivered.count other + rejected'.count other + queue.count other +
      Worker.idle.unhanded.count other ≤ delivered.count other + rejected.count other +
        queue.count other + old.unhanded.count other := by
    intro other
    have bound := fewer other
    rw [free, count_nil]
    omega
  cases channel : job.enqueueOnly with
  | true =>
    apply books.move found
    · intro other
      simp only [has, none, if_true, count_append, count_nil]
      omega
    · exact less
    · exact books.replies
    · intro other member
      rcases mem_append.mp member with old | new
      · exact books.emissions other old
      · rw [mem_singleton.mp new]
        exact channel
  | false =>
    apply books.move found
    · intro other
      simp only [has, none, Bool.false_eq_true, if_false, count_append, count_nil]
      omega
    · exact less
    · intro other member
      rcases mem_append.mp member with old | new
      · exact books.replies other old
      · rw [mem_singleton.mp new]
        exact channel
    · exact books.emissions

end

end Books

section Entries

def Phase.isAccepted : Phase → Bool
  | .queued | .waiting => true
  | .answered .enqueued | .answered .result | .answered .lost => true
  | _ => false

/-- The phases that only a job of the given mode comes to. -/
def Phase.fits (phase : Phase) (enqueueOnly : Bool) : Prop :=
  match phase with
  | .queued | .waiting | .answered .result | .answered .lost => enqueueOnly = false
  | .answered .enqueued => enqueueOnly = true
  | _ => True

structure Entries (submissions : List Submission) (accepted : List Job) : Prop where
  fitting : ∀ submission ∈ submissions, submission.phase.fits submission.enqueueOnly
  counted : ∀ (index : Nat) submission, submissions[index]? = some submission →
    accepted.count ⟨index, submission.enqueueOnly⟩ =
      if submission.phase.isAccepted then 1 else 0
  known : ∀ job ∈ accepted, ∃ submission, submissions[job.id]? = some submission ∧
    submission.enqueueOnly = job.enqueueOnly

variable {submissions : List Submission} {accepted : List Job}

theorem Entries.enter (entries : Entries submissions accepted) (enqueueOnly : Bool) :
    Entries (submissions ++ [⟨enqueueOnly, .entered⟩]) accepted where
  fitting := by
    intro submission member
    rcases mem_append.mp member with old | new
    · exact entries.fitting submission old
    · rw [mem_singleton.mp new]
      trivial
  counted := by
    intro index submission found
    by_cases old : index < submissions.length
    · rw [getElem?_append_left old] at found
      exact entries.counted index submission found
    · have bound := List.getElem?_eq_some_iff.mp found
      have last : index = submissions.length := by
        have size := bound.1
        rw [length_append, length_singleton] at size
        omega
      rw [last, getElem?_concat_length] at found
      cases found
      apply count_eq_zero.mpr
      intro member
      obtain ⟨other, there, _⟩ := entries.known _ member
      have bound := (List.getElem?_eq_some_iff.mp there).1
      exact absurd last (Nat.ne_of_lt bound)
  known := by
    intro job member
    obtain ⟨submission, found, same⟩ := entries.known job member
    have bound := (List.getElem?_eq_some_iff.mp found).1
    exact ⟨submission, by rw [getElem?_append_left bound, found], same⟩

variable {submission : Submission}

variable {index : Nat} {phase : Phase}

section

variable (entries : Entries submissions accepted) (found : submissions[index]? = some submission)
  (fits : phase.fits submission.enqueueOnly)
include entries found fits

theorem Entries.setPhase {accepted' : List Job}
    (others : ∀ job : Job, job.id ≠ index → accepted'.count job = accepted.count job)
    (own : accepted'.count ⟨index, submission.enqueueOnly⟩ = if phase.isAccepted then 1 else 0)
    (known : ∀ job ∈ accepted', job ∈ accepted ∨ job = ⟨index, submission.enqueueOnly⟩) :
    Entries (submissions.set index { submission with phase }) accepted' where
  fitting := by
    intro present member
    rcases mem_or_eq_of_mem_set member with old | rfl
    · exact entries.fitting present old
    · exact fits
  counted := by
    intro other present there
    by_cases same : other = index
    · rw [same, getElem?_set_self (List.getElem?_eq_some_iff.mp found).1] at there
      cases there
      rw [same]
      exact own
    · rw [getElem?_set_ne (Ne.symm same)] at there
      rw [others ⟨other, _⟩ same]
      exact entries.counted other present there
  known := by
    intro job member
    have here : ∀ job : Job, job.id = index → job.enqueueOnly = submission.enqueueOnly →
        ∃ present, (submissions.set index { submission with phase })[job.id]? = some present ∧
          present.enqueueOnly = job.enqueueOnly := by
      intro job same channel
      refine ⟨{ submission with phase }, ?_, channel.symm⟩
      rw [same, getElem?_set_self (List.getElem?_eq_some_iff.mp found).1]
    rcases known job member with old | rfl
    · obtain ⟨present, there, channel⟩ := entries.known job old
      by_cases same : job.id = index
      · rw [same, found] at there
        cases there
        exact here job same channel.symm
      · exact ⟨present, by rw [getElem?_set_ne (Ne.symm same), there], channel⟩
    · exact here _ rfl rfl

theorem Entries.move (side : phase.isAccepted = submission.phase.isAccepted) :
    Entries (submissions.set index { submission with phase }) accepted := by
  apply entries.setPhase found fits
  · intro job _
    rfl
  · rw [side]
    exact entries.counted index submission found
  · intro job member
    exact Or.inl member

theorem Entries.accept (before : submission.phase.isAccepted = false)
    (behind : phase.isAccepted = true) :
    Entries (submissions.set index { submission with phase })
      (accepted ++ [⟨index, submission.enqueueOnly⟩]) := by
  apply entries.setPhase found fits
  · intro job different
    have other : (⟨index, submission.enqueueOnly⟩ : Job) ≠ job := by
      intro same
      exact different (congrArg Job.id same.symm)
    rw [count_append, count_singleton, if_neg (by simpa using other), Nat.add_zero]
  · have counted := entries.counted index submission found
    rw [before, if_neg Bool.false_ne_true] at counted
    rw [behind, if_pos rfl, count_append, counted, count_singleton_self]
  · intro job member
    rcases mem_append.mp member with old | new
    · exact Or.inl old
    · exact Or.inr (mem_singleton.mp new)

end

theorem Entries.count_le (entries : Entries submissions accepted) (job : Job) :
    accepted.count job ≤ 1 := by
  by_cases member : job ∈ accepted
  · obtain ⟨submission, found, channel⟩ := entries.known job member
    have counted := entries.counted job.id submission found
    rw [channel] at counted
    rw [counted]
    split
    · exact Nat.le_refl 1
    · exact Nat.zero_le 1
  · rw [count_eq_zero.mpr member]
    exact Nat.zero_le 1

end Entries

end OnlyJs.Plugin.Mail
