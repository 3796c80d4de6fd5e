import OnlyJs.Lib.Tally
import OnlyJs.Plugin.Mail.Engine

/-!
# The shutdown of the mail engine

Doors that are shut stay shut: once a worker has exited or a drain has left its wait, no
submission holds a sender. The exit signals are those of the workers that have exited, and each
goes to one drain.
-/

namespace OnlyJs.Plugin.Mail

open Lib.Tally List

set_option autoImplicit false

def DrainPhase.hasLeft : DrainPhase → Bool
  | .called | .waiting => false
  | _ => true

theorem exists_set {drains : List Drain} {index : Nat} {old : Drain}
    (found : drains[index]? = some old) {new : Drain} {has : Drain → Prop}
    (kept : has old → has new) (before : ∃ drain ∈ drains, has drain) :
    ∃ drain ∈ drains.set index new, has drain := by
  obtain ⟨drain, member, holds⟩ := before
  obtain ⟨other, there⟩ := getElem?_of_mem member
  by_cases same : other = index
  · rw [same, found] at there
    cases there
    have here := getElem?_set_self (a := new) (List.getElem?_eq_some_iff.mp found).1
    exact ⟨new, mem_of_getElem? here, kept holds⟩
  · have stays : (drains.set index new)[other]? = some drain := by
      rw [getElem?_set_ne (Ne.symm same)]
      exact there
    exact ⟨drain, mem_of_getElem? stays, holds⟩

section Doors

/-- No submission holds a sender. -/
def Quiet (submissions : List Submission) : Prop :=
  ∀ submission ∈ submissions, submission.phase.holds = false

structure Doors (txOpen rtThere : Bool) (queue : List Job) (workers : List Worker)
    (submissions : List Submission) (drains : List Drain) : Prop where
  shut : ∀ drain ∈ drains, drain.phase ≠ .called → txOpen = false
  left : ∀ drain ∈ drains, drain.phase.hasLeft = true → Quiet submissions
  exited : .exited ∈ workers → txOpen = false ∧ Quiet submissions ∧ queue = []
  killed : ∀ job, .killed job ∈ workers → rtThere = false
  destroyed : rtThere = false → ∃ drain ∈ drains, drain.phase.hasLeft = true

variable {txOpen rtThere : Bool} {queue : List Job} {workers : List Worker}
  {submissions : List Submission} {drains : List Drain}

variable {index : Nat} {submission : Submission}

section

variable (doors : Doors txOpen rtThere queue workers submissions drains)
include doors

theorem Doors.setPhase (found : submissions[index]? = some submission) {phase : Phase}
    (opened : phase.holds = true → submission.phase.holds = true ∨ txOpen = true) :
    Doors txOpen rtThere queue workers (submissions.set index { submission with phase })
      drains := by
  have quiet : Quiet submissions → txOpen = false →
      Quiet (submissions.set index { submission with phase }) := by
    intro before closed present member
    rcases mem_or_eq_of_mem_set member with old | rfl
    · exact before present old
    · by_contra holds
      rcases opened (Bool.eq_true_of_not_eq_false holds) with held | isOpen
      · rw [before submission (mem_of_getElem? found)] at held
        cases held
      · rw [closed] at isOpen
        cases isOpen
  constructor
  · exact doors.shut
  · intro drain member gone
    have called : drain.phase ≠ .called := by
      intro same
      rw [same] at gone
      cases gone
    exact quiet (doors.left drain member gone) (doors.shut drain member called)
  · intro member
    obtain ⟨closed, before, empty⟩ := doors.exited member
    exact ⟨closed, quiet before closed, empty⟩
  · exact doors.killed
  · exact doors.destroyed

theorem Doors.enter (enqueueOnly : Bool) :
    Doors txOpen rtThere queue workers (submissions ++ [⟨enqueueOnly, .entered⟩]) drains := by
  have quiet : Quiet submissions → Quiet (submissions ++ [⟨enqueueOnly, .entered⟩]) := by
    intro before submission member
    rcases mem_append.mp member with old | new
    · exact before submission old
    · rw [mem_singleton.mp new]
      rfl
  constructor
  · exact doors.shut
  · intro drain member gone
    exact quiet (doors.left drain member gone)
  · intro member
    obtain ⟨closed, before, empty⟩ := doors.exited member
    exact ⟨closed, quiet before, empty⟩
  · exact doors.killed
  · exact doors.destroyed

theorem Doors.requeue (busy : .exited ∉ workers) (queue' : List Job) :
    Doors txOpen rtThere queue' workers submissions drains := by
  constructor
  · exact doors.shut
  · exact doors.left
  · intro member
    exact absurd member busy
  · exact doors.killed
  · exact doors.destroyed

theorem Doors.setWorker (index : Nat) {worker : Worker}
    (exits : worker = .exited → txOpen = false ∧ Quiet submissions ∧ queue = [])
    (kills : ∀ job, worker = .killed job → rtThere = false) :
    Doors txOpen rtThere queue (workers.set index worker) submissions drains := by
  constructor
  · exact doors.shut
  · exact doors.left
  · intro member
    rcases mem_or_eq_of_mem_set member with old | new
    · exact doors.exited old
    · exact exits new.symm
  · intro job member
    rcases mem_or_eq_of_mem_set member with old | new
    · exact doors.killed job old
    · exact kills job new.symm
  · exact doors.destroyed

theorem Doors.setDrain {old new : Drain} (found : drains[index]? = some old)
    {txOpen' rtThere' : Bool} (closes : txOpen = false → txOpen' = false)
    (shut : new.phase ≠ .called → txOpen' = false)
    (left : new.phase.hasLeft = true → Quiet submissions)
    (stays : old.phase.hasLeft = true → new.phase.hasLeft = true)
    (falls : rtThere = false → rtThere' = false)
    (destroyed : rtThere' = false → rtThere = false ∨ new.phase.hasLeft = true) :
    Doors txOpen' rtThere' queue workers submissions (drains.set index new) := by
  constructor
  · intro drain member called
    rcases mem_or_eq_of_mem_set member with before | rfl
    · exact closes (doors.shut drain before called)
    · exact shut called
  · intro drain member gone
    rcases mem_or_eq_of_mem_set member with before | rfl
    · exact doors.left drain before gone
    · exact left gone
  · intro member
    obtain ⟨closed, quiet, empty⟩ := doors.exited member
    exact ⟨closes closed, quiet, empty⟩
  · intro job member
    exact falls (doors.killed job member)
  · intro down
    rcases destroyed down with before | gone
    · exact exists_set found stays (doors.destroyed before)
    · have here := getElem?_set_self (a := new) (List.getElem?_eq_some_iff.mp found).1
      exact ⟨new, mem_of_getElem? here, gone⟩

theorem Doors.call :
    Doors txOpen rtThere queue workers submissions (drains ++ [⟨0, .called⟩]) := by
  constructor
  · intro drain member called
    rcases mem_append.mp member with old | new
    · exact doors.shut drain old called
    · rw [mem_singleton.mp new] at called
      exact absurd rfl called
  · intro drain member gone
    rcases mem_append.mp member with old | new
    · exact doors.left drain old gone
    · rw [mem_singleton.mp new] at gone
      cases gone
  · exact doors.exited
  · exact doors.killed
  · intro down
    obtain ⟨drain, member, gone⟩ := doors.destroyed down
    exact ⟨drain, mem_append_left _ member, gone⟩

section

variable (found : submissions[index]? = some submission) (holds : submission.phase.holds = true)
include found holds

theorem Doors.busy :
    .exited ∉ workers := by
  intro member
  have quiet := (doors.exited member).2.1 submission (mem_of_getElem? found)
  rw [holds] at quiet
  cases quiet

theorem Doors.waiting :
    ∀ drain ∈ drains, drain.phase.hasLeft = false := by
  intro drain member
  by_contra gone
  have quiet := doors.left drain member (Bool.eq_true_of_not_eq_false gone) submission
    (mem_of_getElem? found)
  rw [holds] at quiet
  cases quiet

theorem Doors.runtime :
    rtThere = true := by
  by_contra down
  obtain ⟨drain, member, gone⟩ := doors.destroyed (Bool.eq_false_of_not_eq_true down)
  rw [doors.waiting found holds drain member] at gone
  cases gone

end

end

end Doors

section Signals

def Worker.exits : Worker → Nat
  | .exited => 1
  | _ => 0

structure Signals (config : Config) (gaveUp : Bool) (workers : List Worker) (signals : Nat)
    (drains : List Drain) : Prop where
  size : workers.length = config.workers
  sum : signals + tally Drain.got drains = tally Worker.exits workers
  bounded : ∀ drain ∈ drains, drain.got ≤ config.workers
  /-- The signals have gone to one drain. -/
  alone : gaveUp = false → ∀ (first second : Nat) one other, first ≠ second →
    drains[first]? = some one → drains[second]? = some other → one.got = 0 ∨ other.got = 0
  complete : gaveUp = false → (∃ drain ∈ drains, drain.phase.hasLeft = true) →
    ∃ drain ∈ drains, drain.got = config.workers

variable {config : Config} {gaveUp : Bool} {workers : List Worker} {signals : Nat}
  {drains : List Drain}

theorem Worker.exits_le (worker : Worker) : worker.exits ≤ 1 := by
  cases worker with
  | exited => exact Nat.le_refl 1
  | idle | holding job | sending job | killed job => exact Nat.zero_le 1

theorem Worker.of_exits {worker : Worker} (one : worker.exits = 1) : worker = .exited := by
  cases worker with
  | exited => rfl
  | idle | holding job | sending job | killed job => cases one

theorem Signals.setWorker (counts : Signals config gaveUp workers signals drains) {index : Nat}
    {old new : Worker} (found : workers[index]? = some old) {signals' : Nat}
    (same : signals' + old.exits = signals + new.exits) :
    Signals config gaveUp (workers.set index new) signals' drains where
  size := by
    rw [length_set]
    exact counts.size
  sum := by
    have sum := counts.sum
    have moved := tally_set Worker.exits found new
    omega
  bounded := counts.bounded
  alone := counts.alone
  complete := counts.complete

theorem Signals.call (counts : Signals config gaveUp workers signals drains) :
    Signals config gaveUp workers signals (drains ++ [⟨0, .called⟩]) where
  size := counts.size
  sum := by
    rw [tally_append]
    exact counts.sum
  bounded := by
    intro drain member
    rcases mem_append.mp member with old | new
    · exact counts.bounded drain old
    · rw [mem_singleton.mp new]
      exact Nat.zero_le _
  alone := by
    intro patient first second one other different atFirst atSecond
    by_cases early : first < drains.length
    · by_cases late : second < drains.length
      · rw [getElem?_append_left early] at atFirst
        rw [getElem?_append_left late] at atSecond
        exact counts.alone patient first second one other different atFirst atSecond
      · rw [getElem?_append_right (Nat.le_of_not_lt late)] at atSecond
        rw [mem_singleton.mp (mem_of_getElem? atSecond)]
        exact Or.inr rfl
    · rw [getElem?_append_right (Nat.le_of_not_lt early)] at atFirst
      rw [mem_singleton.mp (mem_of_getElem? atFirst)]
      exact Or.inl rfl
  complete := by
    rintro patient ⟨drain, member, gone⟩
    rcases mem_append.mp member with old | new
    · obtain ⟨full, among, has⟩ := counts.complete patient ⟨drain, old, gone⟩
      exact ⟨full, mem_append_left _ among, has⟩
    · rw [mem_singleton.mp new] at gone
      cases gone

variable {drain : Drain}

section

variable (counts : Signals config gaveUp workers signals drains)
include counts

/-- A drain moves on with the signals it has got. -/
theorem Signals.setDrain {index : Nat} (found : drains[index]? = some drain) {phase : DrainPhase}
    {gaveUp' : Bool} (patient : gaveUp' = false → gaveUp = false)
    (leaves : gaveUp' = false → phase.hasLeft = true →
      (∃ other ∈ drains, other.phase.hasLeft = true) ∨
      ∃ other ∈ drains, other.got = config.workers) :
    Signals config gaveUp' workers signals (drains.set index { drain with phase }) where
  size := counts.size
  sum := by
    have sum := counts.sum
    have moved := tally_set Drain.got found { drain with phase }
    dsimp only at moved
    omega
  bounded := by
    intro other member
    rcases mem_or_eq_of_mem_set member with before | rfl
    · exact counts.bounded other before
    · exact counts.bounded drain (mem_of_getElem? found)
  alone := by
    intro now first second one other different atFirst atSecond
    have earlier : ∀ (place : Nat) (present : Drain),
        (drains.set index { drain with phase })[place]? = some present →
          ∃ before, drains[place]? = some before ∧ before.got = present.got := by
      intro place present there
      by_cases same : place = index
      · rw [same, getElem?_set_self (List.getElem?_eq_some_iff.mp found).1] at there
        cases there
        exact ⟨drain, by rw [same, found], rfl⟩
      · rw [getElem?_set_ne (Ne.symm same)] at there
        exact ⟨present, there, rfl⟩
    obtain ⟨formerOne, wasFirst, sameOne⟩ := earlier first one atFirst
    obtain ⟨formerOther, wasSecond, sameOther⟩ := earlier second other atSecond
    rw [← sameOne, ← sameOther]
    exact counts.alone (patient now) first second formerOne formerOther different wasFirst
      wasSecond
  complete := by
    rintro now ⟨gone, member, left⟩
    have full : ∃ other ∈ drains, other.got = config.workers := by
      rcases mem_or_eq_of_mem_set member with before | rfl
      · exact counts.complete (patient now) ⟨gone, before, left⟩
      · rcases leaves now left with already | full
        · exact counts.complete (patient now) already
        · exact full
    exact exists_set found id full

/-- One signal goes to a drain that is not complete, and nobody else has got any. -/
theorem Signals.signal {index : Nat} (found : drains[index]? = some drain)
    (missing : drain.got < config.workers) (there : 0 < signals)
    (only : gaveUp = true ∨ ∀ (other : Nat) present, other ≠ index → drains[other]? = some present →
      present.got = 0) :
    Signals config gaveUp workers (signals - 1)
      (drains.set index { drain with got := drain.got + 1 }) where
  size := counts.size
  sum := by
    have sum := counts.sum
    have moved := tally_set Drain.got found { drain with got := drain.got + 1 }
    dsimp only at moved
    omega
  bounded := by
    intro other member
    rcases mem_or_eq_of_mem_set member with before | rfl
    · exact counts.bounded other before
    · exact missing
  alone := by
    intro patient first second one other different atFirst atSecond
    have rest : ∀ (place : Nat) (present : Drain), place ≠ index →
        (drains.set index { drain with got := drain.got + 1 })[place]? = some present →
          present.got = 0 := by
      intro place present away isThere
      rw [getElem?_set_ne (Ne.symm away)] at isThere
      rcases only with impatient | only
      · rw [patient] at impatient
        cases impatient
      · exact only place present away isThere
    by_cases own : first = index
    · exact Or.inr (rest second other (fun same => different (own.trans same.symm)) atSecond)
    · exact Or.inl (rest first one own atFirst)
  complete := by
    rintro patient ⟨gone, member, left⟩
    have before : ∃ other ∈ drains, other.phase.hasLeft = true := by
      rcases mem_or_eq_of_mem_set member with before | rfl
      · exact ⟨gone, before, left⟩
      · exact ⟨drain, mem_of_getElem? found, left⟩
    obtain ⟨full, among, has⟩ := counts.complete patient before
    obtain ⟨place, atPlace⟩ := getElem?_of_mem among
    by_cases own : place = index
    · rw [own, found] at atPlace
      cases atPlace
      omega
    · have stays : (drains.set index { drain with got := drain.got + 1 })[place]? =
          some full := by
        rw [getElem?_set_ne (Ne.symm own)]
        exact atPlace
      exact ⟨full, mem_of_getElem? stays, has⟩

theorem Signals.outlived (member : drain ∈ drains) (full : drain.got = config.workers) :
    ∀ worker ∈ workers, worker = .exited := by
  have own := weight_le_tally Drain.got member
  have sum := counts.sum
  have size := counts.size
  have all := one_of_full Worker.exits (fun worker _ => worker.exits_le)
    (show workers.length ≤ tally Worker.exits workers by omega)
  intro worker present
  exact Worker.of_exits (all worker present)

theorem Signals.taken (patient : gaveUp = false) (empty : signals = 0)
    (gone : ∀ worker ∈ workers, worker = .exited) :
    ∃ drain ∈ drains, drain.got = config.workers := by
  have all : tally Worker.exits workers = workers.length := by
    have same : workers = List.replicate workers.length .exited := eq_replicate_of_mem gone
    rw [same, tally_replicate, length_replicate]
    exact Nat.mul_one _
  have sum := counts.sum
  have size := counts.size
  have positive := config.workersPos
  obtain ⟨drain, member, full⟩ := alone_of_tally Drain.got
    (show 0 < tally Drain.got drains by omega) (counts.alone patient)
  exact ⟨drain, member, by omega⟩

end

end Signals

section Replies

/-- Behind a drain with all signals, no reply is left to be forwarded, and none was lost. -/
def Replies (config : Config) (submissions : List Submission) (drains : List Drain) : Prop :=
  ∀ drain ∈ drains, drain.phase = .disposing ∨ drain.phase = .returned →
    drain.got = config.workers → ∀ submission ∈ submissions,
      submission.phase ≠ .waiting ∧ submission.phase ≠ .answered .lost

variable {config : Config} {submissions : List Submission} {drains : List Drain}

section

variable (replies : Replies config submissions drains)
include replies

theorem Replies.setPhase {index : Nat} {submission : Submission}
    (found : submissions[index]? = some submission) {phase : Phase}
    (owing : phase = .waiting ∨ phase = .answered .lost →
      submission.phase = .waiting ∨ ∀ drain ∈ drains, drain.phase.hasLeft = false) :
    Replies config (submissions.set index { submission with phase }) drains := by
  intro drain member ended full present among
  rcases mem_or_eq_of_mem_set among with old | rfl
  · exact replies drain member ended full present old
  · have none : ¬(phase = .waiting ∨ phase = .answered .lost) := by
      intro owes
      rcases owing owes with before | waits
      · exact (replies drain member ended full submission (mem_of_getElem? found)).1 before
      · have here := waits drain member
        rcases ended with stage | stage <;> rw [stage] at here <;> cases here
    exact ⟨fun same => none (Or.inl same), fun same => none (Or.inr same)⟩

theorem Replies.enter (enqueueOnly : Bool) :
    Replies config (submissions ++ [⟨enqueueOnly, .entered⟩]) drains := by
  intro drain member ended full submission among
  rcases mem_append.mp among with old | new
  · exact replies drain member ended full submission old
  · rw [mem_singleton.mp new]
    exact ⟨nofun, nofun⟩

theorem Replies.call :
    Replies config submissions (drains ++ [⟨0, .called⟩]) := by
  intro drain member ended
  rcases mem_append.mp member with old | new
  · exact replies drain old ended
  · rw [mem_singleton.mp new] at ended
    rcases ended with stage | stage <;> cases stage

theorem Replies.setDrain (index : Nat) {new : Drain}
    (own : new.phase = .disposing ∨ new.phase = .returned → new.got = config.workers →
      ∀ submission ∈ submissions, submission.phase ≠ .waiting ∧
      submission.phase ≠ .answered .lost) :
    Replies config submissions (drains.set index new) := by
  intro drain member ended full
  rcases mem_or_eq_of_mem_set member with old | rfl
  · exact replies drain old ended full
  · exact own ended full

end

end Replies

end OnlyJs.Plugin.Mail
