import OnlyJs.Bridge.FramePool.Order

/-!
# The state between the frames

A session holds the state that the last frame returned, or the worker that still
has to store it is known. A frame that begins while no such worker is left is
handed the state of the frame before it.
-/

namespace OnlyJs.Bridge.FramePool

def lastReturned (conn : Nat) : List Event → Value
  | [] => .null
  | .returned frame state :: older =>
    if frame.conn = conn then state else lastReturned conn older
  | .fired _ :: older => lastReturned conn older
  | .started _ _ :: older => lastReturned conn older
  | .answered _ _ :: older => lastReturned conn older

/-- Every frame was handed the state last returned before it. -/
def Threaded : List Event → Prop
  | [] => True
  | .started frame state :: older => state = lastReturned frame.conn older ∧ Threaded older
  | .fired _ :: older => Threaded older
  | .returned _ _ :: older => Threaded older
  | .answered _ _ :: older => Threaded older

theorem lastReturned_answer (conn : Nat) (frames : List Frame) (answer : Answer)
    (history : List Event) :
    lastReturned conn (frames.map (.answered · answer) ++ history) =
      lastReturned conn history := by
  induction frames with
  | nil => rfl
  | cons frame rest ih => exact ih

theorem threaded_answer {frames : List Frame} {answer : Answer} {history : List Event}
    (threaded : Threaded history) :
    Threaded (frames.map (.answered · answer) ++ history) := by
  induction frames with
  | nil => exact threaded
  | cons frame rest ih => exact ih

structure Threads (pool : Pool) : Prop where
  threaded : Threaded pool.history
  unwritten : ∀ worker conn state, (pool.workers worker).unwritten = some (conn, state) →
    lastReturned conn pool.history = state
  running : ∀ worker frame state, pool.workers worker = .running frame state →
    ∀ other stored, (pool.workers other).unwritten ≠ some (frame.conn, stored)
  stored : ∀ conn state, pool.sessions.lookup conn = some state →
    (∃ worker returned, (pool.workers worker).unwritten = some (conn, returned)) ∨
      state = lastReturned conn pool.history
  fresh : ∀ conn, pool.connSeq < conn →
    lastReturned conn pool.history = .null

theorem threads_initial : Threads .initial where
  threaded := trivial
  unwritten := fun _ _ _ absurd => nomatch absurd
  running := fun _ _ _ absurd => nomatch absurd
  stored := fun conn state found => by
    cases found
  fresh := fun _ _ => rfl

variable {pool : Pool}

theorem Threads.congr {next : Pool} (threads : Threads pool)
    (returned : ∀ conn, lastReturned conn next.history = lastReturned conn pool.history)
    (threaded : Threaded next.history)
    (unwritten : ∀ worker, (next.workers worker).unwritten = (pool.workers worker).unwritten)
    (running : ∀ worker frame state, next.workers worker = .running frame state →
      pool.workers worker = .running frame state)
    (sessions : ∀ conn state, next.sessions.lookup conn = some state →
      pool.sessions.lookup conn = some state)
    (connSeq : next.connSeq = pool.connSeq) : Threads next := by
  refine ⟨threaded, ?_, ?_, ?_, ?_⟩
  · intro worker conn state held
    rw [unwritten] at held
    rw [returned]
    exact threads.unwritten worker conn state held
  · intro worker frame state runs other stored
    rw [unwritten]
    exact threads.running worker frame state (running worker frame state runs) other stored
  · intro conn state found
    simp only [unwritten, returned]
    exact threads.stored conn state (sessions conn state found)
  · intro conn beyond
    rw [returned]
    exact threads.fresh conn (connSeq ▸ beyond)

/-- The session of a connection is there, and no worker has a state to store in it. -/
def Pool.ReadsCurrent (pool : Pool) (conn : Nat) : Prop :=
  (pool.sessions.lookup conn).isSome ∧
    ∀ worker state, (pool.workers worker).unwritten ≠ some (conn, state)

variable {worker : Nat}

theorem Threads.place (threads : Threads pool) {phase : Phase}
    (unwritten : phase.unwritten = (pool.workers worker).unwritten)
    (idle : ∀ frame state, phase ≠ .running frame state) : Threads (pool.place worker phase) := by
  refine threads.congr (fun _ => rfl) threads.threaded ?_ ?_ (fun _ _ found => found) rfl
  · intro other
    rw [Pool.place_workers]
    split
    · rename_i same
      rw [same, unwritten]
    · rfl
  · intro other frame state runs
    rw [Pool.place_workers] at runs
    split at runs
    · exact absurd runs (idle frame state)
    · exact runs

theorem Threads.answer (threads : Threads pool) (frames : List Frame) (answer : Answer) :
    Threads (pool.answer frames answer) :=
  threads.congr (fun conn => lastReturned_answer conn frames answer pool.history)
    (threaded_answer threads.threaded) (fun _ => rfl) (fun _ _ _ runs => runs)
    (fun _ _ found => found) rfl

variable {frame : Frame}

section

variable (threads : Threads pool)
include threads

theorem Threads.start (before : pool.workers worker = .pulled frame)
    (current : pool.ReadsCurrent frame.conn) :
    Threads ((pool.observe (.started frame (pool.stateOf frame.conn))).place worker
      (.running frame (pool.stateOf frame.conn))) := by
  have unwritten : ∀ other, (((pool.observe (.started frame (pool.stateOf frame.conn))).place
      worker (.running frame (pool.stateOf frame.conn))).workers other).unwritten =
        (pool.workers other).unwritten := by
    intro other
    rw [Pool.place_workers]
    split
    · rename_i same
      rw [same, before]
      rfl
    · rfl
  refine ⟨⟨?_, threads.threaded⟩, ?_, ?_, ?_, threads.fresh⟩
  · obtain ⟨state, found⟩ := Option.isSome_iff_exists.mp current.1
    rw [Pool.stateOf, found]
    rcases threads.stored frame.conn state found with ⟨other, returned, held⟩ | same
    · exact absurd held (current.2 other returned)
    · exact same
  · intro other conn state held
    rw [unwritten] at held
    exact threads.unwritten other conn state held
  · intro one begun state runs other stored
    rw [unwritten]
    rw [Pool.place_workers] at runs
    split at runs
    · cases runs
      exact current.2 other stored
    · exact threads.running one begun state runs other stored
  · intro conn state found
    simp only [unwritten]
    exact threads.stored conn state found

/-- A state comes back while the frame alone is in flight. -/
theorem Threads.finish (marks : Marks pool) {state : Value}
    (before : pool.workers worker = .running frame state) (known : frame.conn ≤ pool.connSeq)
    (returned : Value) :
    Threads ((pool.observe (.returned frame returned)).place worker
      (.ended frame (.ok (some returned)))) := by
  have carried : (pool.workers worker).carries = some frame.conn := by
    rw [before]
    rfl
  have others : ∀ other conn stored, other ≠ worker →
      (pool.workers other).unwritten = some (conn, stored) → conn ≠ frame.conn := by
    rintro other conn stored _ held rfl
    exact threads.running worker frame state before other stored held
  have last : ∀ conn, conn ≠ frame.conn →
      lastReturned conn (.returned frame returned :: pool.history) =
        lastReturned conn pool.history := by
    intro conn differs
    rw [lastReturned, if_neg differs.symm]
  have here : lastReturned frame.conn (.returned frame returned :: pool.history) = returned := by
    rw [lastReturned, if_pos rfl]
  refine ⟨threads.threaded, ?_, ?_, ?_, ?_⟩
  · intro other conn stored held
    rw [Pool.place_workers] at held
    split at held
    · cases held
      exact here
    · rename_i differs
      refine (last conn (others other conn stored differs held)).trans ?_
      exact threads.unwritten other conn stored held
  · intro one begun state runs other stored held
    rw [Pool.place_workers] at runs held
    split at runs
    · cases runs
    · rename_i differs
      split at held
      · have same : frame.conn = begun.conn := congrArg Prod.fst (Option.some.inj held)
        refine differs (marks.carrier one worker frame.conn ?_ carried)
        have runs : pool.workers one = .running begun state := runs
        rw [runs, same]
        rfl
      · exact threads.running one begun state runs other stored held
  · intro conn stored found
    by_cases same : conn = frame.conn
    · refine .inl ⟨worker, returned, ?_⟩
      rw [Pool.place_workers, if_pos rfl, same]
      rfl
    · rcases threads.stored conn stored found with ⟨other, value, held⟩ | current
      · refine .inl ⟨other, value, ?_⟩
        rw [Pool.place_workers]
        split
        · rename_i own
          rw [own, before] at held
          cases held
        · exact held
      · exact .inr (current.trans (last conn same).symm)
  · intro conn beyond
    refine (last conn ?_).trans (threads.fresh conn beyond)
    rintro rfl
    exact Nat.lt_irrefl _ (Nat.lt_of_lt_of_le beyond known)

/-- The state that came back last is stored. -/
theorem Threads.write {result : Ended} (before : pool.workers worker = .completed frame result) :
    Threads ((pool.writeBack frame.conn result).place worker (.answering frame result)) := by
  cases result with
  | timeout | oom | core => exact threads.place (by rw [before]; rfl) nofun
  | ok returned =>
    cases returned with
    | none => exact threads.place (by rw [before]; rfl) nofun
    | some returned =>
      have last : lastReturned frame.conn pool.history = returned := by
        refine threads.unwritten worker frame.conn returned ?_
        rw [before]
        rfl
      have history : (pool.writeBack frame.conn (.ok (some returned))).history =
          pool.history := by
        rw [Pool.writeBack]
        split <;> rfl
      have workers : (pool.writeBack frame.conn (.ok (some returned))).workers =
          pool.workers := by
        rw [Pool.writeBack]
        split <;> rfl
      have connSeq : (pool.writeBack frame.conn (.ok (some returned))).connSeq =
          pool.connSeq := by
        rw [Pool.writeBack]
        split <;> rfl
      have lookup : ∀ conn state,
          (pool.writeBack frame.conn (.ok (some returned))).sessions.lookup conn =
            some state → conn = frame.conn ∧ state = returned ∨
              conn ≠ frame.conn ∧ pool.sessions.lookup conn = some state := by
        intro conn state found
        rw [Pool.writeBack] at found
        split at found
        · by_cases same : conn = frame.conn
          · rw [same, Finmap.lookup_insert] at found
            exact .inl ⟨same, (Option.some.inj found).symm⟩
          · rw [Finmap.lookup_insert_of_ne _ same] at found
            exact .inr ⟨same, found⟩
        · rename_i absent
          refine .inr ⟨?_, found⟩
          rintro rfl
          rw [found] at absent
          exact absent rfl
      have unwritten : ∀ other conn state,
          (((pool.writeBack frame.conn (.ok (some returned))).place worker
            (.answering frame (.ok (some returned)))).workers other).unwritten =
              some (conn, state) →
            (pool.workers other).unwritten = some (conn, state) := by
        intro other conn state held
        rw [Pool.place_workers, workers] at held
        split at held
        · cases held
        · exact held
      refine ⟨?_, ?_, ?_, ?_, ?_⟩
      · exact history ▸ threads.threaded
      · intro other conn state held
        change lastReturned conn (pool.writeBack _ _).history = state
        rw [history]
        exact threads.unwritten other conn state (unwritten other conn state held)
      · intro one begun state runs other stored held
        rw [Pool.place_workers, workers] at runs
        split at runs
        · cases runs
        · exact threads.running one begun state runs other stored
            (unwritten other _ stored held)
      · intro conn state found
        change _ ∨ state = lastReturned conn (pool.writeBack _ _).history
        rw [history]
        rcases lookup conn state found with ⟨rfl, rfl⟩ | ⟨differs, found⟩
        · exact .inr last.symm
        · rcases threads.stored conn state found with ⟨other, value, held⟩ | current
          · refine .inl ⟨other, value, ?_⟩
            rw [Pool.place_workers, workers]
            split
            · rename_i own
              rw [own, before] at held
              cases held
              exact absurd rfl differs
            · exact held
          · exact .inr current
      · intro conn beyond
        change lastReturned conn (pool.writeBack _ _).history = _
        rw [history]
        exact threads.fresh conn (connSeq ▸ beyond)

theorem Threads.attach :
    Threads { pool with
      connSeq := pool.connSeq + 1
      sessions := pool.sessions.insert (pool.connSeq + 1) .null } := by
  refine ⟨threads.threaded, threads.unwritten, threads.running, ?_, ?_⟩
  · intro conn state found
    by_cases same : conn = pool.connSeq + 1
    · rw [same, Finmap.lookup_insert] at found
      cases found
      exact .inr (threads.fresh conn (same ▸ Nat.lt_succ_self _)).symm
    · rw [Finmap.lookup_insert_of_ne _ same] at found
      exact threads.stored conn state found
  · exact fun conn beyond => threads.fresh conn (Nat.lt_of_succ_lt beyond)

end

end OnlyJs.Bridge.FramePool
