import OnlyJs.Bridge.FramePool.Marks

/-!
# The order of the frames and their answers

The frames of a connection begin in the order of their numbers: a frame that waits
has a greater number than those ahead of it. A frame is in one place at a time
until it is answered, and is answered once.
-/

namespace OnlyJs.Bridge.FramePool

open List

def startedIds (conn : Nat) : List Event → List Nat
  | [] => []
  | .started frame _ :: older =>
    if frame.conn = conn then frame.id :: startedIds conn older else startedIds conn older
  | .fired _ :: older => startedIds conn older
  | .returned _ _ :: older => startedIds conn older
  | .answered _ _ :: older => startedIds conn older

def answeredIds : List Event → List Nat
  | [] => []
  | .answered frame _ :: older => frame.id :: answeredIds older
  | .fired _ :: older => answeredIds older
  | .started _ _ :: older => answeredIds older
  | .returned _ _ :: older => answeredIds older

theorem startedIds_answer (conn : Nat) (frames : List Frame) (answer : Answer)
    (history : List Event) :
    startedIds conn (frames.map (.answered · answer) ++ history) = startedIds conn history := by
  induction frames with
  | nil => rfl
  | cons frame rest ih => exact ih

theorem answeredIds_answer (frames : List Frame) (answer : Answer) (history : List Event) :
    answeredIds (frames.map (.answered · answer) ++ history) =
      frames.map Frame.id ++ answeredIds history := by
  induction frames with
  | nil => rfl
  | cons frame rest ih => exact congrArg _ ih

variable {frame : Frame}

theorem fired_answer {frames : List Frame} {answer : Answer} {history : List Event} :
    .fired frame ∈ frames.map (Event.answered · answer) ++ history ↔ .fired frame ∈ history := by
  rw [mem_append, or_iff_right]
  intro listed
  obtain ⟨_, _, absurd⟩ := mem_map.mp listed
  cases absurd

namespace Pool

/-- A frame that is queued, waits, or is held by a worker. -/
def Located (pool : Pool) (frame : Frame) : Prop :=
  frame ∈ pool.ready ∨ frame ∈ pool.waiting ∨
    ∃ worker, (pool.workers worker).holds = some frame

/-- A frame that has not begun. -/
def Pending (pool : Pool) (frame : Frame) : Prop :=
  frame ∈ pool.ready ∨ frame ∈ pool.waiting ∨
    ∃ worker, (pool.workers worker).isPulled = some frame

end Pool

theorem pulled_holds {phase : Phase} (pulled : phase.isPulled = some frame) :
    phase = .pulled frame := by
  cases phase <;> cases pulled
  rfl

theorem holds_cases {phase : Phase} (holds : phase.holds = some frame) :
    phase.isPulled = some frame ∨ phase.began = some frame := by
  cases phase <;> first | exact .inl holds | exact .inr holds

structure Order (pool : Pool) : Prop where
  waiting_sorted : pool.waiting.Pairwise fun frame other => frame.id < other.id
  ready_before : ∀ frame ∈ pool.ready, ∀ other ∈ pool.waiting, frame.conn = other.conn →
    frame.id < other.id
  pulled_before : ∀ worker frame, (pool.workers worker).isPulled = some frame →
    ∀ other ∈ pool.waiting, frame.conn = other.conn → frame.id < other.id
  started_before : ∀ frame, pool.Pending frame →
    ∀ id ∈ startedIds frame.conn pool.history, id < frame.id
  started_sorted : ∀ conn, (startedIds conn pool.history).Pairwise (· > ·)
  started_numbered : ∀ conn, ∀ id ∈ startedIds conn pool.history, id < pool.nextFrame
  began_started : ∀ worker frame, (pool.workers worker).began = some frame →
    frame.id ∈ startedIds frame.conn pool.history
  held_alone : ∀ worker other frame, (pool.workers worker).holds = some frame →
    (pool.workers other).holds = some frame → worker = other

theorem order_initial : Order .initial where
  waiting_sorted := .nil
  ready_before := fun _ absurd => nomatch absurd
  pulled_before := fun _ _ absurd => nomatch absurd
  started_before := fun _ _ _ absurd => nomatch absurd
  started_sorted := fun _ => .nil
  started_numbered := fun _ _ absurd => nomatch absurd
  began_started := fun _ _ absurd => nomatch absurd
  held_alone := fun _ _ _ absurd => nomatch absurd

theorem Order.mono {pool next : Pool} (order : Order pool)
    (waiting : next.waiting.Sublist pool.waiting)
    (ready : ∀ frame ∈ next.ready, frame ∈ pool.ready)
    (pulled : ∀ worker frame, (next.workers worker).isPulled = some frame →
      (pool.workers worker).isPulled = some frame ∨ frame ∈ pool.ready)
    (began : ∀ worker frame, (next.workers worker).began = some frame →
      (pool.workers worker).began = some frame)
    (started : ∀ conn, startedIds conn next.history = startedIds conn pool.history)
    (numbers : pool.nextFrame ≤ next.nextFrame)
    (alone : ∀ worker other frame, (next.workers worker).holds = some frame →
      (next.workers other).holds = some frame → worker = other) : Order next := by
  refine ⟨order.waiting_sorted.sublist waiting, ?_, ?_, ?_, ?_, ?_, ?_, alone⟩
  · intro frame listed other later
    exact order.ready_before frame (ready frame listed) other (waiting.subset later)
  · intro worker frame held other later
    rcases pulled worker frame held with held | listed
    · exact order.pulled_before worker frame held other (waiting.subset later)
    · exact order.ready_before frame listed other (waiting.subset later)
  · intro frame pending
    rw [started]
    apply order.started_before frame
    rcases pending with listed | listed | ⟨worker, held⟩
    · exact .inl (ready frame listed)
    · exact .inr (.inl (waiting.subset listed))
    · rcases pulled worker frame held with held | listed
      · exact .inr (.inr ⟨worker, held⟩)
      · exact .inl listed
  · intro conn
    rw [started]
    exact order.started_sorted conn
  · intro conn id listed
    rw [started] at listed
    exact Nat.lt_of_lt_of_le (order.started_numbered conn id listed) numbers
  · intro worker frame held
    rw [started]
    exact order.began_started worker frame (began worker frame held)

section

variable {pool : Pool}

theorem ready_nodup (marks : Marks pool) : pool.ready.Nodup :=
  marks.ready_alone.imp fun apart same => apart (congrArg Frame.conn same)

theorem waiting_nodup (order : Order pool) : pool.waiting.Nodup := by
  refine order.waiting_sorted.imp ?_
  rintro frame _ less rfl
  exact Nat.lt_irrefl _ less

variable {frame : Frame}

theorem ready_not_waiting (order : Order pool) (listed : frame ∈ pool.ready) :
    frame ∉ pool.waiting := fun waits =>
  Nat.lt_irrefl _ (order.ready_before frame listed frame waits rfl)

theorem began_not_pending (order : Order pool) {worker : Nat}
    (began : (pool.workers worker).began = some frame) : ¬ pool.Pending frame := fun pending =>
  Nat.lt_irrefl _
    (order.started_before frame pending _ (order.began_started worker frame began))

theorem ready_not_held (marks : Marks pool) (order : Order pool) (listed : frame ∈ pool.ready)
    (worker : Nat) :
    (pool.workers worker).holds ≠ some frame := by
  intro holds
  rcases holds_cases holds with pulled | began
  · apply marks.ready_free frame listed worker
    rw [pulled_holds pulled]
    rfl
  · exact began_not_pending order began (.inl listed)

theorem waiting_not_held (order : Order pool) (listed : frame ∈ pool.waiting) (worker : Nat) :
    (pool.workers worker).holds ≠ some frame := by
  intro holds
  rcases holds_cases holds with pulled | began
  · exact Nat.lt_irrefl _ (order.pulled_before worker frame pulled frame listed rfl)
  · exact began_not_pending order began (.inr (.inl listed))

end

/-- The account of the frames that have been fired: each is located or answered, and
not both. -/
structure Books (history : List Event) (nextFrame connSeq : Nat) (located : Frame → Prop) :
    Prop where
  fired_numbered : ∀ frame, .fired frame ∈ history → frame.id < nextFrame
  fired_unique : ∀ frame other, .fired frame ∈ history → .fired other ∈ history →
    frame.id = other.id → frame = other
  located_fired : ∀ frame, located frame → .fired frame ∈ history
  unanswered : ∀ frame, located frame → frame.id ∉ answeredIds history
  answered_numbered : ∀ id ∈ answeredIds history, id < nextFrame
  once : (answeredIds history).Nodup
  covered : ∀ frame, .fired frame ∈ history →
    frame.id ∈ answeredIds history ∨ located frame
  proper : ∀ frame, located frame → frame.conn ≠ 0 ∧ frame.conn ≤ connSeq

variable {history : List Event} {nextFrame connSeq : Nat} {located remaining : Frame → Prop}

theorem Books.numbered (books : Books history nextFrame connSeq located) (held : located frame) :
    frame.id < nextFrame :=
  books.fired_numbered frame (books.located_fired frame held)

theorem Books.congr {next : List Event} {later : Nat}
    (books : Books history nextFrame connSeq located)
    (same : ∀ frame, remaining frame ↔ located frame)
    (fired : ∀ frame, .fired frame ∈ next ↔ .fired frame ∈ history)
    (answered : answeredIds next = answeredIds history) (grows : connSeq ≤ later) :
    Books next nextFrame later remaining := by
  refine ⟨?_, ?_, ?_, ?_, ?_, ?_, ?_, ?_⟩
  · exact fun frame listed => books.fired_numbered frame ((fired frame).mp listed)
  · intro frame other listed held
    exact books.fired_unique frame other ((fired frame).mp listed) ((fired other).mp held)
  · exact fun frame held => (fired frame).mpr (books.located_fired frame ((same frame).mp held))
  · intro frame held
    rw [answered]
    exact books.unanswered frame ((same frame).mp held)
  · rw [answered]
    exact books.answered_numbered
  · rw [answered]
    exact books.once
  · intro frame listed
    rw [answered, same]
    exact books.covered frame ((fired frame).mp listed)
  · intro frame held
    have ⟨nonzero, bound⟩ := books.proper frame ((same frame).mp held)
    exact ⟨nonzero, Nat.le_trans bound grows⟩

section

variable (books : Books history nextFrame connSeq located)
include books

/-- Some of the located frames are answered and leave. -/
theorem Books.answer (answer : Answer) {frames : List Frame}
    (held : ∀ frame ∈ frames, located frame) (distinct : frames.Nodup)
    (left : ∀ frame, remaining frame ↔ located frame ∧ frame ∉ frames) :
    Books (frames.map (.answered · answer) ++ history) nextFrame connSeq remaining := by
  have same : ∀ frame other, located frame → located other → frame.id = other.id →
      frame = other := fun frame other first second =>
    books.fired_unique frame other (books.located_fired frame first)
      (books.located_fired other second)
  refine ⟨?_, ?_, ?_, ?_, ?_, ?_, ?_, ?_⟩
  · exact fun frame listed => books.fired_numbered frame (fired_answer.mp listed)
  · intro frame other listed later
    exact books.fired_unique frame other (fired_answer.mp listed) (fired_answer.mp later)
  · intro frame stays
    exact fired_answer.mpr (books.located_fired frame ((left frame).mp stays).1)
  · intro frame stays listed
    obtain ⟨stood, outside⟩ := (left frame).mp stays
    rw [answeredIds_answer] at listed
    rcases mem_append.mp listed with listed | listed
    · obtain ⟨other, among, number⟩ := mem_map.mp listed
      rw [same frame other stood (held other among) number.symm] at outside
      exact outside among
    · exact books.unanswered frame stood listed
  · intro id listed
    rw [answeredIds_answer] at listed
    rcases mem_append.mp listed with listed | listed
    · obtain ⟨other, among, rfl⟩ := mem_map.mp listed
      exact books.numbered (held other among)
    · exact books.answered_numbered id listed
  · rw [answeredIds_answer]
    refine nodup_append.mpr ⟨?_, books.once, ?_⟩
    · exact distinct.map_on fun frame listed other later =>
        same frame other (held frame listed) (held other later)
    · intro id among other listed number
      obtain ⟨frame, chosen, rfl⟩ := mem_map.mp among
      exact books.unanswered frame (held frame chosen) (number ▸ listed)
  · intro frame listed
    rw [answeredIds_answer]
    rcases books.covered frame (fired_answer.mp listed) with done | stood
    · exact .inl (mem_append_right _ done)
    · by_cases among : frame ∈ frames
      · exact .inl (mem_append_left _ (mem_map_of_mem among))
      · exact .inr ((left frame).mpr ⟨stood, among⟩)
  · exact fun frame stays => books.proper frame ((left frame).mp stays).1

/-- A new frame is located, under the next number. -/
theorem Books.fire {conn : Nat} (proper : conn ≠ 0 ∧ conn ≤ connSeq)
    (added : ∀ frame, remaining frame ↔ located frame ∨ frame = ⟨nextFrame, conn⟩) :
    Books (.fired ⟨nextFrame, conn⟩ :: history) (nextFrame + 1) connSeq remaining := by
  refine ⟨?_, ?_, ?_, ?_, ?_, books.once, ?_, ?_⟩
  · intro frame listed
    rcases mem_cons.mp listed with same | listed
    · cases same
      exact Nat.lt_succ_self _
    · exact Nat.lt_succ_of_lt (books.fired_numbered frame listed)
  · intro frame other listed later same
    rcases mem_cons.mp listed with newest | listed
    · rcases mem_cons.mp later with newer | later
      · cases newest
        cases newer
        rfl
      · cases newest
        exact absurd (books.fired_numbered other later) (same ▸ Nat.lt_irrefl _)
    · rcases mem_cons.mp later with newest | later
      · cases newest
        exact absurd (books.fired_numbered frame listed) (same ▸ Nat.lt_irrefl _)
      · exact books.fired_unique frame other listed later same
  · intro frame held
    rcases (added frame).mp held with held | rfl
    · exact mem_cons_of_mem _ (books.located_fired frame held)
    · exact mem_cons_self
  · intro frame held
    rcases (added frame).mp held with held | rfl
    · exact books.unanswered frame held
    · exact fun listed => Nat.lt_irrefl _ (books.answered_numbered _ listed)
  · exact fun id listed => Nat.lt_succ_of_lt (books.answered_numbered id listed)
  · intro frame listed
    rcases mem_cons.mp listed with same | listed
    · cases same
      exact .inr ((added _).mpr (.inr rfl))
    · rcases books.covered frame listed with done | held
      · exact .inl done
      · exact .inr ((added frame).mpr (.inl held))
  · intro frame held
    rcases (added frame).mp held with held | rfl
    · exact books.proper frame held
    · exact proper

theorem Books.refuse (conn : Nat) (answer : Answer) :
    Books (.answered ⟨nextFrame, conn⟩ answer :: .fired ⟨nextFrame, conn⟩ :: history)
      (nextFrame + 1) connSeq located := by
  have fired : ∀ frame, .fired frame ∈ (.answered ⟨nextFrame, conn⟩ answer ::
      .fired ⟨nextFrame, conn⟩ :: history : List Event) ↔
        frame = ⟨nextFrame, conn⟩ ∨ .fired frame ∈ history := by
    simp
  refine ⟨?_, ?_, ?_, ?_, ?_, ?_, ?_, books.proper⟩
  · intro frame listed
    rcases (fired frame).mp listed with rfl | listed
    · exact Nat.lt_succ_self _
    · exact Nat.lt_succ_of_lt (books.fired_numbered frame listed)
  · intro frame other listed later same
    rcases (fired frame).mp listed with rfl | listed
    · rcases (fired other).mp later with rfl | later
      · rfl
      · exact absurd (books.fired_numbered other later) (same ▸ Nat.lt_irrefl _)
    · rcases (fired other).mp later with rfl | later
      · exact absurd (books.fired_numbered frame listed) (same ▸ Nat.lt_irrefl _)
      · exact books.fired_unique frame other listed later same
  · exact fun frame held => (fired frame).mpr (.inr (books.located_fired frame held))
  · intro frame held listed
    rcases mem_cons.mp listed with number | listed
    · exact absurd (books.numbered held) (number ▸ Nat.lt_irrefl _)
    · exact books.unanswered frame held listed
  · intro id listed
    rcases mem_cons.mp listed with rfl | listed
    · exact Nat.lt_succ_self _
    · exact Nat.lt_succ_of_lt (books.answered_numbered id listed)
  · refine nodup_cons.mpr ⟨fun listed => ?_, books.once⟩
    exact Nat.lt_irrefl _ (books.answered_numbered _ listed)
  · intro frame listed
    rcases (fired frame).mp listed with rfl | listed
    · exact .inl mem_cons_self
    · rcases books.covered frame listed with done | held
      · exact .inl (mem_cons_of_mem _ done)
      · exact .inr held

end

end OnlyJs.Bridge.FramePool
