import OnlyJs.Lib.Fallible
import OnlyJs.Serve.Multipart.Reader

/-!
# Buffers of the two readers, and where they agree

A text is bounded by the limit, a file is buffered up to the limit and carried over beyond it.
Part by part this gives what a whole body needs in memory, and which bodies both readers read
alike.
-/

namespace OnlyJs.Serve.Multipart

open Lib List Option
open Serve.Upload (Limits)

theorem piece_le (part : Part) (count : Nat) :
    (part.chunks.take count).flatten.length ≤ part.size := calc
  (part.chunks.take count).flatten.length
      ≤ ((part.chunks.take count).flatten ++ (part.chunks.drop count).flatten).length := by
        rw [length_append]
        exact Nat.le_add_right _ _
  _ = part.size := by
        rw [← flatten_append, take_append_drop, Part.size]

section Text

variable {limits : Limits}

section

variable (memory : Memory) (chunks : List (List UInt8))
  (within : memory.text.length ≤ limits.maxUpload)
include memory chunks within

theorem textChunks_outcome :
    (textChunks limits memory chunks).outcome =
      if memory.text.length + chunks.flatten.length ≤ limits.maxUpload then
        .ok { memory with text := memory.text ++ chunks.flatten }
      else .error tooLarge := by
  induction chunks generalizing memory with
  | nil =>
    rw [flatten_nil, length_nil, Nat.add_zero, if_pos within, append_nil]
    rfl
  | cons chunk rest ih =>
    rw [flatten_cons, length_append]
    change Run.outcome (if memory.text.length + chunk.length > limits.maxUpload then
      Run.ends (.error tooLarge)
      else textChunks limits { memory with text := memory.text ++ chunk } rest) = _
    by_cases large : memory.text.length + chunk.length > limits.maxUpload
    · rw [if_pos large, if_neg (by omega)]
      rfl
    · have fits : (memory.text ++ chunk).length ≤ limits.maxUpload := by
        rw [length_append]
        omega
      rw [if_neg large, ih _ fits, length_append, append_assoc, Nat.add_assoc]

/-- The buffer goes through the pieces of the part that fit. -/
theorem textChunks_all :
    (textChunks limits memory chunks).All (fun held => held.textBytes ≤ limits.maxUpload) ↔
      ∀ count ≤ chunks.length,
        memory.text.length + (chunks.take count).flatten.length ≤ limits.maxUpload →
          memory.textBytes + (chunks.take count).flatten.length ≤ limits.maxUpload := by
  induction chunks generalizing memory with
  | nil =>
    rw [textChunks, all_waits]
    constructor
    · rintro ⟨held, _⟩ count _ _
      rw [take_nil]
      exact held
    · intro pieces
      exact ⟨pieces 0 (Nat.le_refl _) within, all_ends _ _⟩
  | cons chunk rest ih =>
    rw [textChunks, all_waits]
    by_cases large : memory.text.length + chunk.length > limits.maxUpload
    · rw [if_pos large]
      constructor
      · rintro ⟨held, _⟩ count _ fits
        cases count with
        | zero => exact held
        | succ count =>
          rw [take_succ_cons, flatten_cons, length_append] at fits
          omega
      · intro pieces
        exact ⟨pieces 0 (Nat.zero_le _) within, all_ends _ _⟩
    · have fits : (memory.text ++ chunk).length ≤ limits.maxUpload := by
        rw [length_append]
        omega
      have longer (count : Nat) : ((chunk :: rest).take (count + 1)).flatten.length =
          chunk.length + (rest.take count).flatten.length := by
        rw [take_succ_cons, flatten_cons, length_append]
      have moved : ({ memory with text := memory.text ++ chunk } : Memory).textBytes =
          memory.textBytes + chunk.length := by
        rw [Memory.textBytes, Memory.textBytes, length_append, Nat.add_assoc]
      rw [if_neg large, ih _ fits, length_append]
      constructor
      · rintro ⟨held, later⟩ count bound piece
        cases count with
        | zero => exact held
        | succ count =>
          rw [longer] at piece ⊢
          have next := later count (Nat.le_of_succ_le_succ bound) (by omega)
          omega
      · intro pieces
        apply And.intro (pieces 0 (Nat.zero_le _) within)
        intro count bound piece
        have next := pieces (count + 1) (Nat.succ_le_succ bound)
        rw [longer] at next
        omega

end

theorem textField_outcome (memory : Memory) (part : Part) :
    (textField limits memory part).outcome =
      if part.size ≤ limits.maxUpload then
        match part.failure with
        | some error => .error (multipartErrResponse error)
        | none => .ok
            { memory with
              text := []
              fields := Association.put memory.fields part.name (lossy part.chunks.flatten) }
      else .error tooLarge := by
  have ends := textChunks_outcome { memory with text := [] } part.chunks
    (Nat.zero_le limits.maxUpload)
  rw [length_nil, Nat.zero_add] at ends
  unfold textField
  rw [outcome_bind, ends]
  unfold Part.size
  split
  · cases part.failure with
    | none => rfl
    | some error => rfl
  · rfl

theorem textField_all {memory : Memory} (part : Part) :
    (textField limits memory part).All (fun held => held.textBytes ≤ limits.maxUpload) ↔
      ∀ count ≤ part.chunks.length,
        (part.chunks.take count).flatten.length ≤ limits.maxUpload →
          valueBytes memory.fields + (part.chunks.take count).flatten.length ≤
            limits.maxUpload := by
  have pieces := textChunks_all { memory with text := [] } part.chunks
    (Nat.zero_le limits.maxUpload)
  rw [length_nil] at pieces
  simp only [Nat.zero_add] at pieces
  unfold textField
  rw [all_bind, pieces]
  constructor
  · rintro ⟨held, _⟩
    exact held
  · intro held
    refine ⟨held, ?_⟩
    intro next _
    split
    · exact all_ends _ _
    · exact all_ends _ _

end Text

section File

variable {limits : Limits} {store : Store}

/-- Without a session everything is in the buffer, with one nothing is. -/
inductive FileState.Counted (limits : Limits) (state : FileState) : Prop
  | buffered (session : state.session = none) (bytes : state.memory.file.length = state.total)
      (small : state.total ≤ limits.maxUpload)
  | carried (session : state.session.isSome = true) (bytes : state.memory.file = [])
      (large : limits.maxUpload < state.total)

/-- What a chunk changes in the state of a file. -/
structure Advanced (state next : FileState) (chunk : List UInt8) : Prop where
  total : next.total = state.total + chunk.length
  fields : next.memory.fields = state.memory.fields
  text : next.memory.text = state.memory.text
  files : next.memory.files = state.memory.files
  buffer : next.session = none →
    state.session = none ∧ next.memory.file = state.memory.file ++ chunk

/-- What must be so for a chunk to be taken. -/
structure Takes (limits : Limits) (store : Store) (index total size : Nat) : Prop where
  bounded : total + size ≤ limits.blobUploadMax
  opened : total ≤ limits.maxUpload → limits.maxUpload < total + size →
    store.opened.isSome = true ∧ store.flushed = .ok ()
  sent : limits.maxUpload < total + size → store.sent index = .ok ()

variable {state : FileState} {chunk : List UInt8} {index : Nat}

section

variable (session : state.session = none) (bytes : state.memory.file.length = state.total)
  (bounded : state.total + chunk.length ≤ limits.blobUploadMax)
include session bytes bounded

theorem fileChunk_small (small : state.total + chunk.length ≤ limits.maxUpload) :
    fileChunk limits store index chunk state = .ok
      { memory := { state.memory with file := state.memory.file ++ chunk }
        session := none
        total := state.total + chunk.length } := by
  unfold fileChunk
  dsimp only
  have fits : ¬(state.session.isNone = true ∧
      state.memory.file.length + chunk.length > limits.maxUpload) := by
    omega
  rw [if_neg (by omega), if_neg fits, keepChunk]
  rw [session]

theorem fileChunk_large (large : limits.maxUpload < state.total + chunk.length) :
    fileChunk limits store index chunk state =
      (openSession store { state with total := state.total + chunk.length }).bind
        (keepChunk store index chunk) := by
  unfold fileChunk
  dsimp only
  have crossed : state.session.isNone = true ∧
      state.memory.file.length + chunk.length > limits.maxUpload :=
    ⟨by rw [session]; rfl, by omega⟩
  rw [if_neg (by omega), if_pos crossed]

end

theorem fileChunk_carried (session : state.session.isSome = true)
    (bounded : state.total + chunk.length ≤ limits.blobUploadMax) :
    fileChunk limits store index chunk state =
      keepChunk store index chunk { state with total := state.total + chunk.length } := by
  unfold fileChunk
  dsimp only
  have running : ¬(state.session.isNone = true ∧
      state.memory.file.length + chunk.length > limits.maxUpload) := by
    rintro ⟨absent, _⟩
    rw [isNone_iff_eq_none] at absent
    rw [absent] at session
    cases session
  rw [if_neg (by omega), if_neg running]

theorem fileChunk_excess (excess : limits.blobUploadMax < state.total + chunk.length) :
    fileChunk limits store index chunk state = .error tooLarge :=
  if_pos excess

variable {next : FileState}

theorem keepChunk_ok (session : state.session.isSome = true) :
    keepChunk store index chunk state = .ok next ↔ store.sent index = .ok () ∧ next = state := by
  obtain ⟨id, running⟩ := isSome_iff_exists.mp session
  unfold keepChunk
  rw [running]
  cases store.sent index with
  | error reason =>
    constructor
    · intro ended
      cases ended
    · rintro ⟨sent, _⟩
      cases sent
  | ok value =>
    constructor
    · intro ended
      exact ⟨rfl, (Except.ok.inj ended).symm⟩
    · rintro ⟨_, same⟩
      rw [same]

theorem openSession_ok :
    openSession store state = .ok next ↔
      (store.opened.isSome = true ∧ store.flushed = .ok ()) ∧
        next = { state with
          memory := { state.memory with file := [] }
          session := store.opened } := by
  unfold openSession
  cases store.opened with
  | none =>
    constructor
    · intro ended
      cases ended
    · rintro ⟨⟨opened, _⟩, _⟩
      cases opened
  | some id =>
    cases store.flushed with
    | error reason =>
      constructor
      · intro ended
        cases ended
      · rintro ⟨⟨_, flushed⟩, _⟩
        cases flushed
    | ok value =>
      constructor
      · intro ended
        exact ⟨⟨rfl, rfl⟩, (Except.ok.inj ended).symm⟩
      · rintro ⟨_, same⟩
        rw [same]

theorem fileChunk_ok (counted : state.Counted limits)
    (ended : fileChunk limits store index chunk state = .ok next) :
    Takes limits store index state.total chunk.length ∧ next.Counted limits ∧
      Advanced state next chunk := by
  have bounded : state.total + chunk.length ≤ limits.blobUploadMax := by
    apply Nat.le_of_not_lt
    intro excess
    rw [fileChunk_excess excess] at ended
    cases ended
  cases counted with
  | buffered session bytes small =>
    by_cases large : limits.maxUpload < state.total + chunk.length
    · rw [fileChunk_large session bytes bounded large] at ended
      obtain ⟨opened, opening, kept⟩ := Fallible.bind_ok.mp ended
      obtain ⟨store_opened, rfl⟩ := openSession_ok.mp opening
      obtain ⟨sent, rfl⟩ := (keepChunk_ok store_opened.1).mp kept
      refine ⟨⟨bounded, fun _ _ => store_opened, fun _ => sent⟩,
        .carried store_opened.1 rfl large, ⟨rfl, rfl, rfl, rfl, ?_⟩⟩
      intro absent
      have opened := store_opened.1
      rw [show store.opened = none from absent] at opened
      cases opened
    · have fits : state.total + chunk.length ≤ limits.maxUpload := Nat.le_of_not_lt large
      rw [fileChunk_small session bytes bounded fits] at ended
      obtain rfl := Except.ok.inj ended
      refine ⟨⟨bounded, fun _ crossed => absurd crossed large, fun crossed =>
        absurd crossed large⟩, .buffered rfl ?_ fits,
        ⟨rfl, rfl, rfl, rfl, fun _ => ⟨session, rfl⟩⟩⟩
      rw [length_append, bytes]
  | carried session bytes large =>
    have running : ({ state with total := state.total + chunk.length } :
        FileState).session.isSome = true := session
    rw [fileChunk_carried session bounded] at ended
    obtain ⟨sent, rfl⟩ := (keepChunk_ok running).mp ended
    refine ⟨⟨bounded, fun small _ => absurd large (Nat.not_lt_of_le small), fun _ => sent⟩,
      .carried session bytes (Nat.lt_of_lt_of_le large (Nat.le_add_right _ _)),
      ⟨rfl, rfl, rfl, rfl, ?_⟩⟩
    intro absent
    rw [show state.session = none from absent] at session
    cases session

theorem fileChunk_total (counted : state.Counted limits)
    (takes : Takes limits store index state.total chunk.length) :
    ∃ next, fileChunk limits store index chunk state = .ok next := by
  cases counted with
  | buffered session bytes small =>
    by_cases large : limits.maxUpload < state.total + chunk.length
    · have opened := takes.opened small large
      let carried : FileState :=
        { memory := { state.memory with file := [] }
          session := store.opened
          total := state.total + chunk.length }
      have kept : keepChunk store index chunk carried = .ok carried :=
        (keepChunk_ok opened.1).mpr ⟨takes.sent large, rfl⟩
      rw [fileChunk_large session bytes takes.bounded large]
      exact ⟨carried, Fallible.bind_ok.mpr ⟨carried, openSession_ok.mpr ⟨opened, rfl⟩, kept⟩⟩
    · exact ⟨_, fileChunk_small session bytes takes.bounded (Nat.le_of_not_lt large)⟩
  | carried session bytes large =>
    have running : ({ state with total := state.total + chunk.length } :
        FileState).session.isSome = true := session
    have sent := takes.sent (Nat.lt_of_lt_of_le large (Nat.le_add_right _ _))
    rw [fileChunk_carried session takes.bounded]
    exact ⟨_, (keepChunk_ok running).mpr ⟨sent, rfl⟩⟩

/-- The conditions of all chunks that are still to come. -/
structure TakesAll (limits : Limits) (store : Store) (index total : Nat)
    (chunks : List (List UInt8)) : Prop where
  bounded : total + chunks.flatten.length ≤ limits.blobUploadMax
  opened : total ≤ limits.maxUpload → limits.maxUpload < total + chunks.flatten.length →
    store.opened.isSome = true ∧ store.flushed = .ok ()
  sent : ∀ later < chunks.length,
    limits.maxUpload < total + (chunks.take (later + 1)).flatten.length →
      store.sent (index + later) = .ok ()

theorem takesAll_cons {total : Nat} {rest : List (List UInt8)} :
    TakesAll limits store index total (chunk :: rest) ↔
      Takes limits store index total chunk.length ∧
        TakesAll limits store (index + 1) (total + chunk.length) rest := by
  have longer (count : Nat) : ((chunk :: rest).take (count + 1)).flatten.length =
      chunk.length + (rest.take count).flatten.length := by
    rw [take_succ_cons, flatten_cons, length_append]
  have whole : (chunk :: rest).flatten.length = chunk.length + rest.flatten.length := by
    rw [flatten_cons, length_append]
  constructor
  · intro takes
    have bounded := takes.bounded
    have first : limits.maxUpload < total + chunk.length → store.sent index = .ok () := by
      intro large
      apply takes.sent 0 (Nat.succ_pos _)
      rw [longer]
      exact large
    refine ⟨⟨by omega, ?_, first⟩, ⟨by omega, ?_, ?_⟩⟩
    · intro small large
      apply takes.opened small
      omega
    · intro small large
      apply takes.opened (by omega)
      omega
    · intro later bound large
      have sent := takes.sent (later + 1) (Nat.succ_lt_succ bound)
      rw [longer] at sent
      rw [Nat.add_assoc, Nat.add_comm 1 later]
      exact sent (by omega)
  · rintro ⟨takes, remaining⟩
    have bounded := remaining.bounded
    refine ⟨by rw [whole]; omega, ?_, ?_⟩
    · intro small large
      by_cases crossed : limits.maxUpload < total + chunk.length
      · exact takes.opened small crossed
      · exact remaining.opened (by omega) (by omega)
    · intro later bound large
      cases later with
      | zero =>
        rw [longer] at large
        exact takes.sent large
      | succ later =>
        rw [longer] at large
        have sent := remaining.sent later (Nat.lt_of_succ_lt_succ bound) (by omega)
        rw [Nat.add_assoc, Nat.add_comm 1 later] at sent
        exact sent

theorem Advanced.trans {middle last : FileState} {first second : List UInt8}
    (before : Advanced state middle first) (after : Advanced middle last second) :
    Advanced state last (first ++ second) where
  total := by rw [after.total, before.total, length_append, Nat.add_assoc]
  fields := after.fields.trans before.fields
  text := after.text.trans before.text
  files := after.files.trans before.files
  buffer := by
    intro session
    obtain ⟨between, appended⟩ := after.buffer session
    obtain ⟨started, buffered⟩ := before.buffer between
    exact ⟨started, by rw [appended, buffered, append_assoc]⟩

theorem Advanced.refl (state : FileState) : Advanced state state [] where
  total := rfl
  fields := rfl
  text := rfl
  files := rfl
  buffer := fun session => ⟨session, (append_nil _).symm⟩

variable {chunks : List (List UInt8)}

theorem fileChunks_ok {final : FileState} (counted : state.Counted limits)
    (bounded : state.total ≤ limits.blobUploadMax)
    (ended : (fileChunks limits store state index chunks).outcome = .ok final) :
    TakesAll limits store index state.total chunks ∧ final.Counted limits ∧
      Advanced state final chunks.flatten := by
  induction chunks generalizing state index with
  | nil =>
    obtain rfl := Except.ok.inj ended
    refine ⟨⟨bounded, ?_, ?_⟩, counted, Advanced.refl _⟩
    · intro small large
      exact absurd large (Nat.not_lt_of_le small)
    · intro later bound
      cases bound
  | cons chunk rest ih =>
    change Run.outcome ((Run.ends (fileChunk limits store index chunk state)).bind fun next =>
      fileChunks limits store next (index + 1) rest) = .ok final at ended
    rw [outcome_bind] at ended
    obtain ⟨next, taken, remaining⟩ := Fallible.bind_ok.mp ended
    obtain ⟨takes, counted_next, step⟩ := fileChunk_ok counted taken
    have bounded_next : next.total ≤ limits.blobUploadMax := by
      rw [step.total]
      exact takes.bounded
    obtain ⟨all, counted_final, steps⟩ := ih counted_next bounded_next remaining
    rw [step.total] at all
    exact ⟨takesAll_cons.mpr ⟨takes, all⟩, counted_final, step.trans steps⟩

theorem fileChunks_total (counted : state.Counted limits)
    (takes : TakesAll limits store index state.total chunks) :
    ∃ final, (fileChunks limits store state index chunks).outcome = .ok final := by
  induction chunks generalizing state index with
  | nil => exact ⟨state, rfl⟩
  | cons chunk rest ih =>
    obtain ⟨first, all⟩ := takesAll_cons.mp takes
    obtain ⟨next, taken⟩ := fileChunk_total counted first
    obtain ⟨_, counted_next, step⟩ := fileChunk_ok counted taken
    rw [← step.total] at all
    obtain ⟨final, ended⟩ := ih counted_next all
    refine ⟨final, ?_⟩
    change Run.outcome ((Run.ends (fileChunk limits store index chunk state)).bind fun next =>
      fileChunks limits store next (index + 1) rest) = .ok final
    rw [outcome_bind]
    exact Fallible.bind_ok.mpr ⟨next, taken, ended⟩

theorem counted_buffer (counted : state.Counted limits) :
    state.memory.file.length ≤ limits.maxUpload := by
  cases counted with
  | buffered _ bytes small => omega
  | carried _ bytes _ =>
    rw [bytes]
    exact Nat.zero_le _

theorem fileChunks_all (chunks : List (List UInt8)) (index : Nat) (counted : state.Counted limits) :
    (fileChunks limits store state index chunks).All fun held =>
      held.textBytes = state.memory.textBytes ∧ held.file.length ≤ limits.maxUpload ∧
        held.files = state.memory.files := by
  induction chunks generalizing state index with
  | nil =>
    rw [fileChunks, all_waits]
    exact ⟨⟨rfl, counted_buffer counted, rfl⟩, all_ends _ _⟩
  | cons chunk rest ih =>
    rw [fileChunks, all_waits, all_bind]
    refine ⟨⟨rfl, counted_buffer counted, rfl⟩, all_ends _ _, ?_⟩
    intro next taken
    obtain ⟨_, counted_next, step⟩ := fileChunk_ok counted taken
    have texts : next.memory.textBytes = state.memory.textBytes := by
      rw [Memory.textBytes, Memory.textBytes, step.fields, step.text]
    have later := ih (index + 1) counted_next
    rw [texts, step.files] at later
    exact later

theorem start_counted (memory : Memory) :
    FileState.Counted limits ⟨{ memory with file := [] }, none, 0⟩ :=
  .buffered rfl rfl (Nat.zero_le _)

theorem fileField_outcome (memory : Memory) (part : Part) :
    (fileField limits memory part).outcome =
      (fileChunks limits part.store ⟨{ memory with file := [] }, none, 0⟩ 0
        part.chunks).outcome.bind fun state =>
          match part.failure with
          | some error => .error (multipartErrResponse error)
          | none => finishFile part state := by
  unfold fileField
  rw [outcome_bind]
  cases part.failure with
  | some error => rfl
  | none => rfl

/-- Which files of the memory are short: those that were buffered. -/
def Memory.ShortFiles (limits : Limits) (memory : Memory) : Prop :=
  ∀ file ∈ memory.files, file.bytes.length ≤ limits.maxUpload

/-- Between parts no text and no file is buffered. -/
structure Memory.Idle (memory : Memory) : Prop where
  text : memory.text = []
  file : memory.file = []

variable {part : Part}

theorem finishFile_ok {next : Memory} (counted : state.Counted limits)
    (ended : finishFile part state = .ok next) :
    (state.session.isSome = true → part.store.finished = .ok ()) ∧
      next.fields = state.memory.fields ∧ next.text = state.memory.text ∧ next.file = [] ∧
        (state.memory.ShortFiles limits → next.ShortFiles limits) := by
  unfold finishFile at ended
  cases counted with
  | buffered session bytes small =>
    rw [session] at ended
    obtain rfl := Except.ok.inj ended
    refine ⟨?_, rfl, rfl, rfl, ?_⟩
    · intro running
      rw [session] at running
      cases running
    · intro short file member
      rcases mem_append.mp member with before | added
      · exact short file before
      · obtain rfl := mem_singleton.mp added
        exact Nat.le_trans (Nat.le_of_eq bytes) small
  | carried session bytes large =>
    obtain ⟨id, running⟩ := isSome_iff_exists.mp session
    rw [running] at ended
    dsimp only at ended
    split at ended
    · cases ended
    · rename_i finished
      obtain rfl := Except.ok.inj ended
      refine ⟨fun _ => finished, rfl, rfl, rfl, ?_⟩
      intro short file member
      rcases mem_append.mp member with before | added
      · exact short file before
      · obtain rfl := mem_singleton.mp added
        exact Nat.zero_le _

theorem session_iff (counted : state.Counted limits) :
    state.session.isSome = true ↔ limits.maxUpload < state.total := by
  cases counted with
  | buffered session _ small =>
    rw [session]
    constructor
    · intro running
      cases running
    · intro large
      exact absurd small (Nat.not_le_of_lt large)
  | carried session _ large => exact ⟨fun _ => large, fun _ => session⟩

theorem fileField_ok {memory next : Memory} (file : part.filename ≠ "")
    (ended : (fileField limits memory part).outcome = .ok next) :
    part.Passes limits ∧ next.fields = memory.fields ∧ next.text = memory.text ∧
      next.file = [] ∧ (memory.ShortFiles limits → next.ShortFiles limits) := by
  rw [fileField_outcome] at ended
  obtain ⟨state, read, finished⟩ := Fallible.bind_ok.mp ended
  obtain ⟨takes, counted, step⟩ :=
    fileChunks_ok (start_counted memory) (Nat.zero_le limits.blobUploadMax) read
  have size : state.total = part.size := step.total.trans (Nat.zero_add _)
  cases failure : part.failure with
  | some error =>
    rw [failure] at finished
    cases finished
  | none =>
    rw [failure] at finished
    obtain ⟨closed, fields, text, empty, short⟩ := finishFile_ok counted finished
    have bounded : part.size ≤ limits.blobUploadMax := by
      have all := takes.bounded
      rw [Nat.zero_add] at all
      exact all
    refine ⟨⟨failure, fun absent => absurd absent file, fun _ => ⟨bounded, ?_⟩⟩,
      fields.trans step.fields, text.trans step.text, empty, ?_⟩
    · intro large
      have opened := takes.opened (Nat.zero_le _) (by rw [Nat.zero_add]; exact large)
      refine ⟨opened.1, opened.2, ?_, ?_⟩
      · intro index bound beyond
        have sent := takes.sent index bound (by rw [Nat.zero_add]; exact beyond)
        rw [Nat.zero_add] at sent
        exact sent
      · apply closed
        rw [session_iff counted, size]
        exact large
    · intro before
      apply short
      intro entry member
      rw [step.files] at member
      exact before entry member

theorem fileField_total (memory : Memory) (file : part.filename ≠ "")
    (passes : part.Passes limits) :
    ∃ next, (fileField limits memory part).outcome = .ok next := by
  have bounded := (passes.file file).1
  have carried := (passes.file file).2
  have takes : TakesAll limits part.store 0 0 part.chunks := by
    refine ⟨?_, ?_, ?_⟩
    · rw [Nat.zero_add]
      exact bounded
    · intro _ large
      rw [Nat.zero_add] at large
      exact ⟨(carried large).opened, (carried large).flushed⟩
    · intro later bound beyond
      rw [Nat.zero_add] at beyond ⊢
      have large : limits.maxUpload < part.size :=
        Nat.lt_of_lt_of_le beyond (piece_le part (later + 1))
      exact (carried large).sent later bound beyond
  obtain ⟨state, read⟩ := fileChunks_total (start_counted memory) takes
  obtain ⟨_, counted, step⟩ :=
    fileChunks_ok (start_counted memory) (Nat.zero_le limits.blobUploadMax) read
  have size : state.total = part.size := step.total.trans (Nat.zero_add _)
  have closed : ∃ next, finishFile part state = .ok next := by
    unfold finishFile
    cases running : state.session with
    | none => exact ⟨_, rfl⟩
    | some id =>
      have large : limits.maxUpload < part.size := by
        rw [← size, ← session_iff counted, running]
        rfl
      rw [(carried large).finished]
      exact ⟨_, rfl⟩
  obtain ⟨next, finished⟩ := closed
  refine ⟨next, ?_⟩
  rw [fileField_outcome, passes.unbroken]
  exact Fallible.bind_ok.mpr ⟨state, read, finished⟩

end File

section Parts

variable {limits : Limits}

variable {memory : Memory}

variable {part : Part}

theorem readPart_ok {next : Memory} (idle : memory.Idle)
    (ended : (readPart limits memory part).outcome = .ok next) :
    part.Passes limits ∧ next.fields = part.keep memory.fields ∧ next.Idle ∧
      (memory.ShortFiles limits → next.ShortFiles limits) := by
  unfold readPart at ended
  by_cases text : part.filename = ""
  · rw [if_pos text, textField_outcome] at ended
    by_cases fits : part.size ≤ limits.maxUpload
    · rw [if_pos fits] at ended
      cases failure : part.failure with
      | some error =>
        rw [failure] at ended
        cases ended
      | none =>
        rw [failure] at ended
        obtain rfl := Except.ok.inj ended
        refine ⟨⟨failure, fun _ => fits, fun file => absurd text file⟩, ?_,
          ⟨rfl, idle.file⟩, id⟩
        rw [Part.keep, if_pos text]
    · rw [if_neg fits] at ended
      cases ended
  · rw [if_neg text] at ended
    obtain ⟨passes, fields, kept, empty, short⟩ := fileField_ok text ended
    refine ⟨passes, ?_, ⟨kept.trans idle.text, empty⟩, short⟩
    rw [fields, Part.keep, if_neg text]

theorem readPart_total (memory : Memory) (passes : part.Passes limits) :
    ∃ next, (readPart limits memory part).outcome = .ok next := by
  unfold readPart
  by_cases text : part.filename = ""
  · rw [if_pos text, textField_outcome, if_pos (passes.text text), passes.unbroken]
    exact ⟨_, rfl⟩
  · rw [if_neg text]
    exact fileField_total memory text passes

theorem readPart_texts (idle : memory.Idle) (held : valueBytes memory.fields ≤ limits.maxUpload) :
    (readPart limits memory part).All (fun held => held.textBytes ≤ limits.maxUpload) ↔
      (part.filename = "" → ∀ count ≤ part.chunks.length,
        (part.chunks.take count).flatten.length ≤ limits.maxUpload →
          valueBytes memory.fields + (part.chunks.take count).flatten.length ≤
            limits.maxUpload) := by
  unfold readPart
  by_cases text : part.filename = ""
  · rw [if_pos text, textField_all]
    exact ⟨fun pieces _ => pieces, fun pieces => pieces text⟩
  · rw [if_neg text]
    refine ⟨fun _ absent => absurd absent text, fun _ => ?_⟩
    unfold fileField
    rw [all_bind]
    constructor
    · intro current member
      have same := (fileChunks_all part.chunks 0 (start_counted memory) current member).1
      rw [same, idle.text]
      exact held
    · intro state _
      cases part.failure with
      | some error | none => exact all_ends _ _

theorem textChunks_files (memory : Memory) (chunks : List (List UInt8)) :
    (textChunks limits memory chunks).All fun held =>
      held.file = memory.file ∧ held.files = memory.files := by
  induction chunks generalizing memory with
  | nil =>
    rw [textChunks, all_waits]
    exact ⟨⟨rfl, rfl⟩, all_ends _ _⟩
  | cons chunk rest ih =>
    rw [textChunks, all_waits]
    refine ⟨⟨rfl, rfl⟩, ?_⟩
    split
    · exact all_ends _ _
    · exact ih { memory with text := memory.text ++ chunk }

/-- What a file takes of the memory, in the buffer and among the files read. -/
structure Memory.FilesFit (limits : Limits) (memory : Memory) : Prop where
  buffer : memory.file.length ≤ limits.maxUpload
  files : memory.ShortFiles limits

theorem readPart_files (part : Part) (idle : memory.Idle) (short : memory.ShortFiles limits) :
    (readPart limits memory part).All (Memory.FilesFit limits) := by
  unfold readPart
  split
  · unfold textField
    rw [all_bind]
    constructor
    · intro current member
      obtain ⟨file, files⟩ := textChunks_files { memory with text := [] } part.chunks current member
      refine ⟨?_, ?_⟩
      · rw [file, idle.file]
        exact Nat.zero_le _
      · unfold Memory.ShortFiles
        rw [files]
        exact short
    · intro next _
      cases part.failure with
      | some error | none => exact all_ends _ _
  · unfold fileField
    rw [all_bind]
    constructor
    · intro current member
      obtain ⟨_, buffer, files⟩ :=
        fileChunks_all part.chunks 0 (start_counted memory) current member
      refine ⟨buffer, ?_⟩
      unfold Memory.ShortFiles
      rw [files]
      exact short
    · intro state _
      cases part.failure with
      | some error | none => exact all_ends _ _

variable (ending : Option ReaderError)

theorem streamParts_outcome (memory : Memory) (part : Part) (rest : List Part) :
    (streamParts limits ending memory (part :: rest)).outcome =
      (readPart limits memory part).outcome.bind fun next =>
        (streamParts limits ending next rest).outcome := by
  exact outcome_bind _ _

/-- The texts stay within the limit in every memory of the run exactly when the sizes do. -/
theorem streamParts_texts (parts : List Part) (idle : memory.Idle)
    (held : valueBytes memory.fields ≤ limits.maxUpload) :
    (streamParts limits ending memory parts).All
        (fun held => held.textBytes ≤ limits.maxUpload) ↔
      TextsFit limits memory.fields parts := by
  have waiting {current : Memory} (idle : current.Idle) :
      current.textBytes = valueBytes current.fields := by
    rw [Memory.textBytes, idle.text, length_nil, Nat.add_zero]
  induction parts generalizing memory with
  | nil =>
    unfold streamParts
    rw [all_waits, waiting idle]
    exact ⟨fun _ => trivial, fun _ => ⟨held, all_ends _ _⟩⟩
  | cons part rest ih =>
    rw [streamParts, all_waits, all_bind, readPart_texts idle held, waiting idle]
    constructor
    · rintro ⟨_, pieces, later⟩
      refine ⟨pieces, ?_⟩
      intro passes
      obtain ⟨next, read⟩ := readPart_total memory passes
      obtain ⟨_, fields, idle_next, _⟩ := readPart_ok idle read
      have all := later next read
      have fits : valueBytes next.fields ≤ limits.maxUpload := by
        rw [← waiting idle_next]
        apply all
        cases rest with
        | nil | cons _ _ => exact mem_cons_self
      rw [← fields]
      exact ⟨fits, (ih idle_next fits).mp all⟩
    · rintro ⟨pieces, later⟩
      refine ⟨held, pieces, ?_⟩
      intro next read
      obtain ⟨passes, fields, idle_next, _⟩ := readPart_ok idle read
      obtain ⟨fits, remaining⟩ := later passes
      rw [← fields] at fits remaining
      exact (ih idle_next fits).mpr remaining

theorem streamParts_files (parts : List Part) (idle : memory.Idle)
    (short : memory.ShortFiles limits) :
    (streamParts limits ending memory parts).All (Memory.FilesFit limits) := by
  have waiting {current : Memory} (idle : current.Idle) (short : current.ShortFiles limits) :
      current.FilesFit limits := by
    refine ⟨?_, short⟩
    rw [idle.file]
    exact Nat.zero_le _
  induction parts generalizing memory with
  | nil =>
    unfold streamParts
    rw [all_waits]
    exact ⟨waiting idle short, all_ends _ _⟩
  | cons part rest ih =>
    rw [streamParts, all_waits, all_bind]
    refine ⟨waiting idle short, readPart_files part idle short, ?_⟩
    intro next read
    obtain ⟨_, _, idle_next, short_next⟩ := readPart_ok idle read
    exact ih idle_next (short_next short)

theorem streamParts_ok {final : Memory} {ending : Option ReaderError} {parts : List Part}
    (idle : memory.Idle) (ended : (streamParts limits ending memory parts).outcome = .ok final) :
    ending = none ∧ ∀ part ∈ parts, part.Passes limits := by
  induction parts generalizing memory with
  | nil =>
    cases ending with
    | some error => cases ended
    | none =>
      refine ⟨rfl, ?_⟩
      intro part member
      cases member
  | cons part rest ih =>
    rw [streamParts_outcome] at ended
    obtain ⟨next, read, remaining⟩ := Fallible.bind_ok.mp ended
    obtain ⟨passes, _, idle_next, _⟩ := readPart_ok idle read
    obtain ⟨complete, others⟩ := ih idle_next remaining
    exact ⟨complete, forall_mem_cons.mpr ⟨passes, others⟩⟩

theorem streamParts_refused {parts : List Part} (idle : memory.Idle)
    (fits : TextsFit limits memory.fields parts) (full : Overfull limits memory.fields parts) :
    (streamParts limits ending memory parts).outcome = .error tooLarge := by
  induction parts generalizing memory with
  | nil => cases full
  | cons part rest ih =>
    rw [streamParts_outcome]
    rcases full with ⟨text, count, bound, beyond⟩ | ⟨passes, later⟩
    · have large : ¬part.size ≤ limits.maxUpload := by
        intro whole
        have piece := fits.1 text count bound (Nat.le_trans (piece_le part count) whole)
        omega
      rw [readPart, if_pos text, textField_outcome, if_neg large]
      rfl
    · obtain ⟨next, read⟩ := readPart_total memory passes
      obtain ⟨_, fields, idle_next, _⟩ := readPart_ok idle read
      rw [← fields] at later
      have remaining := (fits.2 passes).2
      rw [← fields] at remaining
      rw [read]
      exact ih idle_next remaining later

end Parts

section Agreement

variable {limits : Limits}

variable {memory : Memory}

theorem fileField_within {part : Part} (file : part.filename ≠ "") (idle : memory.Idle)
    (small : part.size ≤ limits.maxUpload) (bounded : part.size ≤ limits.blobUploadMax)
    (unbroken : part.failure = none) :
    (fileField limits memory part).outcome = .ok
      { memory with files := (parsePart (memory.fields, memory.files) part).2 } := by
  have passes : part.Passes limits :=
    ⟨unbroken, fun absent => absurd absent file,
      fun _ => ⟨bounded, fun large => absurd small (Nat.not_le_of_lt large)⟩⟩
  obtain ⟨next, ended⟩ := fileField_total memory file passes
  rw [fileField_outcome] at ended ⊢
  obtain ⟨state, read, finished⟩ := Fallible.bind_ok.mp ended
  obtain ⟨_, counted, step⟩ :=
    fileChunks_ok (start_counted memory) (Nat.zero_le limits.blobUploadMax) read
  have size : state.total = part.size := step.total.trans (Nat.zero_add _)
  have session : state.session = none := by
    rw [← not_isSome_iff_eq_none, session_iff counted, size]
    exact Nat.not_lt_of_le small
  have bytes : state.memory.file = part.chunks.flatten := (step.buffer session).2
  have read_bytes : part.bytes = part.chunks.flatten := by
    rw [Part.bytes, unbroken]
    rfl
  have kept : finishFile part state = .ok
      { memory with files := (parsePart (memory.fields, memory.files) part).2 } := by
    rw [finishFile, session]
    dsimp only
    rw [step.fields, step.text, step.files, bytes, size, parsePart, if_neg file, read_bytes,
      ← idle.file]
    rfl
  rw [read, unbroken]
  exact kept

theorem readPart_within {part : Part} (idle : memory.Idle) (small : part.size ≤ limits.maxUpload)
    (unbroken : part.failure = none)
    (bounded : part.filename ≠ "" → part.size ≤ limits.blobUploadMax) :
    (readPart limits memory part).outcome = .ok
      { memory with
        fields := (parsePart (memory.fields, memory.files) part).1
        files := (parsePart (memory.fields, memory.files) part).2 } := by
  unfold readPart
  by_cases text : part.filename = ""
  · have read_bytes : part.bytes = part.chunks.flatten := by
      rw [Part.bytes, unbroken]
      rfl
    rw [if_pos text, textField_outcome, if_pos small, unbroken, parsePart, if_pos text,
      read_bytes, ← idle.text]
  · rw [if_neg text, fileField_within text idle small (bounded text) unbroken, parsePart,
      if_neg text]

theorem streamParts_within {parts : List Part} (idle : memory.Idle)
    (small : ∀ part ∈ parts, part.size ≤ limits.maxUpload)
    (unbroken : ∀ part ∈ parts, part.failure = none)
    (bounded : ∀ part ∈ parts, part.filename ≠ "" → part.size ≤ limits.blobUploadMax) :
    (streamParts limits none memory parts).outcome = .ok
      { memory with
        fields := (parts.foldl parsePart (memory.fields, memory.files)).1
        files := (parts.foldl parsePart (memory.fields, memory.files)).2 } := by
  induction parts generalizing memory with
  | nil => rfl
  | cons part rest ih =>
    rw [forall_mem_cons] at small unbroken bounded
    rw [streamParts_outcome, readPart_within idle small.1 unbroken.1 bounded.1]
    exact ih ⟨idle.text, idle.file⟩ small.2 unbroken.2 bounded.2

def Rejected {α : Type} (outcome : Except Rejection α) : Prop :=
  ∃ rejection, outcome = .error rejection

/-- Both readers give the same, or both give nothing. -/
def Agree {α : Type} (left right : Except Rejection α) : Prop :=
  (∃ result, left = .ok result ∧ right = .ok result) ∨ (Rejected left ∧ Rejected right)

/-- Buffers stay within the limit, what goes past it is refused, short bodies are read alike,
and a body with an error is no body with fewer parts. -/
structure Faithful (limits : Limits) (body : Body) : Prop where
  texts : (streamMultipart limits body).All fun held => held.textBytes ≤ limits.maxUpload
  refused : Overfull limits [] body.parts →
    (streamMultipart limits body).outcome = .error tooLarge
  files : (streamMultipart limits body).All (Memory.FilesFit limits)
  alike : body.Within limits → Agree (streamMultipart limits body).outcome (parseMultipart body)
  complete : body.Within limits → body.Broken →
    Rejected (streamMultipart limits body).outcome ∧ Rejected (parseMultipart body)

theorem streamMultipart_all (body : Body) (holds : Memory → Prop) :
    (streamMultipart limits body).All holds ↔
      (streamParts limits body.ending ⟨[], [], [], []⟩ body.parts).All holds := by
  unfold streamMultipart
  rw [all_bind]
  exact ⟨fun all => all.1, fun all => ⟨all, fun _ _ => all_ends _ _⟩⟩

theorem streamMultipart_outcome (body : Body) :
    (streamMultipart limits body).outcome =
      (streamParts limits body.ending ⟨[], [], [], []⟩ body.parts).outcome.bind
        fun memory => .ok (memory.fields, memory.files) := by
  exact outcome_bind _ _

theorem start_idle : (⟨[], [], [], []⟩ : Memory).Idle := ⟨rfl, rfl⟩

theorem start_short : (⟨[], [], [], []⟩ : Memory).ShortFiles limits := by
  intro file member
  cases member

theorem unbroken_of_accepted {body : Body} {read : Fields × List UploadedFile}
    (ended : (streamMultipart limits body).outcome = .ok read) :
    ¬body.Broken ∧
      ∀ part ∈ body.parts, part.filename ≠ "" → part.size ≤ limits.blobUploadMax := by
  rw [streamMultipart_outcome] at ended
  obtain ⟨memory, parts, _⟩ := Fallible.bind_ok.mp ended
  obtain ⟨complete, passes⟩ := streamParts_ok start_idle parts
  constructor
  · rintro (broken | ⟨part, member, broken⟩)
    · rw [complete] at broken
      cases broken
    · rw [(passes part member).unbroken] at broken
      cases broken
  · intro part member file
    exact ((passes part member).file file).1

/-- The texts are bounded one by one, not together, and the reader of a body in memory takes
an error for the end. -/
theorem buffering_faithful_iff (limits : Limits) (body : Body) :
    Faithful limits body ↔
      TextsFit limits [] body.parts ∧
        (body.Within limits → ¬body.Broken ∧
          ∀ part ∈ body.parts, part.filename ≠ "" → part.size ≤ limits.blobUploadMax) := by
  have texts := streamParts_texts body.ending body.parts start_idle
    (Nat.zero_le limits.maxUpload)
  constructor
  · intro faithful
    refine ⟨texts.mp ((streamMultipart_all body _).mp faithful.texts), ?_⟩
    intro within
    rcases faithful.alike within with ⟨read, ended, _⟩ | ⟨_, rejection, refused⟩
    · exact unbroken_of_accepted ended
    · cases refused
  · rintro ⟨fits, clean⟩
    refine ⟨(streamMultipart_all body _).mpr (texts.mpr fits), ?_, ?_, ?_, ?_⟩
    · intro full
      rw [streamMultipart_outcome, streamParts_refused body.ending start_idle fits full]
      rfl
    · exact (streamMultipart_all body _).mpr
        (streamParts_files body.ending body.parts start_idle start_short)
    · intro within
      obtain ⟨unbroken, bounded⟩ := clean within
      have complete : body.ending = none := by
        rw [← not_isSome_iff_eq_none]
        exact fun broken => unbroken (.inl broken)
      have parts : ∀ part ∈ body.parts, part.failure = none := by
        intro part member
        rw [← not_isSome_iff_eq_none]
        exact fun broken => unbroken (.inr ⟨part, member, broken⟩)
      refine .inl ⟨body.parts.foldl parsePart ([], []), ?_, rfl⟩
      rw [streamMultipart_outcome, complete, streamParts_within start_idle within parts bounded]
      rfl
    · intro within broken
      exact absurd broken (clean within).1

def unusedStore : Store := ⟨"", none, .ok (), fun _ => .ok (), .ok (), none⟩

/-- Two texts that fit one by one, and not together. -/
theorem two_texts_exceed :
    ¬Faithful ⟨4, 8⟩
      ⟨[⟨"a", "", none, [[0x61, 0x62, 0x63]], none, unusedStore⟩,
        ⟨"b", "", none, [[0x64, 0x65, 0x66]], none, unusedStore⟩], none⟩ := by
  intro faithful
  have held := faithful.texts ⟨[("a", "abc")], [0x64, 0x65, 0x66], [], []⟩ (by decide +kernel)
  exact absurd held (by decide +kernel)

end Agreement

end OnlyJs.Serve.Multipart
