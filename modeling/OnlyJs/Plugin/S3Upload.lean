import Mathlib.Algebra.Order.Ring.Int
import Mathlib.Data.List.Infix

/-!
# Streamed uploads to S3

An upload gathers the bytes of its chunks and hands them to the store in parts of one size. The
store answers every part, and the completion or the abort of the multipart upload.
-/

namespace OnlyJs.Plugin.S3Upload

open List

set_option autoImplicit false

abbrev Bytes := List UInt8

abbrev Answer := Except String Unit

def partSize : Nat := 8 * 1024 * 1024

/-- What a chunk has sent: the parts the store has taken, the bytes left over, and the first
answer that was no success. -/
structure Sent where
  parts : List Bytes
  buf : Bytes
  answer : Answer

theorem drop_shorter {buf : Bytes} (full : partSize ≤ buf.length) :
    (buf.drop partSize).length < buf.length := by
  rw [length_drop]
  exact Nat.sub_lt (Nat.lt_of_lt_of_le (by decide) full) (by decide)

/-- A part leaves the buffer before the store has answered. -/
def putParts (putPart : Nat → Answer) (count : Nat) (buf : Bytes) : Sent :=
  if partSize ≤ buf.length then
    match putPart count with
    | .error error => ⟨[], buf.drop partSize, .error error⟩
    | .ok () =>
      let rest := putParts putPart (count + 1) (buf.drop partSize)
      { rest with parts := buf.take partSize :: rest.parts }
  else ⟨[], buf, .ok ()⟩
termination_by buf.length
decreasing_by exact drop_shorter ‹_›

/-- An upload, with what the store has of it. `session` is its buffer while the upload is
registered; `closed` says that the store has completed or aborted it. -/
structure Upload where
  id : Nat
  session : Option Bytes
  parts : List Bytes
  completes : Nat
  closed : Bool

def Upload.doPutStreamOpen (id : Nat) : Upload := ⟨id, some [], [], 0, false⟩

def Upload.doPutStreamChunk (upload : Upload) (bytes : Bytes) (putPart : Nat → Answer) :
    Answer × Upload :=
  match upload.session with
  | none => (.error s!"blob put_stream_chunk: unknown upload {upload.id}", upload)
  | some buf =>
    let sent := putParts putPart 0 (buf ++ bytes)
    (sent.answer.mapError fun error => s!"blob put_stream_chunk: {error}",
      { upload with session := some sent.buf, parts := upload.parts ++ sent.parts })

/-- The store's answer to what is left in the buffer at the end. -/
def lastPart (buf : Bytes) (putPart : Answer) : Answer := if buf.isEmpty then .ok () else putPart

/-- The upload is no longer registered before the store is asked. -/
def Upload.doPutStreamFinish (upload : Upload) (putPart complete : Answer) : Answer × Upload :=
  match upload.session with
  | none => (.error s!"blob put_stream_finish: unknown upload {upload.id}", upload)
  | some buf =>
    let removed := { upload with session := none }
    match lastPart buf putPart with
    | .error error => (.error s!"blob put_stream_finish: {error}", removed)
    | .ok () => (complete.mapError fun error => s!"blob put_stream_finish: {error}",
        { removed with
          parts := upload.parts ++ if buf.isEmpty then [] else [buf]
          completes := upload.completes + 1
          closed := complete.toBool })

def Upload.doPutStreamAbort (upload : Upload) (abort : Answer) : Answer × Upload :=
  match upload.session with
  | none => (.error s!"blob put_stream_abort: unknown upload {upload.id}", upload)
  | some _ => (abort.mapError fun error => s!"blob put_stream_abort: {error}",
      { upload with session := none, closed := abort.toBool })

/-- What the store had, and what the upload was given, when a finish succeeded. -/
structure Finished where
  parts : List Bytes
  received : Bytes
  failed : Bool

structure Finished.Faithful (finished : Finished) : Prop where
  sized : ∀ part ∈ finished.parts.dropLast, part.length = partSize
  whole : finished.parts.flatten = finished.received
  clean : finished.failed = false

/-- `received` are the bytes of all chunks; `failed` says that a chunk or a finish has failed. -/
structure History where
  upload : Upload
  received : Bytes
  failed : Bool
  finished : Option Finished

def History.opened (id : Nat) : History := ⟨.doPutStreamOpen id, [], false, none⟩

/-- A call, with the answers that the store gives to it. -/
inductive Call where
  | chunk (bytes : Bytes) (putPart : Nat → Answer)
  | finish (putPart complete : Answer)
  | abort (abort : Answer)

def History.step (history : History) : Call → History
  | .chunk bytes putPart =>
    let made := history.upload.doPutStreamChunk bytes putPart
    { history with
      upload := made.2
      received := history.received ++ bytes
      failed := history.failed || !made.1.toBool }
  | .finish putPart complete =>
    let made := history.upload.doPutStreamFinish putPart complete
    { history with
      upload := made.2
      failed := history.failed || !made.1.toBool
      finished := if made.1.toBool then some ⟨made.2.parts, history.received, history.failed⟩
        else history.finished }
  | .abort abort => { history with upload := (history.upload.doPutStreamAbort abort).2 }

structure History.Sound (history : History) : Prop where
  faithful : ∀ finished, history.finished = some finished → finished.Faithful
  /-- After a failure the upload can be aborted, as long as the store has it open. -/
  abortable : history.failed = true → history.upload.closed = false →
    history.upload.session.isSome = true
  once : history.upload.completes ≤ 1

/-- A chunk or a finish does not come after an abort that the store has refused; a finish does
not come after a failed chunk, and the store takes what it asks; the store takes the abort of an
upload of which a chunk has failed. -/
def Careful (history : History) : Call → Prop
  | .chunk _ _ => history.upload.session.isSome = true ∨ history.upload.closed = true
  | .finish putPart complete =>
    match history.upload.session with
    | some buf => history.failed = false ∧ (lastPart buf putPart).toBool = true ∧
        complete.toBool = true
    | none => history.upload.closed = true
  | .abort abort => history.upload.session.isSome = true → history.failed = true →
      abort.toBool = true

def run (history : History) (calls : List Call) : History := calls.foldl History.step history

def EachCareful (history : History) : List Call → Prop
  | [] => True
  | call :: rest => Careful history call ∧ EachCareful (history.step call) rest

section Steps

variable {history : History}

variable (putPart : Nat → Answer) (count : Nat) (buf : Bytes)

theorem put_parts_sized :
    ∀ part ∈ (putParts putPart count buf).parts, part.length = partSize := by
  fun_induction putParts putPart count buf with
  | case1 => exact nofun
  | case2 count buf full accepted rest ih =>
    intro part member
    rcases mem_cons.mp member with rfl | member
    · exact length_take_of_le full
    · exact ih part member
  | case3 => exact nofun

theorem put_parts_whole (sent : (putParts putPart count buf).answer.toBool = true) :
    (putParts putPart count buf).parts.flatten ++ (putParts putPart count buf).buf = buf := by
  fun_induction putParts putPart count buf with
  | case1 => cases sent
  | case2 count buf full accepted rest ih =>
    have tail : rest.parts.flatten ++ rest.buf = buf.drop partSize := ih sent
    rw [flatten_cons, append_assoc, tail, take_append_drop]
  | case3 => rfl

theorem toBool_mapError {answer : Answer} {translate : String → String} :
    (answer.mapError translate).toBool = answer.toBool := by
  cases answer <;> rfl

/-- What holds of the buffer of a registered upload. -/
structure Registered (history : History) (buf : Bytes) : Prop where
  opened : history.upload.closed = false
  completes : history.upload.completes = 0
  running : history.finished = none
  sized : ∀ part ∈ history.upload.parts, part.length = partSize
  whole : history.failed = false → history.upload.parts.flatten ++ buf = history.received

structure Kept (history : History) : Prop where
  registered : ∀ buf, history.upload.session = some buf → Registered history buf
  once : history.upload.completes ≤ 1

theorem kept_opened (id : Nat) : Kept (.opened id) where
  registered := by
    intro buf same
    cases same
    exact ⟨rfl, rfl, rfl, nofun, fun _ => rfl⟩
  once := Nat.zero_le _

theorem Registered.chunk {buf : Bytes} (registered : Registered history buf)
    (session : history.upload.session = some buf) (bytes : Bytes) (putPart : Nat → Answer) :
    Kept (history.step (.chunk bytes putPart)) where
  registered := by
    unfold History.step Upload.doPutStreamChunk
    rw [session]
    intro left same
    cases same
    refine ⟨registered.opened, registered.completes, registered.running, ?_, ?_⟩
    · intro part member
      rcases mem_append.mp member with earlier | sent
      · exact registered.sized part earlier
      · exact put_parts_sized _ _ _ part sent
    · intro clean
      obtain ⟨before, sent⟩ := Bool.or_eq_false_iff.mp clean
      rw [toBool_mapError, Bool.not_eq_false'] at sent
      change (history.upload.parts ++ _).flatten ++ _ = history.received ++ bytes
      rw [flatten_append, append_assoc, put_parts_whole _ _ _ sent, ← append_assoc,
        registered.whole before]
  once := by
    unfold History.step Upload.doPutStreamChunk
    rw [session]
    exact Nat.le_trans (Nat.le_of_eq registered.completes) (Nat.zero_le 1)

/-- The last part is what was left in the buffer, if anything was. -/
theorem Registered.faithful {buf : Bytes} (registered : Registered history buf)
    (clean : history.failed = false) :
    Finished.Faithful ⟨history.upload.parts ++ if buf.isEmpty then [] else [buf],
      history.received, history.failed⟩ := by
  refine ⟨?_, ?_, clean⟩
  · intro part member
    dsimp only at member
    split at member
    · rw [append_nil] at member
      exact registered.sized part (mem_of_mem_dropLast member)
    · rw [dropLast_concat] at member
      exact registered.sized part member
  · dsimp only
    rw [flatten_append, ← registered.whole clean]
    split
    · rename_i empty
      rw [List.isEmpty_iff.mp empty, flatten_nil]
    · rw [flatten_singleton]

/-- Once an upload is no longer registered, a failure of it is to find it closed. -/
theorem removed_iff {next : History} {careful : Prop} (removed : next.upload.session = none)
    (faithful : ∀ finished, next.finished = some finished → finished.Faithful)
    (once : next.upload.completes ≤ 1)
    (closed : (next.failed = true → next.upload.closed = true) ↔ careful) :
    Kept next ∧ (next.Sound ↔ careful) := by
  refine ⟨⟨fun buf same => absurd (removed.symm.trans same) nofun, once⟩, ?_⟩
  rw [← closed]
  refine ⟨fun sound failed => ?_, fun closed => ⟨faithful, fun failed opened => ?_, once⟩⟩
  · by_contra opened
    have registered := sound.abortable failed (Bool.eq_false_iff.mpr opened)
    rw [removed] at registered
    cases registered
  · exact absurd ((closed failed).symm.trans opened) nofun

/-- A step leaves the history sound exactly if it is careful. -/
theorem sound_step_iff (kept : Kept history) (sound : history.Sound) (call : Call) :
    Kept (history.step call) ∧ ((history.step call).Sound ↔ Careful history call) := by
  cases session : history.upload.session with
  | none =>
    cases call with
    | chunk bytes putPart =>
      unfold History.step Upload.doPutStreamChunk Careful
      rw [session]
      exact removed_iff session sound.faithful kept.once (by simp [Except.toBool])
    | finish putPart complete =>
      unfold History.step Upload.doPutStreamFinish Careful
      rw [session]
      exact removed_iff session sound.faithful kept.once (by simp [Except.toBool])
    | abort abort =>
      unfold History.step Upload.doPutStreamAbort Careful
      rw [session]
      exact ⟨kept, iff_of_true sound nofun⟩
  | some buf =>
    have registered := kept.registered buf session
    have running : ∀ finished, history.finished = some finished → finished.Faithful :=
      fun finished same => absurd (registered.running.symm.trans same) nofun
    cases call with
    | chunk bytes putPart =>
      refine ⟨registered.chunk session bytes putPart, iff_of_true ?_ (Or.inl (session ▸ rfl))⟩
      unfold History.step Upload.doPutStreamChunk
      rw [session]
      exact ⟨running, fun _ _ => rfl, kept.once⟩
    | finish putPart complete =>
      have fits := Nat.le_of_eq (congrArg Nat.succ registered.completes)
      unfold History.step Upload.doPutStreamFinish Careful
      rw [session]
      dsimp only
      cases lastPart buf putPart with
      | error error =>
        exact removed_iff rfl running kept.once (by simp [Except.toBool, registered.opened])
      | ok _ =>
        cases complete with
        | error error =>
          exact removed_iff rfl running fits (by simp [Except.toBool, Except.mapError])
        | ok _ =>
          refine ⟨⟨nofun, fits⟩, fun finished => ?_, fun ⟨clean, _⟩ => ⟨?_, nofun, fits⟩⟩
          · exact ⟨(finished.faithful _ rfl).clean, rfl, rfl⟩
          · intro finished same
            cases same
            exact registered.faithful clean
    | abort abort =>
      unfold History.step Upload.doPutStreamAbort Careful
      rw [session]
      exact removed_iff rfl running kept.once (by simp)

theorem careful_run (kept : Kept history) (sound : history.Sound) (calls : List Call) :
    (∀ before, before <+: calls → (run history before).Sound) ↔ EachCareful history calls := by
  induction calls generalizing history with
  | nil =>
    refine iff_of_true ?_ trivial
    intro before front
    rw [prefix_nil.mp front]
    exact sound
  | cons call rest ih =>
    constructor
    · intro every
      have next := every [call] (prefix_append [call] rest)
      obtain ⟨kept, careful⟩ := sound_step_iff kept sound call
      refine ⟨careful.mp next, (ih kept next).mp ?_⟩
      intro before front
      exact every (call :: before) (cons_prefix_cons.mpr ⟨rfl, front⟩)
    · rintro ⟨careful, later⟩ before front
      obtain ⟨kept, spec⟩ := sound_step_iff kept sound call
      have next := spec.mpr careful
      cases before with
      | nil => exact sound
      | cons first before =>
        obtain ⟨rfl, inside⟩ := cons_prefix_cons.mp front
        exact (ih kept next).mpr later before inside

end Steps

/-- After every call the upload is faithful or has failed, and can then be aborted, exactly if
every call is careful. -/
theorem upload_faithful_iff (id : Nat) (calls : List Call) :
    (∀ before, before <+: calls → (run (.opened id) before).Sound) ↔
      EachCareful (.opened id) calls :=
  careful_run (kept_opened id) ⟨nofun, nofun, Nat.zero_le _⟩ calls

/-- The store refuses to complete the upload, and nothing can abort it any more. -/
theorem completion_refused :
    ¬ ∀ before, before <+: [.finish (.ok ()) (.error "timeout")] →
      (run (.opened 0) before).Sound :=
  fun sound => absurd ((sound _ prefix_rfl).abortable rfl rfl) (by decide)

end OnlyJs.Plugin.S3Upload
