import OnlyJs.Bridge.DbExport.Consumer

/-!
# Exports reported done

An export that ends as done has stored the encoding of the rows that it counts,
unless the upload lost bytes of a chunk that failed.
-/

namespace OnlyJs.Bridge.DbExport

open List

def okRows : List (Except String Value) → List Value
  | .ok row :: rest => row :: okRows rest
  | _ => []

def ExportTask.admitted (task : ExportTask) (stream : List (Except String Value)) : List Value :=
  match task.rowCap with
  | none => okRows stream
  | some cap => (okRows stream).take cap

/-- The stream had more rows than the row cap. -/
def OverCap (task : ExportTask) (stream : List (Except String Value)) : Prop :=
  ∃ cap, task.rowCap = some cap ∧ cap < (okRows stream).length

theorem okRows_append (taken : List Value) (rest : List (Except String Value)) :
    okRows (taken.map Except.ok ++ rest) = taken ++ okRows rest := by
  induction taken with
  | nil => rfl
  | cons row taken ih =>
    rw [map_cons, cons_append, okRows, ih, cons_append]

section Consume

variable (jsonText : Value → String)

/-- A result that claims to be done describes the object under the key. -/
def Complete (task : ExportTask) (stream : List (Except String Value)) :
    Finish × Option (List UInt8) → Prop
  | (.done rows bytes truncated _ key _, object) =>
    key = task.blobKey ∧ rows ≤ (okRows stream).length ∧
      object = some (task.encoder.pushAll jsonText ((okRows stream).take rows) []) ∧
        bytes = (task.encoder.pushAll jsonText ((okRows stream).take rows) []).length ∧
          bytes ≤ task.maxBytes ∧ (truncated = true ↔ OverCap task stream)
  | _ => True

def ExportTask.encoded (task : ExportTask) (stream : List (Except String Value)) : List UInt8 :=
  task.encoder.pushAll jsonText (task.admitted stream) []

/-- A chunk fails, the upload then holds other bytes, and its finish succeeds; and
nothing ends the export before its rows are stored. -/
structure ChunkLost (task : ExportTask) (blob : BlobBehaviour) (cancelAt : Option Nat)
    (stream : List (Except String Value)) : Prop where
  opened : blob.opens = true
  finished : blob.finishes = true
  failed : ∃ kept, blob.chunk = .error kept ∧ kept ≠ task.encoded jsonText stream
  nonempty : task.encoded jsonText stream ≠ []
  within : (task.encoded jsonText stream).length ≤ task.maxBytes
  uncancelled : ∀ count, cancelAt = some count → (task.admitted stream).length < count
  unbroken : OverCap task stream ∨ (okRows stream).length = stream.length

def Pump.pushAll (pump : Pump) (rows : List Value) : Pump := rows.foldl (Pump.push jsonText) pump

variable (pump : Pump) (rows : List Value)

theorem pump_rows :
    (pump.pushAll jsonText rows).rows = pump.rows + rows.length := by
  induction rows generalizing pump with
  | nil => rfl
  | cons row rows ih =>
    rw [Pump.pushAll, foldl_cons, ← Pump.pushAll, ih, length_cons]
    simp only [Pump.push]
    omega

theorem pump_buf :
    (pump.pushAll jsonText rows).buf = pump.encoder.pushAll jsonText rows pump.buf := by
  induction rows generalizing pump with
  | nil => rfl
  | cons row rows ih =>
    rw [Pump.pushAll, foldl_cons, ← Pump.pushAll, ih]
    rfl

theorem push_extends (encoder : Encoder) (row : Value) (buf : List UInt8) :
    ∃ line, (encoder.push jsonText row buf).2.1 = buf ++ line ∧
      (encoder.push jsonText row buf).2.2 = line.length := by
  cases encoder with
  | csv headerDone | jsonl =>
    refine ⟨_, append_assoc _ _ _, ?_⟩
    simp only [Encoder.push, length_append]
    omega

theorem pump_extends :
    ∃ lines, (pump.pushAll jsonText rows).buf = pump.buf ++ lines ∧
      (pump.pushAll jsonText rows).bytes = pump.bytes + lines.length := by
  induction rows generalizing pump with
  | nil => exact ⟨[], (append_nil _).symm, rfl⟩
  | cons row rows ih =>
    obtain ⟨line, appended, counted⟩ := push_extends jsonText pump.encoder row pump.buf
    obtain ⟨lines, more, total⟩ := ih (pump.push jsonText row)
    refine ⟨line ++ lines, ?_, ?_⟩
    · rw [Pump.pushAll, foldl_cons, ← Pump.pushAll, more, Pump.push]
      simp only [appended, append_assoc]
    · rw [Pump.pushAll, foldl_cons, ← Pump.pushAll, total, Pump.push, length_append]
      simp only [counted, Nat.add_assoc]

theorem pump_append (more : List Value) :
    pump.pushAll jsonText (rows ++ more) = (pump.pushAll jsonText rows).pushAll jsonText more :=
  foldl_append

theorem pump_start_bytes (encoder : Encoder) (rows : List Value) :
    ((Pump.start encoder).pushAll jsonText rows).bytes =
      (encoder.pushAll jsonText rows []).length := by
  obtain ⟨lines, appended, counted⟩ := pump_extends jsonText (.start encoder) rows
  have buf := pump_buf jsonText (.start encoder) rows
  rw [counted, show encoder.pushAll jsonText rows [] = lines from ?_]
  · exact Nat.zero_add _
  · rw [← nil_append lines]
    exact buf.symm.trans appended

def End.stores : End → Bool
  | natural => true
  | maxRows => true
  | _ => false

/-- Why the loop stopped where it did. -/
def Stops (task : ExportTask) (cancelAt : Option Nat) (last : Pump)
    (rest : List (Except String Value)) : End → Prop
  | .natural => rest = []
  | .cancelled => cancelAt = some last.rows
  | .maxBytes => task.maxBytes < last.bytes
  | .maxRows => ∃ row more cap, rest = .ok row :: more ∧ task.rowCap = some cap ∧ cap ≤ last.rows
  | .streamErr error => ∃ more, rest = .error error :: more

/-- The loop took some rows and stopped at the rest of the stream. -/
structure Drained (task : ExportTask) (cancelAt : Option Nat) (pump : Pump)
    (stream : List (Except String Value)) (last : Pump) (ended : End) (taken : List Value)
    (rest : List (Except String Value)) : Prop where
  split : stream = taken.map Except.ok ++ rest
  pushed : last = pump.pushAll jsonText taken
  capped : ∀ cap, task.rowCap = some cap → pump.rows ≤ cap → last.rows ≤ cap
  within : ended ≠ .maxBytes → pump.bytes ≤ task.maxBytes → last.bytes ≤ task.maxBytes
  uncancelled : ended.stores = true → ∀ count, cancelAt = some count →
    count < pump.rows ∨ last.rows < count
  stops : Stops task cancelAt last rest ended

section

variable (task : ExportTask) (cancelAt : Option Nat)
include task cancelAt

theorem drained_cancelled (pump : Pump) (stream : List (Except String Value))
    (now : cancelAt = some pump.rows) :
    Drained jsonText task cancelAt pump stream pump .cancelled [] stream where
  split := rfl
  pushed := rfl
  capped := fun _ _ bound => bound
  within := fun _ bound => bound
  uncancelled := nofun
  stops := now

theorem drained_cons (pump last : Pump) (row : Value) (stream rest : List (Except String Value))
    (ended : End) (taken : List Value)
    (later : Drained jsonText task cancelAt (pump.push jsonText row) stream last ended taken rest)
    (room : ∀ cap, task.rowCap = some cap → pump.rows < cap)
    (within : (pump.push jsonText row).bytes ≤ task.maxBytes) (going : cancelAt ≠ some pump.rows) :
    Drained jsonText task cancelAt pump (.ok row :: stream) last ended (row :: taken) rest where
  split := by
    rw [later.split]
    rfl
  pushed := by
    rw [later.pushed]
    rfl
  capped := fun cap capped _ => later.capped cap capped (room cap capped)
  within := fun stays _ => later.within stays within
  uncancelled := by
    intro stores count cancels
    rcases later.uncancelled stores count cancels with before | after
    · by_cases same : count = pump.rows
      · exact absurd (same ▸ cancels) going
      · simp only [Pump.push] at before
        exact .inl (by omega)
    · exact .inr after
  stops := later.stops

theorem drained_here (pump : Pump) (stream : List (Except String Value)) (ended : End)
    (going : cancelAt ≠ some pump.rows) (stops : Stops task cancelAt pump stream ended) :
    Drained jsonText task cancelAt pump stream pump ended [] stream where
  split := rfl
  pushed := rfl
  capped := fun _ _ bound => bound
  within := fun _ bound => bound
  uncancelled := by
    intro _ count cancels
    have differs : count ≠ pump.rows := fun same => going (same ▸ cancels)
    exact Nat.lt_or_gt_of_ne differs
  stops := stops

theorem drain_drained (pump : Pump) (stream : List (Except String Value)) :
    ∃ taken rest, Drained jsonText task cancelAt pump stream
      (drain jsonText task cancelAt pump stream).1 (drain jsonText task cancelAt pump stream).2
      taken rest := by
  induction stream generalizing pump with
  | nil =>
    rw [drain]
    by_cases now : cancelAt = some pump.rows
    · rw [if_pos now]
      exact ⟨[], [], drained_cancelled jsonText task cancelAt pump [] now⟩
    · rw [if_neg now]
      exact ⟨[], [], drained_here jsonText task cancelAt pump [] .natural now rfl⟩
  | cons item rest ih =>
    unfold drain
    by_cases now : cancelAt = some pump.rows
    · rw [if_pos now]
      exact ⟨[], _, drained_cancelled jsonText task cancelAt pump (item :: rest) now⟩
    · rw [if_neg now]
      cases item with
      | error error =>
        exact ⟨[], _, drained_here jsonText task cancelAt pump _ (.streamErr error) now
          ⟨rest, rfl⟩⟩
      | ok row =>
        by_cases full : task.rowCap.any (· ≤ pump.rows) = true
        · simp only [full]
          obtain ⟨cap, capped, reached⟩ := (Option.any_eq_true _ _).mp full
          exact ⟨[], _, drained_here jsonText task cancelAt pump _ .maxRows now
            ⟨row, rest, cap, rfl, capped, of_decide_eq_true reached⟩⟩
        · have room : ∀ cap, task.rowCap = some cap → pump.rows < cap := by
            intro cap capped
            simp only [capped, Option.any_some, decide_eq_true_eq] at full
            omega
          simp only [full]
          by_cases exceeds : task.maxBytes < (pump.push jsonText row).bytes
          · rw [if_pos exceeds]
            refine ⟨[row], rest, rfl, rfl, ?_, fun stays => absurd rfl stays, nofun, exceeds⟩
            intro cap capped _
            exact room cap capped
          · rw [if_neg exceeds]
            obtain ⟨taken, left, later⟩ := ih (pump.push jsonText row)
            exact ⟨row :: taken, left, drained_cons jsonText task cancelAt pump _ row rest left _
              taken later room (Nat.le_of_not_lt exceeds) now⟩

end

section Ended

variable {task : ExportTask} {cancelAt : Option Nat} {stream : List (Except String Value)}
  {last : Pump} {ended : End} {taken : List Value} {rest : List (Except String Value)}

section

variable
  (drained : Drained jsonText task cancelAt (.start task.encoder) stream last ended taken rest)
include drained

theorem drained_rows :
    last.rows = taken.length := by
  rw [drained.pushed, pump_rows]
  exact Nat.zero_add _

theorem taken_admitted :
    ∃ more, task.admitted stream = taken ++ more := by
  have rows := drained_rows jsonText drained
  rw [ExportTask.admitted]
  cases capped : task.rowCap with
  | none => exact ⟨okRows rest, by rw [drained.split, okRows_append]⟩
  | some cap =>
    have within : taken.length ≤ cap := rows ▸ drained.capped cap capped (Nat.zero_le _)
    refine ⟨(okRows rest).take (cap - taken.length), ?_⟩
    simp only [drained.split, okRows_append, take_append]
    rw [take_of_length_le within]

end

/-- When the rows are to be stored, the loop took exactly the admitted ones. -/
theorem taken_stored (stores : ended.stores = true)
    (drained : Drained jsonText task cancelAt (.start task.encoder) stream last ended taken rest) :
    task.admitted stream = taken ∧
      (OverCap task stream ∨ (okRows stream).length = stream.length) ∧
        (ended = .maxRows ↔ OverCap task stream) := by
  have rows := drained_rows jsonText drained
  have stops := drained.stops
  cases ended with
  | natural =>
    cases (show rest = [] from stops)
    have all : okRows stream = taken := by
      rw [drained.split, okRows_append]
      exact append_nil taken
    have under : ¬ OverCap task stream := by
      rintro ⟨cap, capped, more⟩
      have within := drained.capped cap capped (Nat.zero_le _)
      rw [all] at more
      omega
    refine ⟨?_, .inr ?_, nofun, fun more => absurd more under⟩
    · rw [ExportTask.admitted]
      cases capped : task.rowCap with
      | none => exact all
      | some cap =>
        have within := drained.capped cap capped (Nat.zero_le _)
        rw [all]
        exact take_of_length_le (rows ▸ within)
    · rw [all, drained.split]
      simp
  | maxRows =>
    obtain ⟨row, more, cap, next, capped, reached⟩ := stops
    have exact_ : cap = taken.length := by
      have within := drained.capped cap capped (Nat.zero_le _)
      omega
    have all : okRows stream = taken ++ row :: okRows more := by
      rw [drained.split, next, okRows_append]
      rfl
    have beyond : OverCap task stream := by
      refine ⟨cap, capped, ?_⟩
      rw [all, length_append, length_cons]
      omega
    refine ⟨?_, .inl beyond, fun _ => beyond, fun _ => rfl⟩
    rw [ExportTask.admitted, capped, all, exact_]
    exact take_left
  | cancelled | maxBytes | streamErr error => cases stores

theorem not_lost_of_not_stores (blob : BlobBehaviour) (stores : ended.stores = false)
    (drained : Drained jsonText task cancelAt (.start task.encoder) stream last ended taken rest) :
    ¬ ChunkLost jsonText task blob cancelAt stream := by
  intro lost
  obtain ⟨more, admitted⟩ := taken_admitted jsonText drained
  have rows := drained_rows jsonText drained
  have stops := drained.stops
  cases ended with
  | natural | maxRows => cases stores
  | cancelled =>
    have later := lost.uncancelled last.rows stops
    rw [admitted, length_append] at later
    omega
  | maxBytes =>
    have exceeds : task.maxBytes < last.bytes := stops
    have within := lost.within
    obtain ⟨lines, _, counted⟩ :=
      pump_extends jsonText ((Pump.start task.encoder).pushAll jsonText taken) more
    rw [ExportTask.encoded, ← pump_start_bytes, admitted, pump_append, counted,
      ← drained.pushed] at within
    omega
  | streamErr error =>
    obtain ⟨left, next⟩ := stops
    have all : okRows stream = taken := by
      rw [drained.split, next, okRows_append]
      exact append_nil taken
    rcases lost.unbroken with ⟨cap, capped, beyond⟩ | whole
    · have within := drained.capped cap capped (Nat.zero_le _)
      rw [all] at beyond
      omega
    · rw [all, drained.split, next] at whole
      simp at whole

/-- What the loop hands over to be stored. -/
structure HandsOver (task : ExportTask) (stream : List (Except String Value)) (last : Pump)
    (truncated : Bool) : Prop where
  buf : last.buf = task.encoded jsonText stream
  bytes : last.bytes = (task.encoded jsonText stream).length
  within : last.bytes ≤ task.maxBytes
  rows : last.rows ≤ (okRows stream).length
  first : (okRows stream).take last.rows = task.admitted stream
  truncated : truncated = true ↔ OverCap task stream

theorem hands_over (stores : ended.stores = true)
    (drained : Drained jsonText task cancelAt (.start task.encoder) stream last ended taken rest) :
    HandsOver jsonText task stream last (ended = .maxRows) := by
  obtain ⟨admitted, _, capped⟩ := taken_stored jsonText stores drained
  have rows := drained_rows jsonText drained
  have all : okRows stream = taken ++ okRows rest := by
    rw [drained.split, okRows_append]
  constructor
  · rw [drained.pushed, pump_buf, ExportTask.encoded, admitted]
    rfl
  · rw [drained.pushed, pump_start_bytes, ExportTask.encoded, admitted]
  · apply drained.within
    · rintro rfl
      cases stores
    · exact Nat.zero_le _
  · rw [rows, all, length_append]
    exact Nat.le_add_right _ _
  · rw [rows, all, admitted]
    exact take_left
  · rw [decide_eq_true_eq]
    exact capped

/-- Storing what was handed over completes the export unless the chunk is lost. -/
theorem complete_settleEnd (blob : BlobBehaviour) (truncated : Bool)
    (handed : HandsOver jsonText task stream last truncated)
    (uncancelled : ∀ count, cancelAt = some count → (task.admitted stream).length < count)
    (unbroken : OverCap task stream ∨ (okRows stream).length = stream.length) :
    Complete jsonText task stream (settleEnd task blob last truncated) ↔
      ¬ ChunkLost jsonText task blob cancelAt stream := by
  have stored : ∀ object, Complete jsonText task stream
      (.done last.rows last.bytes truncated (if truncated then some "max_rows" else none)
        task.blobKey last.degraded, object) ↔
      object = some (task.encoded jsonText stream) := by
    intro object
    simp only [Complete, handed.first, true_and]
    constructor
    · exact fun complete => complete.2.1
    · exact fun same => ⟨handed.rows, same, handed.bytes, handed.within, handed.truncated⟩
  cases opens : blob.opens with
  | false =>
    have kept : ¬ ChunkLost jsonText task blob cancelAt stream := by
      intro lost
      rw [lost.opened] at opens
      cases opens
    refine iff_of_true ?_ kept
    simp only [settleEnd, commit, opens]
    by_cases big : task.fallbackCap < last.buf.length
    · simp only [big]
      trivial
    · by_cases puts : blob.puts = true
      · simp only [big, puts]
        exact (stored _).mpr (congrArg some handed.buf)
      · simp only [big, puts]
        trivial
  | true =>
    cases finishes : blob.finishes with
    | false =>
      have kept : ¬ ChunkLost jsonText task blob cancelAt stream := by
        intro lost
        rw [lost.finished] at finishes
        cases finishes
      refine iff_of_true ?_ kept
      simp only [settleEnd, commit, opens, finishes]
      trivial
    | true =>
      simp only [settleEnd, commit, opens, finishes, if_true]
      rw [stored, handed.buf]
      by_cases empty : task.encoded jsonText stream = []
      · rw [empty]
        exact iff_of_true rfl fun lost => lost.nonempty empty
      · rw [if_neg (by simpa using empty)]
        cases chunk : blob.chunk with
        | ok taken =>
          refine iff_of_true rfl fun lost => ?_
          obtain ⟨kept, failed, -⟩ := lost.failed
          rw [chunk] at failed
          cases failed
        | error kept =>
          constructor
          · rintro same lost
            obtain ⟨held, failed, differs⟩ := lost.failed
            rw [chunk] at failed
            cases failed
            exact differs (Option.some.inj same)
          · intro whole
            by_cases same : kept = task.encoded jsonText stream
            · exact congrArg some same
            · exact absurd ⟨opens, finishes, ⟨kept, chunk, same⟩, empty,
                handed.bytes ▸ handed.within, uncancelled, unbroken⟩ whole

end Ended

/-- An export is complete exactly when no chunk is lost: when it is reported done,
the object under its key is the encoding of the rows that it counts. -/
theorem complete_iff (task : ExportTask) (blob : BlobBehaviour) (cancelAt : Option Nat)
    (stream : List (Except String Value)) :
    Complete jsonText task stream (consume jsonText task blob cancelAt stream) ↔
      ¬ ChunkLost jsonText task blob cancelAt stream := by
  obtain ⟨taken, rest, drained⟩ :=
    drain_drained jsonText task cancelAt (.start task.encoder) stream
  rw [consume]
  generalize drain jsonText task cancelAt (.start task.encoder) stream = result at drained
  obtain ⟨last, ended⟩ := result
  have settles : ∀ truncated, ended.stores = true → (ended = .maxRows) = (truncated = true) →
      (Complete jsonText task stream (settleEnd task blob last truncated) ↔
        ¬ ChunkLost jsonText task blob cancelAt stream) := by
    intro truncated stores which
    have handed := hands_over jsonText stores drained
    obtain ⟨admitted, unbroken, -⟩ := taken_stored jsonText stores drained
    have rows : last.rows = taken.length := drained_rows jsonText drained
    apply complete_settleEnd jsonText blob truncated ?_ ?_ unbroken
    · simpa only [which, Bool.decide_eq_true] using handed
    · intro count cancels
      have later := drained.uncancelled stores count cancels
      rw [rows] at later
      rw [admitted]
      exact later.resolve_left (Nat.not_lt_zero count)
  cases ended with
  | natural => exact settles false rfl (by simp)
  | maxRows => exact settles true rfl (by simp)
  | cancelled | maxBytes =>
    exact iff_of_true trivial (not_lost_of_not_stores jsonText blob rfl drained)
  | streamErr error =>
    exact iff_of_true trivial (not_lost_of_not_stores jsonText blob rfl drained)

end Consume

def losingTask : ExportTask where
  encoder := .jsonl
  rowCap := none
  maxBytes := 100
  fallbackCap := 50
  blobKey := "export/task.jsonl"

def losingBlob : BlobBehaviour where
  opens := true
  chunk := .error []
  finishes := true
  puts := true
  leftover := none

/-- The export is reported done and the object is empty. -/
theorem export_loses_its_chunk :
    ¬ Complete (fun _ => "{}") losingTask [.ok (.object [])]
      (consume (fun _ => "{}") losingTask losingBlob none [.ok (.object [])]) := by
  have settled : consume (fun _ => "{}") losingTask losingBlob none [.ok (.object [])] =
      (.done 1 3 false none "export/task.jsonl" [], some []) := by
    decide +kernel
  rw [settled]
  intro complete
  have encoded : losingTask.encoder.pushAll (fun _ => "{}")
      ((okRows [.ok (.object [])]).take 1) [] = [0x7B, 0x7D, 0x0A] := by
    decide +kernel
  exact absurd (Option.some.inj (complete.2.2.1.trans (congrArg some encoded))) (by decide)

end OnlyJs.Bridge.DbExport
