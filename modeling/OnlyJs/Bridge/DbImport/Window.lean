import OnlyJs.Bridge.DbImport.CsvBlob

/-!
# What the streaming source reads

The bytes still to be read are those of the buffer from the position on and those
of the blob that were not fetched yet. Fetching a window leaves them as they are,
and a record found in the buffer is the first record of them. The source therefore
yields the rows of the remaining bytes, unless the blob is larger than the limit or
the last record overruns the buffer.
-/

namespace OnlyJs.Bridge.DbImport

open Lib.Iteration List Lib.QuotedText

namespace CsvBlobSource

section Filling

def rest (source : CsvBlobSource) : List UInt8 :=
  (source.buf ++ source.blob.drop source.offset).drop source.pos

def left (source : CsvBlobSource) : Nat :=
  source.blob.length - source.offset + if source.eof then 0 else 1

structure Buffered (source : CsvBlobSource) : Prop where
  offset_le : source.offset ≤ source.blob.length
  counted : source.bytesRead = source.offset
  drained : source.eof = true →
    source.offset = source.blob.length ∧ source.offset ≤ source.maxBytes

/-- The two sources are at the same place of the same blob. -/
structure SamePlace (source next : CsvBlobSource) : Prop where
  blob : next.blob = source.blob
  maxBytes : next.maxBytes = source.maxBytes
  columns : next.columns = source.columns
  line : next.line = source.line
  pos : next.pos = source.pos
  rest : next.rest = source.rest

variable {source : CsvBlobSource}

theorem rest_of_drained (buffered : source.Buffered) (ended : source.eof = true) :
    source.rest = source.buf.drop source.pos := by
  rw [rest, (buffered.drained ended).1, drop_length, append_nil]

theorem rest_of_within (within : source.pos ≤ source.buf.length) :
    source.rest = source.buf.drop source.pos ++ source.blob.drop source.offset := by
  rw [rest, drop_append_of_le_length within]

variable (blob : List UInt8) (offset len : Nat)

theorem readRange_length :
    (readRange blob offset len).length = min len (blob.length - offset) := by
  rw [readRange, length_take, length_drop]

theorem readRange_append :
    readRange blob offset len ++ blob.drop (offset + (readRange blob offset len).length) =
      blob.drop offset := by
  rw [readRange_length, ← drop_drop, readRange]
  rcases Nat.le_total len (blob.length - offset) with short | long
  · rw [Nat.min_eq_left short, take_append_drop]
  · have all : (blob.drop offset).length ≤ len := by
      rw [length_drop]
      exact long
    rw [Nat.min_eq_right long, take_of_length_le all, ← length_drop, drop_length,
      append_nil]

/-- A fetch either meets the limit, or leaves the place and has less to fetch. -/
inductive Filling (source : CsvBlobSource) : Except String CsvBlobSource → Prop where
  | refused (message : String) (large : source.maxBytes < source.blob.length) :
      Filling source (.error message)
  | filled (next : CsvBlobSource) (buffered : next.Buffered) (same : source.SamePlace next)
      (less : next.left < source.left) : Filling source (.ok next)

theorem fill_filling {window : Nat} (positive : 1 ≤ window) (buffered : source.Buffered)
    (going : source.eof = false) : Filling source (source.fill window) := by
  have length := readRange_length source.blob source.offset window
  have joined := readRange_append source.blob source.offset window
  have offset_le := buffered.offset_le
  have counted := buffered.counted
  have open_left : source.left = source.blob.length - source.offset + 1 := by
    rw [left, going]
    rfl
  unfold fill
  rw [going, if_neg Bool.false_ne_true]
  generalize readRange source.blob source.offset window = w at length joined
  simp only
  split
  · rename_i large
    apply Filling.refused
    omega
  · rename_i small
    split
    · rename_i empty
      rw [List.isEmpty_iff] at empty
      rw [empty, length_nil] at length
      apply Filling.filled
      · constructor
        · simp only [empty]
          omega
        · simp only [counted]
        · intro _
          simp only [empty, length_nil]
          omega
      · constructor <;> simp only [rest, empty, length_nil, Nat.add_zero]
      · rw [open_left]
        simp only [left, if_pos]
        omega
    · rename_i nonempty
      have some_read : 0 < w.length := by
        rw [List.isEmpty_iff] at nonempty
        exact length_pos_iff.mpr nonempty
      apply Filling.filled
      · constructor
        · simp only
          omega
        · simp only [counted]
        · intro ended
          cases ended
      · constructor <;> simp only [rest, append_assoc, joined]
      · rw [open_left]
        simp only [left, if_neg Bool.false_ne_true]
        omega

end Filling

section Turns

/-- Where the position is after a record that ended before `pos`. -/
def compact (window pos : Nat) : Nat := if window < pos then 0 else pos

/-- The same blob with the same bytes fetched. -/
structure Follows (source next : CsvBlobSource) : Prop where
  blob : next.blob = source.blob
  offset : next.offset = source.offset
  eof : next.eof = source.eof
  bytesRead : next.bytesRead = source.bytesRead
  maxBytes : next.maxBytes = source.maxBytes
  columns : next.columns = source.columns

variable (window : Nat) (parseDouble : String → Option UInt64)

/-- What one turn does, in terms of the bytes still to be read. -/
inductive Effect (source : CsvBlobSource) : Turn CsvBlobSource Item → Prop where
  | finished (spent : source.rest = []) (within : source.blob.length ≤ source.maxBytes) :
      Effect source .finished
  | failed (message : String) (large : source.maxBytes < source.blob.length) :
      Effect source (.failed message)
  | again (next : CsvBlobSource) (buffered : next.Buffered) (same : source.SamePlace next)
      (less : next.left < source.left) : Effect source (.again next)
  | record (record : List UInt8) (phys : Nat) (next : CsvBlobSource)
      (read : readRecord source.rest = some (record, phys))
      (nonempty : source.rest ≠ [])
      (fits : record.length < source.rest.length ∨
        source.pos + source.rest.length + 1 ≤ window)
      (follows : source.Follows next) (line : next.line = source.line + phys)
      (pos : next.pos = compact window (source.pos + record.length + 1))
      (rest : next.rest = source.rest.drop (record.length + 1)) :
      Effect source
        (.item (rowFromRecord parseDouble record source.line source.columns) next)
  | overrun (phys : Nat) (read : readRecord source.rest = some (source.rest, phys))
      (nonempty : source.rest ≠ []) (exceeds : window < source.pos + source.rest.length + 1) :
      Effect source .panicked
  | unterminated (next : CsvBlobSource) (read : readRecord source.rest = none)
      (nonempty : source.rest ≠ []) (follows : source.Follows next) (rest : next.rest = []) :
      Effect source
        (.item (.error (.bad source.line "unterminated quoted field"
          (fromUtf8Lossy source.rest))) next)

variable {window} {parseDouble} {source : CsvBlobSource}

theorem follows_buffered {next : CsvBlobSource} (follows : source.Follows next)
    (buffered : source.Buffered) : next.Buffered := by
  constructor
  · rw [follows.offset, follows.blob]
    exact buffered.offset_le
  · rw [follows.bytesRead, follows.offset]
    exact buffered.counted
  · rw [follows.eof, follows.offset, follows.blob, follows.maxBytes]
    exact buffered.drained

theorem follows_left {next : CsvBlobSource} (follows : source.Follows next) :
    next.left = source.left := by
  rw [left, follows.blob, follows.offset, follows.eof, left]

theorem refill_effect (positive : 1 ≤ window) (buffered : source.Buffered)
    (going : source.eof = false) :
    Effect window parseDouble source (source.refill window) := by
  have filling := fill_filling positive buffered going
  rw [refill]
  generalize source.fill window = filled at filling
  cases filling with
  | refused message large => exact .failed message large
  | filled next kept same less => exact .again next kept same less

theorem advance_effect {record : List UInt8} {phys : Nat}
    (read : readRecord source.rest = some (record, phys))
    (ends : source.pos + record.length + 1 ≤ source.buf.length) :
    Effect window parseDouble source
      (source.advance window (rowFromRecord parseDouble record source.line source.columns)
        record phys) := by
  have within : source.rest = source.buf.drop source.pos ++ source.blob.drop source.offset :=
    rest_of_within (by omega)
  have shorter : record.length < source.rest.length := by
    rw [within, length_append, length_drop]
    omega
  have nonempty : source.rest ≠ [] := by
    intro empty
    rw [empty] at shorter
    cases shorter
  have remaining : source.rest.drop (record.length + 1) =
      source.buf.drop (source.pos + record.length + 1) ++ source.blob.drop source.offset := by
    rw [rest, drop_drop, drop_append_of_le_length (by omega), Nat.add_assoc]
  unfold advance
  simp only
  split
  · rename_i beyond
    rw [if_neg (by omega)]
    refine .record record phys _ read nonempty (.inl shorter) ⟨rfl, rfl, rfl, rfl, rfl, rfl⟩ rfl
      ?_ ?_
    · rw [compact, if_pos beyond]
    · rw [remaining]
      rfl
  · rename_i within_window
    refine .record record phys _ read nonempty (.inl shorter) ⟨rfl, rfl, rfl, rfl, rfl, rfl⟩ rfl
      ?_ ?_
    · rw [compact, if_neg within_window]
    · rw [remaining, rest, drop_append_of_le_length ends]

theorem advance_last_effect {phys : Nat} (buffered : source.Buffered)
    (ended : source.eof = true) (within : source.pos < source.buf.length)
    (read : readRecord source.rest = some (source.rest, phys)) :
    Effect window parseDouble source
      (source.advance window (rowFromRecord parseDouble source.rest source.line source.columns)
        source.rest phys) := by
  have drained := rest_of_drained buffered ended
  have length : source.rest.length = source.buf.length - source.pos := by
    rw [drained, length_drop]
  have nonempty : source.rest ≠ [] := by
    intro empty
    rw [empty, length_nil] at length
    omega
  unfold advance
  simp only
  split
  · rename_i beyond
    rw [if_pos (by omega)]
    exact .overrun phys read nonempty beyond
  · rename_i within_window
    refine .record source.rest phys _ read nonempty (.inr (by omega))
      ⟨rfl, rfl, rfl, rfl, rfl, rfl⟩ rfl ?_ ?_
    · rw [compact, if_neg within_window]
    · rw [drop_eq_nil_of_le (by omega)]
      rw [rest, drop_eq_nil_iff, length_append, length_drop,
        (buffered.drained ended).1]
      simp only
      omega

/-- What is parsed while more may come ends with a line break. Its first record is
that of all remaining bytes, or a quotation is still open. -/
theorem slice_reading (going : source.eof = false) (within : source.pos ≤ source.buf.length)
    (found : source.hasRecord = true) :
    source.safeEnd ≤ source.buf.length ∧
      ((∃ record phys,
          readRecord ((source.buf.take source.safeEnd).drop source.pos) = some (record, phys) ∧
          readRecord source.rest = some (record, phys) ∧
          source.pos + record.length + 1 ≤ source.buf.length) ∨
        readRecord ((source.buf.take source.safeEnd).drop source.pos) = none) := by
  have remaining := rest_of_within within
  have body_length : (source.buf.drop source.pos).length = source.buf.length - source.pos :=
    length_drop
  have some_break : newline ∈ source.buf.drop source.pos := by
    rw [hasRecord, going, Bool.false_or, contains_iff_mem] at found
    exact found
  rw [safeEnd, going, if_neg Bool.false_ne_true]
  cases last : lastStop newline (source.buf.drop source.pos) with
  | none => exact absurd some_break (lastStop_none.mp last)
  | some i =>
    have i_lt := lastStop_lt last
    have slice : (source.buf.take (source.pos + (i + 1))).drop source.pos =
        (source.buf.drop source.pos).take (i + 1) := by
      rw [drop_take, Nat.add_sub_cancel_left]
    constructor
    · simp only
      omega
    · simp only
      rw [slice]
      cases ends : recordEnd false ((source.buf.drop source.pos).take (i + 1)) with
      | none =>
        exact .inr (readRecord_open ends (inside_cut (by decide) last ends))
      | some stop =>
        have short := firstStop_lt ends
        rw [length_take] at short
        have body_ends : recordEnd false (source.buf.drop source.pos) = some stop :=
          (firstStop_cut false last).symm.trans ends
        have rest_ends : recordEnd false source.rest = some stop := by
          rw [remaining]
          exact firstStop_append_of_some body_ends _
        have same : source.rest.take stop =
            ((source.buf.drop source.pos).take (i + 1)).take stop := by
          rw [remaining, take_append_of_le_length (by omega), take_take,
            Nat.min_eq_left (by omega)]
        refine .inl ⟨_, _, readRecord_terminated ends, ?_, ?_⟩
        · rw [← same]
          exact readRecord_terminated rest_ends
        · rw [length_take]
          omega

theorem nextRow_effect (parseDouble : String → Option UInt64) (positive : 1 ≤ window)
    (buffered : source.Buffered) :
    Effect window parseDouble source (source.nextRow window parseDouble) := by
  unfold nextRow
  split
  · rename_i spent
    cases ended : source.eof with
    | true =>
      apply Effect.finished
      · rw [rest_of_drained buffered ended, drop_eq_nil_of_le spent]
      · obtain ⟨reached, within⟩ := buffered.drained ended
        omega
    | false =>
      have filling := fill_filling positive buffered ended
      generalize source.fill window = filled at filling
      rw [if_neg Bool.false_ne_true]
      cases filling with
      | refused message large => exact .failed message large
      | filled next kept same less =>
        simp only
        split
        · rename_i both
          obtain ⟨reached, within⟩ := kept.drained both.2
          apply Effect.finished
          · rw [← same.rest, rest_of_drained kept both.2, drop_eq_nil_of_le both.1]
          · rw [← same.blob, ← same.maxBytes]
            omega
        · exact .again next kept same less
  · rename_i more
    cases ended : source.eof with
    | true =>
      have drained := rest_of_drained buffered ended
      have nonempty : source.rest ≠ [] := by
        rw [drained, Ne, drop_eq_nil_iff]
        exact more
      have all : source.safeEnd = source.buf.length := by
        rw [safeEnd, ended, if_pos rfl]
      have slice : (source.buf.take source.safeEnd).drop source.pos = source.rest := by
        rw [all, take_length, drained]
      have recorded : source.hasRecord = true := by
        rw [hasRecord, ended, Bool.true_or]
      rw [recorded, slice, if_neg (by decide), if_neg (by omega)]
      have reading := readRecord_reading source.rest
      generalize outcome : readRecord source.rest = read at reading
      cases reading with
      | terminated ends inside =>
        apply advance_effect outcome
        rw [length_take]
        have length := congrArg List.length drained
        rw [length_drop] at length
        omega
      | closed => exact advance_last_effect buffered ended (by omega) outcome
      | opened =>
        rw [← drained]
        refine .unterminated _ outcome nonempty ⟨rfl, rfl, ended.symm, rfl, rfl, rfl⟩ ?_
        rw [rest, drop_eq_nil_iff, length_append, length_drop,
          (buffered.drained ended).1]
        simp only
        omega
    | false =>
      cases found : source.hasRecord with
      | false => exact refill_effect positive buffered ended
      | true =>
        obtain ⟨bounded, outcome⟩ := slice_reading ended (by omega) found
        rw [if_neg (by decide), if_neg (by omega)]
        rcases outcome with ⟨record, phys, sliced, read, ends⟩ | opened
        · rw [sliced]
          exact advance_effect read ends
        · rw [opened]
          exact refill_effect positive buffered ended

end Turns

end CsvBlobSource

section Runs

open CsvBlobSource

/-- The last record has no line break to end it, and with the bytes that the buffer
still holds before it, it fills a window: moving past it removes a byte too many. -/
inductive Overruns (window : Nat) : Nat → List UInt8 → Prop where
  | last {pos phys : Nat} {src : List UInt8} (nonempty : src ≠ [])
      (read : readRecord src = some (src, phys)) (exceeds : window < pos + src.length + 1) :
      Overruns window pos src
  | later {pos phys : Nat} {src record : List UInt8} (nonempty : src ≠ [])
      (read : readRecord src = some (record, phys))
      (next : Overruns window (compact window (pos + record.length + 1))
        (src.drop (record.length + 1))) :
      Overruns window pos src

theorem not_overruns_nil {window pos : Nat} : ¬Overruns window pos [] := by
  intro overruns
  cases overruns with
  | last nonempty | later nonempty => exact nonempty rfl

theorem not_overruns_open {window pos : Nat} {src : List UInt8}
    (read : readRecord src = none) : ¬Overruns window pos src := by
  intro overruns
  cases overruns with
  | last _ other | later _ other => cases read.symm.trans other

theorem overruns_record {window pos phys : Nat} {src record : List UInt8}
    (read : readRecord src = some (record, phys))
    (fits : record.length < src.length ∨ pos + src.length + 1 ≤ window)
    (overruns : Overruns window pos src) :
    Overruns window (compact window (pos + record.length + 1)) (src.drop (record.length + 1)) := by
  cases overruns with
  | last _ other exceeds =>
    cases read.symm.trans other
    omega
  | later _ other next =>
    cases read.symm.trans other
    exact next

variable {window : Nat} (parseDouble : String → Option UInt64)

/-- A source that comes to its end has met neither the limit nor an overrun, and has
yielded the rows of the remaining bytes. -/
theorem yields_sound (positive : 1 ≤ window) {source : CsvBlobSource} {items : List Item}
    (yields : Yields (CsvBlobSource.nextRow window parseDouble) source items)
    (buffered : source.Buffered) :
    source.blob.length ≤ source.maxBytes ∧ ¬Overruns window source.pos source.rest ∧
      items = rowsFrom parseDouble source.columns source.line source.rest := by
  induction yields with
  | @finished source ends =>
    have effect := nextRow_effect parseDouble positive buffered
    rw [ends] at effect
    cases effect with
    | finished spent within =>
      rw [spent, rowsFrom_nil]
      exact ⟨within, not_overruns_nil, rfl⟩
  | @item source next value items produces _ ih =>
    have effect := nextRow_effect parseDouble positive buffered
    rw [produces] at effect
    cases effect with
    | record record phys _ read nonempty fits follows line pos rest =>
      obtain ⟨within, safe, rows⟩ := ih (follows_buffered follows buffered)
      rw [follows.blob, follows.maxBytes] at within
      rw [pos, rest] at safe
      rw [follows.columns, line, rest] at rows
      refine ⟨within, fun overruns => safe (overruns_record read fits overruns), ?_⟩
      rw [rowsFrom_read parseDouble _ _ nonempty read, rows]
    | unterminated _ read nonempty follows rest =>
      obtain ⟨within, _, rows⟩ := ih (follows_buffered follows buffered)
      rw [follows.blob, follows.maxBytes] at within
      rw [rest, rowsFrom_nil] at rows
      refine ⟨within, not_overruns_open read, ?_⟩
      rw [rowsFrom_open parseDouble _ _ nonempty read, rows]
  | @again source next items works _ ih =>
    have effect := nextRow_effect parseDouble positive buffered
    rw [works] at effect
    cases effect with
    | again _ kept same less =>
      rw [← same.blob, ← same.maxBytes, ← same.pos, ← same.rest, ← same.columns, ← same.line]
      exact ih kept

theorem yields_complete (positive : 1 ≤ window) (source : CsvBlobSource)
    (buffered : source.Buffered) (within : source.blob.length ≤ source.maxBytes)
    (safe : ¬Overruns window source.pos source.rest) :
    Yields (CsvBlobSource.nextRow window parseDouble) source
      (rowsFrom parseDouble source.columns source.line source.rest) := by
  induction size : source.rest.length + source.left using Nat.strongRecOn generalizing source with
  | ind n ih =>
    have effect := nextRow_effect parseDouble positive buffered
    generalize moved : source.nextRow window parseDouble = turn at effect
    cases effect with
    | finished spent _ =>
      rw [spent, rowsFrom_nil]
      exact .finished moved
    | failed message large => omega
    | again next kept same less =>
      apply Yields.again moved
      rw [← same.columns, ← same.line, ← same.rest]
      apply ih _ _ next kept
      · rw [same.blob, same.maxBytes]
        exact within
      · rw [same.pos, same.rest]
        exact safe
      · rfl
      · rw [same.rest]
        omega
    | record record phys next read nonempty fits follows line pos rest =>
      rw [rowsFrom_read parseDouble _ _ nonempty read]
      apply Yields.item moved
      rw [← follows.columns, ← line, ← rest]
      apply ih _ _ next (follows_buffered follows buffered)
      · rw [follows.blob, follows.maxBytes]
        exact within
      · rw [pos, rest]
        exact fun overruns => safe (.later nonempty read overruns)
      · rfl
      · have shrinks := length_pos_iff.mpr nonempty
        rw [rest, length_drop, follows_left follows]
        omega
    | overrun phys read nonempty exceeds => exact absurd (.last nonempty read exceeds) safe
    | unterminated next read nonempty follows rest =>
      rw [rowsFrom_open parseDouble _ _ nonempty read]
      apply Yields.item moved
      rw [← rowsFrom_nil parseDouble next.columns next.line, ← rest]
      apply ih _ _ next (follows_buffered follows buffered)
      · rw [follows.blob, follows.maxBytes]
        exact within
      · rw [rest]
        exact not_overruns_nil
      · rfl
      · have shrinks := length_pos_iff.mpr nonempty
        rw [rest, length_nil, follows_left follows]
        omega

theorem yields_iff (positive : 1 ≤ window) {source : CsvBlobSource} (buffered : source.Buffered)
    (items : List Item) :
    Yields (CsvBlobSource.nextRow window parseDouble) source items ↔
      source.blob.length ≤ source.maxBytes ∧ ¬Overruns window source.pos source.rest ∧
        items = rowsFrom parseDouble source.columns source.line source.rest := by
  constructor
  · intro yields
    exact yields_sound parseDouble positive yields buffered
  · rintro ⟨within, safe, rfl⟩
    exact yields_complete parseDouble positive source buffered within safe

end Runs

end OnlyJs.Bridge.DbImport
