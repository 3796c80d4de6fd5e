import OnlyJs.Bridge.DbImport.Csv
import OnlyJs.Lib.Fallible

/-!
# The rows of a byte text

A record ends at the first line break outside quotation marks, so reading records
one after another is a recursion on the text. `rowsFrom` is that recursion: the
rows and row errors of a text whose first line has a given number. The parser in
memory yields exactly these.
-/

namespace OnlyJs.Bridge.DbImport

open Lib.Fallible List Lib.Iteration Lib.QuotedText Lib.Utf8

abbrev Item := Except ParseError ParsedRow

section Records

def recordEnd (quoted : Bool) (text : List UInt8) : Option Nat :=
  firstStop quote newline quoted text

def quoteOpen (quoted : Bool) (text : List UInt8) : Bool := inside quote quoted text

def recordAt (quoted : Bool) (phys : Nat) (text : List UInt8) : Option (List UInt8 × Nat) :=
  match recordEnd quoted text with
  | some stop => some (text.take stop, phys + (text.take stop).count newline)
  | none => if quoteOpen quoted text then none else some (text, phys + text.count newline)

theorem keep_recordAt (b : UInt8) (quoted : Bool) (phys : Nat) (rest : List UInt8)
    (inner : b = newline → quoted = true) :
    keep b (recordAt (if b = quote then !quoted else quoted)
        (phys + if b = newline then 1 else 0) rest) =
      recordAt quoted phys (b :: rest) := by
  have elsewhere : ¬(b = newline ∧ quoted = false) := by
    rintro ⟨breaks, closed⟩
    rw [inner breaks] at closed
    cases closed
  have lines : ∀ record : List UInt8,
      phys + (if b = newline then 1 else 0) + record.count newline =
        phys + (b :: record).count newline := by
    intro record
    by_cases breaks : b = newline
    · rw [if_pos breaks, breaks, count_cons_self, Nat.add_assoc, Nat.add_comm 1]
    · rw [if_neg breaks, count_cons_of_ne breaks]
      rfl
  unfold recordAt recordEnd quoteOpen
  rw [firstStop, if_neg elsewhere, inside]
  cases firstStop quote newline (if b = quote then !quoted else quoted) rest with
  | some stop =>
    simp only [keep, Option.map_some, take_succ_cons, lines]
  | none =>
    cases inside quote (if b = quote then !quoted else quoted) rest with
    | true => rfl
    | false =>
      change some (b :: rest, _) = some (b :: rest, _)
      rw [lines]

variable (quoted : Bool) (phys : Nat) (rest : List UInt8)

theorem keep_mark :
    keep quote (recordAt (!quoted) phys rest) = recordAt quoted phys (quote :: rest) :=
  keep_recordAt quote quoted phys rest fun clash => absurd clash (by decide)

theorem keep_break :
    keep newline (recordAt true (phys + 1) rest) = recordAt true phys (newline :: rest) :=
  keep_recordAt newline true phys rest fun _ => rfl

theorem keep_plain {b : UInt8} (quoted : Bool) (phys : Nat) (rest : List UInt8)
    (unmarked : b ≠ quote) (unbroken : b ≠ newline) :
    keep b (recordAt quoted phys rest) = recordAt quoted phys (b :: rest) := by
  have kept := keep_recordAt b quoted phys rest fun breaks => absurd breaks unbroken
  rwa [if_neg unmarked, if_neg unbroken] at kept

theorem readRecordFrom_eq (text : List UInt8) :
    readRecordFrom quoted phys text = recordAt quoted phys text := by
  fun_induction readRecordFrom quoted phys text with
  | case1 => rfl
  | case2 quoted phys closed =>
    rw [Bool.not_eq_true] at closed
    rw [closed]
    rfl
  | case3 phys ih => rw [ih]; rfl
  | case4 phys later ih => rw [ih, ← keep_mark, ← keep_mark]; rfl
  | case5 phys next later _ ih => rw [ih, ← keep_mark]; rfl
  | case6 phys rest _ ih => rw [ih, keep_break]
  | case7 phys b rest unmarked unbroken ih => rw [ih, keep_plain true phys rest unmarked unbroken]
  | case8 phys rest ih => rw [ih, ← keep_mark]; rfl
  | case9 phys rest => rfl
  | case10 phys b rest unmarked unbroken ih =>
    rw [ih, keep_plain false phys rest unmarked unbroken]

variable {src : List UInt8}

theorem readRecord_terminated {stop : Nat} (ends : recordEnd false src = some stop) :
    readRecord src = some (src.take stop, 1 + (src.take stop).count newline) := by
  rw [readRecord, readRecordFrom_eq, recordAt, ends]

theorem readRecord_closed (endless : recordEnd false src = none)
    (closed : quoteOpen false src = false) :
    readRecord src = some (src, 1 + src.count newline) := by
  rw [readRecord, readRecordFrom_eq, recordAt, endless, closed]
  rfl

theorem readRecord_open (endless : recordEnd false src = none)
    (opened : quoteOpen false src = true) :
    readRecord src = none := by
  rw [readRecord, readRecordFrom_eq, recordAt, endless, opened]
  rfl

/-- The three ways in which reading a record comes out. -/
inductive Reading (src : List UInt8) : Option (List UInt8 × Nat) → Prop where
  | terminated {stop : Nat} (ends : recordEnd false src = some stop) (inside : stop < src.length) :
      Reading src (some (src.take stop, 1 + (src.take stop).count newline))
  | closed (endless : recordEnd false src = none) (closed : quoteOpen false src = false) :
      Reading src (some (src, 1 + src.count newline))
  | opened (endless : recordEnd false src = none) (opened : quoteOpen false src = true) :
      Reading src none

theorem readRecord_reading (src : List UInt8) : Reading src (readRecord src) := by
  cases ends : recordEnd false src with
  | some stop =>
    rw [readRecord_terminated ends]
    exact .terminated ends (firstStop_lt ends)
  | none =>
    cases state : quoteOpen false src with
    | false =>
      rw [readRecord_closed ends state]
      exact .closed ends state
    | true =>
      rw [readRecord_open ends state]
      exact .opened ends state

end Records

section Rows

variable (parseDouble : String → Option UInt64) (columns : Columns)

/-- The rows and row errors of a text whose first record starts on `line`. -/
def rowsFrom (line : Nat) : List UInt8 → List Item
  | [] => []
  | b :: rest =>
    match readRecord (b :: rest) with
    | none => [.error (.bad line "unterminated quoted field" (fromUtf8Lossy (b :: rest)))]
    | some (record, phys) =>
      rowFromRecord parseDouble record line columns ::
        rowsFrom (line + phys) (rest.drop record.length)
termination_by src => src.length
decreasing_by
  rw [List.length_drop, List.length_cons]
  omega

theorem rowsFrom_nil (line : Nat) : rowsFrom parseDouble columns line [] = [] := by
  rw [rowsFrom]

theorem rowsFrom_read {src record : List UInt8} {phys : Nat} (line : Nat) (nonempty : src ≠ [])
    (read : readRecord src = some (record, phys)) :
    rowsFrom parseDouble columns line src =
      rowFromRecord parseDouble record line columns ::
        rowsFrom parseDouble columns (line + phys) (src.drop (record.length + 1)) := by
  cases src with
  | nil => exact absurd rfl nonempty
  | cons b rest => rw [rowsFrom, read, drop_succ_cons]

theorem rowsFrom_open {src : List UInt8} (line : Nat) (nonempty : src ≠ [])
    (read : readRecord src = none) :
    rowsFrom parseDouble columns line src =
      [.error (.bad line "unterminated quoted field" (fromUtf8Lossy src))] := by
  cases src with
  | nil => exact absurd rfl nonempty
  | cons b rest => rw [rowsFrom, read]

theorem parser_yields (parser : CsvParser) (fresh : parser.done = true → parser.src = []) :
    Yields (CsvParser.next parseDouble) parser
      (rowsFrom parseDouble parser.columns parser.line (parser.src.drop parser.pos)) := by
  induction size : parser.src.length - parser.pos using Nat.strongRecOn generalizing parser with
  | ind left ih =>
    by_cases spent : parser.src.length ≤ parser.pos
    · rw [drop_eq_nil_of_le spent, rowsFrom_nil]
      apply Yields.finished
      rw [CsvParser.next, if_pos]
      rw [decide_eq_true spent, Bool.or_true]
    · have more : parser.src.drop parser.pos ≠ [] := fun empty =>
        spent (drop_eq_nil_iff.mp empty)
      have going : ¬((parser.done || decide (parser.src.length ≤ parser.pos)) = true) := by
        rw [decide_eq_false spent, Bool.or_false]
        intro done
        rw [fresh done] at spent
        exact spent (Nat.zero_le _)
      cases read : readRecord (parser.src.drop parser.pos) with
      | none =>
        rw [rowsFrom_open parseDouble parser.columns parser.line more read]
        apply Yields.item
        · rw [CsvParser.next, if_neg going, read]
        · apply Yields.finished
          rw [CsvParser.next, Bool.true_or, if_pos rfl]
      | some reading =>
        obtain ⟨record, phys⟩ := reading
        rw [rowsFrom_read parseDouble parser.columns parser.line more read, drop_drop]
        apply Yields.item
        · rw [CsvParser.next, if_neg going, read]
        · apply ih _ _ { parser with
            pos := parser.pos + record.length + 1, line := parser.line + phys } fresh rfl
          change parser.src.length - (parser.pos + record.length + 1) < left
          omega

end Rows

section Parity

private theorem head_append {text : String} {char : Char}
    (first : text.toList.head? = some char) (more : String) :
    (text ++ more).toList.head? = some char := by
  rw [String.toList_append, head?_append, first]
  rfl

variable (parseDouble : String → Option UInt64) (columns : Columns)

variable {badLine line : Nat} {raw : String}

theorem coerceCells_reason {cells : List String} {typed : List (String × ColumnType)}
    {reason : String}
    (failed : coerceCells parseDouble line cells typed = .error (.bad badLine reason raw)) :
    ∃ column text : String, reason = s!"column '{column}': {text}" := by
  induction cells generalizing typed with
  | nil => cases failed
  | cons cell cells ih =>
    cases typed with
    | nil => cases failed
    | cons first typed =>
      rw [coerceCells] at failed
      cases coerced : coerce parseDouble cell first.2 with
      | error text =>
        rw [coerced] at failed
        cases failed
        exact ⟨first.1, text, rfl⟩
      | ok value =>
        rw [coerced] at failed
        exact ih (map_error.mp failed)

variable {record : List UInt8}

theorem row_unterminated
    (failed : rowFromRecord parseDouble record line columns =
      .error (.bad badLine "unterminated quoted field" raw)) :
    raw = fromUtf8Lossy (stripReturn record) := by
  unfold rowFromRecord at failed
  simp only at failed
  split at failed
  · cases failed
    rfl
  · split at failed
    · rename_i cells _ _
      have reasons := (ParseError.bad.inj (Except.error.inj failed)).2.1
      have head : "unterminated quoted field".toList.head? = some 'e' := by
        rw [← reasons]
        apply head_append
        apply head_append
        apply head_append
        decide
      exact absurd head (by decide)
    · obtain ⟨column, text, reason⟩ :=
        coerceCells_reason parseDouble (map_error.mp failed)
      have head : "unterminated quoted field".toList.head? = some 'c' := by
        rw [reason]
        apply head_append
        apply head_append
        apply head_append
        decide
      exact absurd head (by decide)

variable {src : List UInt8}

theorem quoteOpen_after {stop : Nat} (ends : recordEnd false src = some stop) :
    quoteOpen false (src.drop (stop + 1)) = quoteOpen false src := by
  obtain ⟨around, _, closed⟩ := firstStop_split ends
  conv_rhs => rw [around]
  rw [quoteOpen, quoteOpen, inside_append, closed, inside, if_neg (by decide)]

theorem count_fromUtf8Lossy (bytes : List UInt8) :
    (fromUtf8Lossy bytes).toList.count '\x22' = bytes.count quote := by
  rw [fromUtf8Lossy, String.toList_ofList, count_decodeLossy (by decide)]
  rfl

theorem count_stripReturn (record : List UInt8) :
    (stripReturn record).count quote = record.count quote := by
  unfold stripReturn
  split
  · rename_i ends
    obtain ⟨front, rfl⟩ := getLast?_eq_some_iff.mp ends
    rw [dropLast_concat, count_append]
    rfl
  · rfl

theorem quoteOpen_iff (text : List UInt8) :
    quoteOpen false text = true ↔ text.count quote % 2 = 1 := by
  rw [quoteOpen, inside_eq_count, Bool.false_xor, decide_eq_true_iff]

theorem row_closed (closed : quoteOpen false record = false)
    (failed : rowFromRecord parseDouble record line columns =
      .error (.bad badLine "unterminated quoted field" raw)) :
    raw.toList.count '\x22' % 2 = 0 := by
  rw [row_unterminated parseDouble columns failed, count_fromUtf8Lossy, count_stripReturn]
  have parity := quoteOpen_iff record
  rw [closed] at parity
  have even : ¬record.count quote % 2 = 1 := fun odd => nomatch parity.mpr odd
  omega

theorem rowsFrom_opened (line : Nat) (opened : quoteOpen false src = true) :
    ∃ badLine raw, .error (.bad badLine "unterminated quoted field" raw) ∈
        rowsFrom parseDouble columns line src ∧
      raw.toList.count '\x22' % 2 = 1 := by
  induction size : src.length using Nat.strongRecOn generalizing line src with
  | ind n ih =>
    have nonempty : src ≠ [] := by
      intro empty
      rw [empty] at opened
      cases opened
    have reading := readRecord_reading src
    generalize outcome : readRecord src = read at reading
    cases reading with
    | @terminated stop ends inside =>
      have length : (src.take stop).length = stop := by
        rw [length_take]
        omega
      rw [rowsFrom_read parseDouble columns line nonempty outcome, length]
      rw [← quoteOpen_after ends] at opened
      have shorter : (src.drop (stop + 1)).length < n := by
        rw [length_drop]
        omega
      obtain ⟨badLine, raw, reported, odd⟩ :=
        ih _ shorter (line + (1 + (src.take stop).count newline)) opened rfl
      exact ⟨badLine, raw, mem_cons_of_mem _ reported, odd⟩
    | closed _ closed => cases opened.symm.trans closed
    | opened =>
      rw [rowsFrom_open parseDouble columns line nonempty outcome]
      refine ⟨line, fromUtf8Lossy src, mem_singleton_self _, ?_⟩
      rw [count_fromUtf8Lossy]
      exact (quoteOpen_iff src).mp opened

theorem rowsFrom_closed (closed : quoteOpen false src = false)
    (reported : .error (.bad badLine "unterminated quoted field" raw) ∈ rowsFrom parseDouble columns line src)
    :
    raw.toList.count '\x22' % 2 = 0 := by
  induction size : src.length using Nat.strongRecOn generalizing line src with
  | ind n ih =>
    by_cases nonempty : src = []
    · rw [nonempty, rowsFrom_nil] at reported
      cases reported
    · have reading := readRecord_reading src
      generalize outcome : readRecord src = read at reading
      cases reading with
      | @terminated stop ends inside =>
        have length : (src.take stop).length = stop := by
          rw [length_take]
          omega
        rw [rowsFrom_read parseDouble columns line nonempty outcome, length] at reported
        rcases mem_cons.mp reported with here | there
        · exact row_closed parseDouble columns (firstStop_split ends).2.2 here.symm
        · have shorter : (src.drop (stop + 1)).length < n := by
            rw [length_drop]
            omega
          rw [← quoteOpen_after ends] at closed
          exact ih _ shorter closed there rfl
      | closed =>
        rw [rowsFrom_read parseDouble columns line nonempty outcome,
          drop_eq_nil_of_le (Nat.le_succ _), rowsFrom_nil] at reported
        exact row_closed parseDouble columns closed (mem_singleton.mp reported).symm
      | opened _ opened => cases opened.symm.trans closed

theorem rowsFrom_ne_of_parity {otherLine : Nat} {other : List UInt8}
    (opened : quoteOpen false src = true) (closed : quoteOpen false other = false) :
    rowsFrom parseDouble columns line src ≠ rowsFrom parseDouble columns otherLine other := by
  intro same
  obtain ⟨badLine, raw, reported, odd⟩ := rowsFrom_opened parseDouble columns line opened
  rw [same] at reported
  have even := rowsFrom_closed parseDouble columns closed reported
  omega

theorem rowsFrom_length (line otherLine : Nat) (src : List UInt8) :
    (rowsFrom parseDouble columns line src).length =
      (rowsFrom parseDouble columns otherLine src).length := by
  induction size : src.length using Nat.strongRecOn generalizing line otherLine src with
  | ind n ih =>
    by_cases nonempty : src = []
    · rw [nonempty, rowsFrom_nil, rowsFrom_nil]
    · cases read : readRecord src with
      | none =>
        rw [rowsFrom_open parseDouble columns _ nonempty read,
          rowsFrom_open parseDouble columns _ nonempty read, length_singleton,
          length_singleton]
      | some reading =>
        obtain ⟨record, phys⟩ := reading
        have shorter : (src.drop (record.length + 1)).length < n := by
          have positive := length_pos_iff.mpr nonempty
          rw [length_drop]
          omega
        rw [rowsFrom_read parseDouble columns _ nonempty read,
          rowsFrom_read parseDouble columns _ nonempty read, length_cons,
          length_cons, ih _ shorter _ (otherLine + phys) _ rfl]

theorem rowsFrom_ne_nil (nonempty : src ≠ []) :
    rowsFrom parseDouble columns line src ≠ [] := by
  cases read : readRecord src with
  | none =>
    rw [rowsFrom_open parseDouble columns _ nonempty read]
    exact cons_ne_nil _ _
  | some reading =>
    rw [rowsFrom_read parseDouble columns _ nonempty read]
    exact cons_ne_nil _ _

theorem rowsFrom_ne_of_record (line otherLine : Nat) {phys : Nat} (nonempty : src ≠ [])
    (read : readRecord src = some (record, phys)) :
    rowsFrom parseDouble columns line src ≠
      rowsFrom parseDouble columns otherLine (src.drop (record.length + 1)) := by
  intro same
  rw [rowsFrom_read parseDouble columns line nonempty read] at same
  have lengths := congrArg List.length same
  rw [length_cons, rowsFrom_length parseDouble columns (line + phys) otherLine] at lengths
  omega

end Parity

end OnlyJs.Bridge.DbImport
