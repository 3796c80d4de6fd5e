import OnlyJs.Bridge.DbImport.CsvBlob

/-!
# The header as the two readers see it

The parser reads the header from the whole text and does not count its carriage
return. The source reads it from the first window. What either reads after the header
is compared here, for every way in which the window can cut the header.
-/

namespace OnlyJs.Bridge.DbImport

open Lib.QuotedText List

section Window

theorem safePart_some {window : List UInt8} {stop : Nat}
    (ends : recordEnd false window = some stop) :
    readRecord (safePart window) =
      some (window.take stop, 1 + (window.take stop).count newline) := by
  unfold safePart
  cases last : lastStop newline window with
  | none =>
    have unbroken := lastStop_none.mp last
    rw [recordEnd, firstStop_of_not_mem false window unbroken] at ends
    cases ends
  | some i =>
    have found : recordEnd false (window.take (i + 1)) = some stop :=
      (firstStop_cut false last).trans ends
    have short := firstStop_lt found
    rw [length_take] at short
    rw [readRecord_terminated found, take_take, Nat.min_eq_left (by omega)]

theorem safePart_none {window record : List UInt8} {phys : Nat}
    (endless : recordEnd false window = none)
    (read : readRecord (safePart window) = some (record, phys)) :
    record = window ∧ phys = 1 ∧ quoteOpen false window = false ∧ newline ∉ window := by
  unfold safePart at read
  cases last : lastStop newline window with
  | none =>
    have unbroken := lastStop_none.mp last
    rw [last] at read
    cases opened : quoteOpen false window with
    | true =>
      rw [readRecord_open endless opened] at read
      cases read
    | false =>
      rw [readRecord_closed endless opened, count_eq_zero_of_not_mem unbroken] at read
      cases read
      exact ⟨rfl, rfl, rfl, unbroken⟩
  | some i =>
    have absent : recordEnd false (window.take (i + 1)) = none :=
      (firstStop_cut false last).trans endless
    rw [last] at read
    rw [readRecord_open absent (inside_cut (by decide) last absent)] at read
    cases read

end Window

section Header

variable (parseDouble : String → Option UInt64) (columns : Columns)

/-- When both readers have the same rows after a header that the parser accepts. The
last case is a coincidence: the source resumes within the header, and what is left of
it reads like the empty record that the parser sees between the carriage return and
the line break. -/
def HeaderAgrees (window : Nat) (src header : List UInt8) (lines : Nat) : Prop :=
  header.length = src.length ∧ src.length ≤ window + 1 ∨
  header.length ≤ window ∧ header.getLast? ≠ some carriageReturn ∨
  window < header.length ∧ header.length < src.length ∧
    header.getLast? = some carriageReturn ∧ src[window]? ≠ some quote ∧
    rowFromRecord parseDouble [] (1 + lines) columns =
      rowFromRecord parseDouble (header.drop (window + 1)) 2 columns

theorem stripReturn_length_return {record : List UInt8}
    (ends : record.getLast? = some carriageReturn) :
    (stripReturn record).length + 1 = record.length := by
  obtain ⟨front, rfl⟩ := getLast?_eq_some_iff.mp ends
  rw [stripReturn, if_pos ends, dropLast_concat, length_append, length_singleton]

theorem stripReturn_plain {record : List UInt8}
    (ends : record.getLast? ≠ some carriageReturn) : stripReturn record = record := by
  rw [stripReturn, if_neg ends]

theorem stripReturn_length_ge (record : List UInt8) :
    record.length ≤ (stripReturn record).length + 1 := by
  by_cases ends : record.getLast? = some carriageReturn
  · rw [stripReturn_length_return ends]
  · rw [stripReturn_plain ends]
    exact Nat.le_succ _

theorem header_rows_closed {window lines phys : Nat} {src record : List UInt8} (line : Nat)
    (endless : recordEnd false src = none)
    (opening : readRecord (safePart (src.take window)) = some (record, phys)) :
    rowsFrom parseDouble columns line (src.drop ((stripReturn src).length + 1)) =
        rowsFrom parseDouble columns (1 + phys) (src.drop (record.length + 1)) ↔
      HeaderAgrees parseDouble columns window src src lines := by
  have within : recordEnd false (src.take window) = none := by
    apply firstStop_take_of_le
    intro position found
    cases endless.symm.trans found
  obtain ⟨taken, _, _, _⟩ := safePart_none within opening
  rw [drop_eq_nil_of_le (stripReturn_length_ge src), rowsFrom_nil, taken, length_take]
  constructor
  · intro same
    refine .inl ⟨rfl, ?_⟩
    by_cases more : src.drop (min window src.length + 1) = []
    · rw [drop_eq_nil_iff] at more
      omega
    · exact absurd same.symm (rowsFrom_ne_nil parseDouble columns more)
  · rintro (⟨_, short⟩ | ⟨short, _⟩ | ⟨_, absurd_, _⟩)
    · rw [drop_eq_nil_of_le (by omega), rowsFrom_nil]
    · rw [drop_eq_nil_of_le (by omega), rowsFrom_nil]
    · omega

variable {window stop phys : Nat} {src record : List UInt8}

theorem drop_stop (ends : recordEnd false src = some stop) :
    src.drop stop = newline :: src.drop (stop + 1) := by
  obtain ⟨around, _, _⟩ := firstStop_split ends
  have short := firstStop_lt ends
  have length : (src.take stop).length = stop := by
    rw [length_take]
    omega
  conv_lhs => rw [around]
  rw [drop_append, length, Nat.sub_self, drop_eq_nil_of_le (by omega)]
  rfl

theorem rowsFrom_return (line : Nat) (ends : recordEnd false src = some stop) :
    rowsFrom parseDouble columns line (src.drop stop) =
      rowFromRecord parseDouble [] line columns ::
        rowsFrom parseDouble columns (line + 1) (src.drop (stop + 1)) := by
  rw [drop_stop ends]
  exact rowsFrom_read parseDouble columns line (cons_ne_nil _ _) rfl

theorem header_rows_within (ends : recordEnd false src = some stop) (within : stop ≤ window)
    (opening : readRecord (safePart (src.take window)) = some (record, phys)) :
    record = src.take stop ∧ phys = 1 + (src.take stop).count newline := by
  rcases Nat.lt_or_eq_of_le within with before | after
  · have found := safePart_some (firstStop_take_of_lt ends before)
    rw [take_take, Nat.min_eq_left within] at found
    cases found.symm.trans opening
    exact ⟨rfl, rfl⟩
  · have absent : recordEnd false (src.take window) = none := by
      apply firstStop_take_of_le
      intro position found
      cases ends.symm.trans found
      omega
    obtain ⟨taken, single, _, unbroken⟩ := safePart_none absent opening
    rw [after, count_eq_zero_of_not_mem unbroken]
    exact ⟨taken, single⟩

/-- A header longer than the window: the source resumes one byte after the window. -/
structure Resumes (window stop : Nat) (src : List UInt8) : Prop where
  beyond : window < stop
  closed : quoteOpen false (src.take window) = false
  unbroken : newline ∉ src.take window

theorem header_rows_beyond (ends : recordEnd false src = some stop) (beyond : window < stop)
    (opening : readRecord (safePart (src.take window)) = some (record, phys)) :
    record.length = window ∧ phys = 1 ∧ Resumes window stop src := by
  have absent : recordEnd false (src.take window) = none := by
    apply firstStop_take_of_le
    intro position found
    cases ends.symm.trans found
    omega
  have short := firstStop_lt ends
  obtain ⟨taken, single, closed, unbroken⟩ := safePart_none absent opening
  refine ⟨?_, single, beyond, closed, unbroken⟩
  rw [taken, length_take]
  omega

section

variable (resumes : Resumes window stop src) (ends : recordEnd false src = some stop)
include resumes ends

theorem resumes_split :
    ∃ b, src[window]? = some b ∧ src = src.take window ++ b :: src.drop (window + 1) := by
  have short := firstStop_lt ends
  have beyond := resumes.beyond
  have bound : window < src.length := by omega
  refine ⟨src[window], getElem?_eq_getElem bound, ?_⟩
  rw [← drop_eq_getElem_cons bound, take_append_drop]

theorem resumes_flipped (mark : src[window]? = some quote) :
    quoteOpen false (src.drop (window + 1)) = !quoteOpen false src := by
  obtain ⟨b, there, around⟩ := resumes_split resumes ends
  cases mark.symm.trans there
  have closed := resumes.closed
  rw [quoteOpen] at closed
  conv_rhs => rw [around]
  rw [quoteOpen, quoteOpen, inside_append, closed, inside, if_pos rfl, inside_not, Bool.not_not]

/-- Otherwise it takes what is left of the header for a record. -/
theorem resumes_record (plain : src[window]? ≠ some quote) :
    readRecord (src.drop (window + 1)) =
      some ((src.take stop).drop (window + 1), 1 + (src.take stop).count newline) := by
  obtain ⟨b, there, around⟩ := resumes_split resumes ends
  have beyond := resumes.beyond
  have short := firstStop_lt ends
  have closed := resumes.closed
  have length : (src.take window).length = window := by
    rw [length_take]
    omega
  have absent : recordEnd false (src.take window) = none := by
    apply firstStop_take_of_le
    intro position found
    cases ends.symm.trans found
    omega
  have unmarked : b ≠ quote := by
    intro same
    rw [there, same] at plain
    exact plain rfl
  have after := firstStop_append_of_none absent (b :: src.drop (window + 1))
  rw [quoteOpen] at closed
  rw [← around, ← recordEnd, ends, closed] at after
  obtain ⟨later, found, sum⟩ := Option.map_eq_some_iff.mp after.symm
  rw [firstStop] at found
  split at found
  · cases found
    omega
  · rename_i elsewhere
    have inner : b ≠ newline := fun breaks => elsewhere ⟨breaks, rfl⟩
    obtain ⟨rest, there_, succ⟩ := Option.map_eq_some_iff.mp found
    have rest_eq : rest = stop - (window + 1) := by omega
    rw [readRecord_terminated there_, rest_eq, ← drop_take]
    have lines : (src.take stop).count newline =
        ((src.take stop).drop (window + 1)).count newline := by
      have front : (src.take stop).take (window + 1) = src.take window ++ [b] := by
        rw [take_take, Nat.min_eq_left (by omega)]
        conv_lhs => rw [around]
        rw [take_append, length, Nat.add_sub_cancel_left,
          take_of_length_le (by omega)]
        rfl
      conv_lhs => rw [← take_append_drop (window + 1) (src.take stop)]
      rw [count_append, front, count_append,
        count_eq_zero_of_not_mem resumes.unbroken, count_cons_of_ne inner,
        count_nil]
      omega
    rw [← lines]

end

theorem header_rows_terminated (ends : recordEnd false src = some stop)
    (opening : readRecord (safePart (src.take window)) = some (record, phys)) :
    rowsFrom parseDouble columns (1 + (1 + (src.take stop).count newline))
          (src.drop ((stripReturn (src.take stop)).length + 1)) =
        rowsFrom parseDouble columns (1 + phys) (src.drop (record.length + 1)) ↔
      HeaderAgrees parseDouble columns window src (src.take stop)
        (1 + (src.take stop).count newline) := by
  have short := firstStop_lt ends
  have length : (src.take stop).length = stop := by
    rw [length_take]
    omega
  have after_open : quoteOpen false (src.drop (stop + 1)) = quoteOpen false src :=
    quoteOpen_after ends
  have return_open : quoteOpen false (src.drop stop) = quoteOpen false src := by
    rw [drop_stop ends, ← after_open]
    rfl
  have left : src.drop stop ≠ [] := by
    rw [drop_stop ends]
    exact cons_ne_nil _ _
  unfold HeaderAgrees
  rcases Nat.lt_or_ge window stop with beyond | within
  · obtain ⟨skipped, single, resumes⟩ := header_rows_beyond ends beyond opening
    rw [skipped, single]
    by_cases mark : src[window]? = some quote
    · have flipped := resumes_flipped resumes ends mark
      have different : ∀ line rest, quoteOpen false rest = quoteOpen false src →
          rowsFrom parseDouble columns line rest ≠
            rowsFrom parseDouble columns (1 + 1) (src.drop (window + 1)) := by
        intro line rest same equal
        cases opened : quoteOpen false src with
        | true =>
          rw [opened] at same flipped
          exact rowsFrom_ne_of_parity parseDouble columns same flipped equal
        | false =>
          rw [opened] at same flipped
          exact rowsFrom_ne_of_parity parseDouble columns flipped same equal.symm
      apply iff_of_false
      · by_cases returned : (src.take stop).getLast? = some carriageReturn
        · rw [stripReturn_length_return returned, length]
          exact different _ _ return_open
        · rw [stripReturn_plain returned, length]
          exact different _ _ after_open
      · rintro (⟨whole, _⟩ | ⟨within, _⟩ | ⟨_, _, _, plain, _⟩)
        · omega
        · omega
        · exact plain mark
    · have read := resumes_record resumes ends mark
      have resumed : ((src.take stop).drop (window + 1)).length = stop - (window + 1) := by
        rw [length_drop, length]
      have more : src.drop (window + 1) ≠ [] := by
        rw [Ne, drop_eq_nil_iff]
        omega
      have next : (src.drop (window + 1)).drop (stop - (window + 1) + 1) =
          src.drop (stop + 1) := by
        rw [drop_drop]
        congr 1
        omega
      by_cases returned : (src.take stop).getLast? = some carriageReturn
      · rw [stripReturn_length_return returned, length, rowsFrom_return parseDouble columns _ ends,
          rowsFrom_read parseDouble columns _ more read, resumed, next, List.cons.injEq]
        constructor
        · rintro ⟨heads, _⟩
          exact .inr (.inr ⟨beyond, short, returned, mark, heads⟩)
        · rintro (⟨whole, _⟩ | ⟨within, _⟩ | ⟨_, _, _, _, heads⟩)
          · omega
          · omega
          · refine ⟨heads, ?_⟩
            rw [show 1 + (1 + (src.take stop).count newline) + 1 =
              1 + 1 + (1 + (src.take stop).count newline) by omega]
      · rw [stripReturn_plain returned, length]
        apply iff_of_false
        · intro same
          have extra := rowsFrom_ne_of_record parseDouble columns (1 + 1)
            (1 + (1 + (src.take stop).count newline)) more read
          rw [resumed, next] at extra
          exact extra same.symm
        · rintro (⟨whole, _⟩ | ⟨within, _⟩ | ⟨_, _, ends_, _⟩)
          · omega
          · omega
          · exact returned ends_
  · obtain ⟨rfl, rfl⟩ := header_rows_within ends within opening
    by_cases returned : (src.take stop).getLast? = some carriageReturn
    · rw [stripReturn_length_return returned, length]
      apply iff_of_false
      · have empty : readRecord (src.drop stop) = some ([], 1) := by
          rw [drop_stop ends]
          rfl
        have extra := rowsFrom_ne_of_record parseDouble columns
          (1 + (1 + (src.take stop).count newline)) (1 + (1 + (src.take stop).count newline))
          left empty
        rw [drop_drop] at extra
        exact extra
      · rintro (⟨whole, _⟩ | ⟨_, plain⟩ | ⟨beyond, _⟩)
        · omega
        · exact plain returned
        · omega
    · rw [stripReturn_plain returned, length]
      exact iff_of_true rfl (.inr (.inl ⟨within, returned⟩))

end Header

end OnlyJs.Bridge.DbImport
