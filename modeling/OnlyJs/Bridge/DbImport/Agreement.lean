import OnlyJs.Bridge.DbImport.Header
import OnlyJs.Bridge.DbImport.Window

/-!
# The streaming source and the parser in memory

Both readers yield the rows of a remainder of the text, so they agree exactly when
the source gets through and the two remainders have the same rows.
-/

namespace OnlyJs.Bridge.DbImport

open Lib.Fallible Lib.Iteration

section Opening

variable {columns : Columns} {registry : SchemaRegistry} {table : String} {dialect : Dialect}

theorem guardedColumns_ok
    (guard : columnsGuard columns.names registry table dialect = .ok columns.types) :
    guardedColumns columns.names registry table dialect = .ok columns := by
  unfold guardedColumns
  split
  · rename_i types found
    have same := Except.ok.inj (found.symm.trans guard)
    cases same
    rfl
  · rename_i message found
    cases found.symm.trans guard

/-- A source opened with columns starts past the record that it takes for the header. -/
def openedSource (window : Nat) (src : List UInt8) (header : Bool) (columns : Columns)
    (maxBytes : Nat) (record : List UInt8) (phys : Nat) : CsvBlobSource where
  blob := src
  offset := (src.take window).length
  buf := src.take window
  pos := if header then record.length + 1 else 0
  line := if header then 1 + phys else 1
  eof := false
  bytesRead := (src.take window).length
  maxBytes := maxBytes
  columns := columns

theorem openedSource_buffered (window : Nat) (src : List UInt8) (header : Bool)
    (columns : Columns) (maxBytes : Nat) (record : List UInt8) (phys : Nat) :
    (openedSource window src header columns maxBytes record phys).Buffered := by
  constructor
  · exact List.length_take_le' window src
  · rfl
  · intro ended
    cases ended

theorem openedSource_rest (window : Nat) (src : List UInt8) (header : Bool)
    (columns : Columns) (maxBytes : Nat) (record : List UInt8) (phys : Nat) :
    (openedSource window src header columns maxBytes record phys).rest =
      src.drop (if header then record.length + 1 else 0) := by
  have joined := CsvBlobSource.readRange_append src 0 window
  rw [Nat.zero_add] at joined
  exact congrArg (List.drop _) joined

variable {key : String}

theorem openingRecord_ok {window : List UInt8} {reading : List UInt8 × Nat} :
    openingRecord window key = .ok reading ↔
      window ≠ [] ∧ readRecord (safePart window) = some reading := by
  unfold openingRecord
  split
  · rename_i empty
    rw [List.isEmpty_iff] at empty
    exact iff_of_false (fun failed => nomatch failed) fun both => both.1 empty
  · rename_i nonempty
    rw [List.isEmpty_iff] at nonempty
    cases readRecord (safePart window) with
    | none => exact iff_of_false (fun failed => nomatch failed) fun both => nomatch both.2
    | some other =>
      rw [Except.ok.injEq, Option.some.injEq]
      exact ⟨fun same => ⟨nonempty, same⟩, fun both => both.2⟩

variable {names : List String}

theorem openingColumns_passed (named : names ≠ []) (header : Bool) (record : List UInt8) :
    openingColumns names header record = .ok names := by
  cases names with
  | nil => exact absurd rfl named
  | cons => rfl

theorem guardedColumns_names (guarded : guardedColumns names registry table dialect = .ok columns) :
    columns.names = names := by
  unfold guardedColumns at guarded
  split at guarded
  · cases guarded
    rfl
  · cases guarded

variable {maxBytes window : Nat} {src : List UInt8} {source : CsvBlobSource}

theorem open_ok {header : Bool} {argsColumns : List String}
    (opened : CsvBlobSource.open window src key header argsColumns registry table dialect maxBytes
      = .ok source) :
    ∃ record phys names, src.take window ≠ [] ∧
      readRecord (safePart (src.take window)) = some (record, phys) ∧
      openingColumns argsColumns header record = .ok names ∧
      guardedColumns names registry table dialect = .ok source.columns ∧
      source = openedSource window src header source.columns maxBytes record phys := by
  obtain ⟨⟨record, phys⟩, read, rest⟩ := bind_ok.mp opened
  obtain ⟨names, named, rest⟩ := bind_ok.mp rest
  obtain ⟨columns, guarded, rest⟩ := bind_ok.mp rest
  cases rest
  rw [openingRecord_ok] at read
  exact ⟨record, phys, names, read.1, read.2, named, guarded, rfl⟩

theorem open_iff (positive : 1 ≤ window) (key : String) (header : Bool) (named : columns.names ≠ [])
    (guard : columnsGuard columns.names registry table dialect = .ok columns.types) (maxBytes : Nat)
    (source : CsvBlobSource) :
    CsvBlobSource.open window src key header columns.names registry table dialect maxBytes =
        .ok source ↔
      src ≠ [] ∧ ∃ record phys, readRecord (safePart (src.take window)) = some (record, phys) ∧
        source = openedSource window src header columns maxBytes record phys := by
  have some_window : src.take window ≠ [] ↔ src ≠ [] := by
    rw [Ne, List.take_eq_nil_iff, not_or]
    exact ⟨fun both => both.2, fun nonempty => ⟨by omega, nonempty⟩⟩
  constructor
  · intro opened
    obtain ⟨record, phys, names, some_read, read, passed, guarded, same⟩ := open_ok opened
    cases (openingColumns_passed named header record).symm.trans passed
    cases (guardedColumns_ok guard).symm.trans guarded
    exact ⟨some_window.mp some_read, record, phys, read, same⟩
  · rintro ⟨nonempty, record, phys, read, rfl⟩
    apply bind_ok.mpr
    refine ⟨(record, phys), openingRecord_ok.mpr ⟨some_window.mpr nonempty, read⟩, ?_⟩
    apply bind_ok.mpr
    refine ⟨columns.names, openingColumns_passed named header record, ?_⟩
    apply bind_ok.mpr
    exact ⟨columns, guardedColumns_ok guard, rfl⟩

theorem open_nonempty {header : Bool}
    (opened : CsvBlobSource.open window src key header names registry table dialect maxBytes =
      .ok source) :
    src ≠ [] := by
  obtain ⟨_, _, _, some_read, _⟩ := open_ok opened
  intro empty
  rw [empty, List.take_nil] at some_read
  exact some_read rfl

theorem open_named
    (opened : CsvBlobSource.open window src key false names registry table dialect maxBytes =
      .ok source) :
    names ≠ [] := by
  obtain ⟨_, _, _, _, _, named, _⟩ := open_ok opened
  intro unnamed
  rw [unnamed] at named
  cases named

end Opening

section Start

theorem splitRecordFrom_ne_nil (quoted : Bool) (cells : List String) (cell rest : List UInt8) :
    splitRecordFrom quoted cells cell rest ≠ some [] := by
  fun_induction splitRecordFrom quoted cells cell rest
  all_goals first
    | assumption
    | simp

theorem new_start {src : List UInt8} {columns : Columns} {header : Bool} {parser : CsvParser}
    (accepted : CsvParser.new src columns header = .ok parser) :
    parser.src = src ∧ parser.columns = columns ∧ (parser.done = true → parser.src = []) ∧
      (header = false → parser.pos = 0 ∧ parser.line = 1) ∧
      (header = true → src ≠ [] → columns.names ≠ [] ∧
        ∃ record phys, readRecord src = some (record, phys) ∧
          parser.pos = (stripReturn record).length + 1 ∧ parser.line = 1 + phys) := by
  unfold CsvParser.new at accepted
  simp only [List.drop_zero] at accepted
  have fresh : src.isEmpty = true → src = [] := List.isEmpty_iff.mp
  split at accepted
  · rename_i heading
    rw [Bool.and_eq_true] at heading
    split at accepted
    · cases accepted
    · rename_i record phys read
      split at accepted
      · cases accepted
      · rename_i cells split_
        split at accepted
        · cases accepted
        · rename_i same
          rw [Decidable.not_not] at same
          cases accepted
          refine ⟨rfl, rfl, fresh, ?_, ?_⟩
          · intro off
            rw [off] at heading
            cases heading.1
          · intro _ _
            refine ⟨?_, record, phys, read, ?_, rfl⟩
            · intro unnamed
              rw [same, unnamed] at split_
              exact splitRecordFrom_ne_nil false [] [] _ split_
            · exact congrArg (· + 1) (Nat.zero_add _)
  · rename_i plain
    cases accepted
    refine ⟨rfl, rfl, fresh, fun _ => ⟨rfl, rfl⟩, ?_⟩
    intro on nonempty
    rw [on, Bool.true_and, Bool.not_eq_true, Bool.not_eq_false'] at plain
    exact absurd (fresh plain) nonempty

end Start

section Agreement

/-- The source opens, comes to its end, and yields what the parser yields. -/
def Agrees (parseDouble : String → Option UInt64) (window : Nat) (parser : CsvParser)
    (key : String) (header : Bool) (registry : SchemaRegistry) (table : String)
    (dialect : Dialect) (maxBytes : Nat) : Prop :=
  ∃ items source,
    Yields (CsvParser.next parseDouble) parser items ∧
    CsvBlobSource.open window parser.src key header parser.columns.names registry table dialect
      maxBytes = .ok source ∧
    Yields (CsvBlobSource.nextRow window parseDouble) source items

/-- What the text and the header have to be like for that. -/
structure Fits (parseDouble : String → Option UInt64) (window : Nat) (src : List UInt8)
    (columns : Columns) (header : Bool) (maxBytes : Nat) : Prop where
  nonempty : src ≠ []
  named : columns.names ≠ []
  within : src.length ≤ maxBytes
  opening : ∃ record phys, readRecord (safePart (src.take window)) = some (record, phys) ∧
    (header = false → ¬Overruns window 0 src) ∧
    (header = true →
      ¬Overruns window (record.length + 1) (src.drop (record.length + 1)) ∧
      ∀ head lines, readRecord src = some (head, lines) →
        HeaderAgrees parseDouble columns window src head lines)

variable (parseDouble : String → Option UInt64)

theorem header_rows_iff {columns : Columns} {window lines phys : Nat}
    {src head record : List UInt8} (read : readRecord src = some (head, lines))
    (opening : readRecord (safePart (src.take window)) = some (record, phys)) :
    rowsFrom parseDouble columns (1 + lines) (src.drop ((stripReturn head).length + 1)) =
        rowsFrom parseDouble columns (1 + phys) (src.drop (record.length + 1)) ↔
      HeaderAgrees parseDouble columns window src head lines := by
  have reading := readRecord_reading src
  rw [read] at reading
  cases reading with
  | terminated ends => exact header_rows_terminated parseDouble columns ends opening
  | closed endless => exact header_rows_closed parseDouble columns _ endless opening

/-- The streaming source agrees with the parser in memory exactly on texts that fit. -/
theorem streaming_agrees_with_parsing {window : Nat} (positive : 1 ≤ window)
    {src : List UInt8} {columns : Columns} {header : Bool} {parser : CsvParser}
    (accepted : CsvParser.new src columns header = .ok parser) {registry : SchemaRegistry}
    {table : String} {dialect : Dialect}
    (guard : columnsGuard columns.names registry table dialect = .ok columns.types)
    (key : String) (maxBytes : Nat) :
    Agrees parseDouble window parser key header registry table dialect maxBytes ↔
      Fits parseDouble window src columns header maxBytes := by
  obtain ⟨from_src, from_columns, fresh, plain, heading⟩ := new_start accepted
  have parsed := parser_yields parseDouble parser fresh
  unfold Agrees
  rw [from_src, from_columns] at parsed ⊢
  have named_of : ∀ source, CsvBlobSource.open window src key header columns.names registry table
      dialect maxBytes = .ok source → columns.names ≠ [] := by
    intro source opened
    cases header with
    | false => exact open_named opened
    | true => exact (heading rfl (open_nonempty opened)).1
  have streams : ∀ record phys items,
      Yields (CsvBlobSource.nextRow window parseDouble)
          (openedSource window src header columns maxBytes record phys) items ↔
        src.length ≤ maxBytes ∧
          ¬Overruns window (if header then record.length + 1 else 0)
            (src.drop (if header then record.length + 1 else 0)) ∧
          items = rowsFrom parseDouble columns (if header then 1 + phys else 1)
            (src.drop (if header then record.length + 1 else 0)) := by
    intro record phys items
    have ends := yields_iff parseDouble positive
      (openedSource_buffered window src header columns maxBytes record phys) items
    rw [openedSource_rest] at ends
    exact ends
  constructor
  · rintro ⟨items, source, parses, opened, yields⟩
    have named := named_of source opened
    obtain ⟨nonempty, record, phys, read, rfl⟩ :=
      (open_iff positive key header named guard maxBytes source).mp opened
    obtain ⟨within, safe, rows⟩ := (streams record phys items).mp yields
    rw [yields_unique parses parsed] at rows
    refine ⟨nonempty, named, within, record, phys, read, ?_, ?_⟩
    · intro off
      rw [off] at safe
      exact safe
    · intro on
      rw [on] at safe rows
      refine ⟨safe, fun head lines whole => ?_⟩
      obtain ⟨_, head', lines', whole', pos, line⟩ := heading on nonempty
      cases whole.symm.trans whole'
      rw [pos, line] at rows
      exact (header_rows_iff parseDouble whole read).mp rows
  · rintro ⟨nonempty, named, within, record, phys, read, off, on⟩
    refine ⟨_, openedSource window src header columns maxBytes record phys, parsed, ?_, ?_⟩
    · exact (open_iff positive key header named guard maxBytes _).mpr
        ⟨nonempty, record, phys, read, rfl⟩
    · apply (streams record phys _).mpr
      cases header with
      | false =>
        obtain ⟨pos, line⟩ := plain rfl
        rw [pos, line]
        exact ⟨within, off rfl, rfl⟩
      | true =>
        obtain ⟨safe, agrees⟩ := on rfl
        obtain ⟨_, head, lines, whole, pos, line⟩ := heading rfl nonempty
        rw [pos, line]
        exact ⟨within, safe,
          (header_rows_iff parseDouble whole read).mpr (agrees head lines whole)⟩

def sampleColumns : Columns := ⟨["a"], [.unknown], rfl⟩

def emptyRegistry : SchemaRegistry := ⟨∅⟩

/-- A header `a` and a row `1`, with line feeds. -/
theorem streaming_agrees_with_parsing_sample :
    ∃ parser, CsvParser.new [0x61, 0x0A, 0x31, 0x0A] sampleColumns true = .ok parser ∧
      Agrees (fun _ => none) 2 parser "k" true emptyRegistry "t" .sqlite 100 := by
  have accepted : CsvParser.new [0x61, 0x0A, 0x31, 0x0A] sampleColumns true =
    .ok ⟨[0x61, 0x0A, 0x31, 0x0A], 2, 2, sampleColumns, false⟩ := rfl
  have guard : columnsGuard sampleColumns.names emptyRegistry "t" .sqlite =
    .ok sampleColumns.types := rfl
  refine ⟨_, accepted, ?_⟩
  rw [streaming_agrees_with_parsing (fun _ => none) (by decide) accepted guard "k" 100]
  refine ⟨by decide, by decide, by decide, [0x61], 1, by decide, (fun off => nomatch off), ?_⟩
  intro _
  constructor
  · intro overruns
    have read : readRecord [0x31, 0x0A] = some ([0x31], 1) := by decide
    exact not_overruns_nil (overruns_record read (by decide) overruns)
  · intro head lines read
    cases read
    exact .inr (.inl ⟨by decide, by decide⟩)

/-- The same text with a carriage return before each line feed: the parser yields an
empty row for the header's line break, and then counts a line too many. -/
theorem return_after_header_disagrees :
    ∃ parser, CsvParser.new [0x61, 0x0D, 0x0A, 0x31, 0x0D, 0x0A] sampleColumns true =
        .ok parser ∧
      columnsGuard sampleColumns.names emptyRegistry "t" .sqlite = .ok sampleColumns.types ∧
      ¬Agrees (fun _ => none) readWindow parser "k" true emptyRegistry "t" .sqlite 100 := by
  refine ⟨_, rfl, rfl, ?_⟩
  rintro ⟨items, source, parses, opened, yields⟩
  have parsed : (collect (CsvParser.next fun _ => none) 9
      ⟨[0x61, 0x0D, 0x0A, 0x31, 0x0D, 0x0A], 2, 2, sampleColumns, false⟩).map List.length =
        some 2 := by
    decide +kernel
  have streamed : ((CsvBlobSource.open readWindow [0x61, 0x0D, 0x0A, 0x31, 0x0D, 0x0A] "k" true
      sampleColumns.names emptyRegistry "t" .sqlite 100).toOption.bind
        (collect (CsvBlobSource.nextRow readWindow fun _ => none) 9)).map List.length =
          some 1 := by
    decide +kernel
  obtain ⟨rows, collected, two⟩ := Option.map_eq_some_iff.mp parsed
  rw [yields_unique (yields_of_collect collected) parses] at two
  have same : CsvBlobSource.open readWindow [0x61, 0x0D, 0x0A, 0x31, 0x0D, 0x0A] "k" true
    sampleColumns.names emptyRegistry "t" .sqlite 100 = .ok source := opened
  rw [same] at streamed
  obtain ⟨others, gathered, one⟩ := Option.map_eq_some_iff.mp streamed
  rw [yields_unique (yields_of_collect gathered) yields, two] at one
  cases one

end Agreement

end OnlyJs.Bridge.DbImport
