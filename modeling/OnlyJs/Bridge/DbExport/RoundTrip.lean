import Mathlib.Data.List.TakeWhile
import OnlyJs.Bridge.DbExport.Encoder
import OnlyJs.Bridge.DbImport.Agreement

/-!
# Exported text read back

The lines of an export are records of the import, quotation marks and line breaks in
cells included. The byte order mark is not: the import takes it for the beginning of
the first column's name.
-/

namespace OnlyJs.Bridge.DbExport

open Bridge.DbImport List Lib.Iteration Lib.QuotedText Lib.Utf8

structure TextTable where
  first : List (String × String)
  more : List (List (String × String))
  distinct : (first.map Prod.fst).Nodup
  common : ∀ row ∈ more, (row.map Prod.fst).Perm (first.map Prod.fst)

namespace TextTable

def names (table : TextTable) : List String := table.first.map Prod.fst

def rows (table : TextTable) : List (List (String × String)) := table.first :: table.more

def object (row : List (String × String)) : Value :=
  .object (row.map fun field => (field.1, .string field.2))

def exported (table : TextTable) (jsonText : Value → String) : List UInt8 :=
  (Encoder.csv false).pushAll jsonText (table.rows.map object) []

end TextTable

section Lines

/-- Bytes that are balanced: every line break is quoted, and every quotation closed. -/
def Balanced (text : List UInt8) : Prop :=
  recordEnd false text = none ∧ quoteOpen false text = false

variable {text : List UInt8}

theorem balanced_append {more : List UInt8} (first : Balanced text) (second : Balanced more) :
    Balanced (text ++ more) := by
  obtain ⟨endless, closed⟩ := first
  rw [quoteOpen] at closed
  constructor
  · rw [recordEnd, firstStop_append_of_none endless, closed, ← recordEnd, second.1]
    rfl
  · rw [quoteOpen, inside_append, closed]
    exact second.2

theorem balanced_plain (unmarked : quote ∉ text) (unbroken : newline ∉ text) : Balanced text :=
  ⟨firstStop_of_not_mem false text unbroken, inside_of_not_mem false text unmarked⟩

theorem mem_encode (char : Char) (ascii : char.toNat < 0x80) (text : List Char) :
    byte char.toNat ∈ encode text ↔ char ∈ text := by
  rw [← mem_decodeLossy ascii, decode_encode]

theorem quote_mem_encode (text : List Char) : quote ∈ encode text ↔ '\x22' ∈ text :=
  mem_encode '\x22' (by decide) text

theorem newline_mem_encode (text : List Char) : newline ∈ encode text ↔ '\n' ∈ text :=
  mem_encode '\n' (by decide) text

theorem quoteChars_inside (text : List Char) :
    recordEnd true (encode (quoteChars text)) = none ∧
      quoteOpen true (encode (quoteChars text)) = true := by
  induction text with
  | nil => exact ⟨rfl, rfl⟩
  | cons char rest ih =>
    have cut : quoteChars (char :: rest) =
        (if char = '\x22' then [char, char] else [char]) ++ quoteChars rest := rfl
    have front : recordEnd true (encode (if char = '\x22' then [char, char] else [char])) =
          none ∧
        quoteOpen true (encode (if char = '\x22' then [char, char] else [char])) = true := by
      by_cases mark : char = '\x22'
      · rw [mark]
        decide
      · rw [if_neg mark]
        have unmarked : quote ∉ encode [char] := by
          rw [quote_mem_encode, mem_singleton]
          exact fun same => mark same.symm
        exact ⟨firstStop_inside _ unmarked, inside_of_not_mem true _ unmarked⟩
    rw [quoteOpen] at front
    rw [cut, encode_append, recordEnd, quoteOpen, firstStop_append_of_none front.1,
      inside_append, front.2, ← recordEnd, ← quoteOpen, ih.1, ih.2]
    exact ⟨rfl, rfl⟩

theorem needsQuotes_iff (text : List Char) :
    needsQuotes text = true ↔ ',' ∈ text ∨ '\x22' ∈ text ∨ '\n' ∈ text ∨ '\r' ∈ text := by
  rw [needsQuotes, any_eq_true]
  constructor
  · rintro ⟨char, member, special⟩
    rcases of_decide_eq_true special with rfl | rfl | rfl | rfl
    · exact .inl member
    · exact .inr (.inl member)
    · exact .inr (.inr (.inl member))
    · exact .inr (.inr (.inr member))
  · rintro (member | member | member | member)
    · exact ⟨_, member, by decide⟩
    · exact ⟨_, member, by decide⟩
    · exact ⟨_, member, by decide⟩
    · exact ⟨_, member, by decide⟩

theorem balanced_quoted (text : List Char) : Balanced (encode (quoted text)) := by
  by_cases special : needsQuotes text = true
  · have around : encode (quoted text) =
        quote :: (encode (quoteChars text) ++ [quote]) := by
      rw [quoted, if_pos special, encode_append]
      rfl
    obtain ⟨endless, opened⟩ := quoteChars_inside text
    rw [quoteOpen] at opened
    rw [around]
    constructor
    · rw [recordEnd, firstStop, if_pos rfl, Bool.not_false,
        firstStop_append_of_none endless]
      rfl
    · rw [quoteOpen, inside, if_pos rfl, Bool.not_false, inside_append, opened]
      rfl
  · rw [quoted, if_neg special]
    rw [needsQuotes_iff, not_or, not_or, not_or] at special
    apply balanced_plain
    · rw [quote_mem_encode]
      exact special.2.1
    · rw [newline_mem_encode]
      exact special.2.2.1

theorem balanced_csvCells (first : Bool) (cells : List String) :
    Balanced (encode (csvCells first cells)) := by
  induction cells generalizing first with
  | nil => exact ⟨rfl, rfl⟩
  | cons cell cells ih =>
    rw [csvCells, encode_append, encode_append]
    apply balanced_append
    · apply balanced_append
      · cases first
        · exact balanced_plain (by decide) (by decide)
        · exact ⟨rfl, rfl⟩
      · exact balanced_quoted cell.toList
    · exact ih false

theorem line_record (balanced : Balanced text) (more : List UInt8) :
    recordEnd false (text ++ lineEnd ++ more) = some (text.length + 1) ∧
      (text ++ lineEnd ++ more).take (text.length + 1) = text ++ [carriageReturn] ∧
      (text ++ lineEnd ++ more).drop (text.length + 1 + 1) = more := by
  have shape : text ++ lineEnd ++ more = text ++ [carriageReturn] ++ newline :: more := by
    rw [append_assoc, append_assoc]
    rfl
  have returned : Balanced (text ++ [carriageReturn]) :=
    balanced_append balanced (balanced_plain (by decide) (by decide))
  have length : (text ++ [carriageReturn]).length = text.length + 1 := length_append
  rw [shape]
  refine ⟨?_, ?_, ?_⟩
  · rw [recordEnd, firstStop_here returned.1 returned.2, length]
  · rw [take_left' length]
  · rw [drop_append, length, drop_eq_nil_of_le (by omega), Nat.add_sub_cancel_left]
    rfl

variable (lines : List (List String))

theorem quoteOpen_lines : quoteOpen false (lines.flatMap csvLine) = false := by
  induction lines with
  | nil => rfl
  | cons cells lines ih =>
    obtain ⟨ends, _, after⟩ :=
      line_record (balanced_csvCells true cells) (lines.flatMap csvLine)
    rw [flatMap_cons, csvLine, ← quoteOpen_after ends, after]
    exact ih

theorem rowsFrom_lines (parseDouble : String → Option UInt64) (columns : Columns) (line : Nat) :
    (rowsFrom parseDouble columns line (lines.flatMap csvLine)).length = lines.length := by
  induction lines generalizing line with
  | nil => rw [flatMap_nil, rowsFrom_nil, length_nil, length_nil]
  | cons cells lines ih =>
    obtain ⟨ends, taken, after⟩ :=
      line_record (balanced_csvCells true cells) (lines.flatMap csvLine)
    have read := readRecord_terminated ends
    have length := congrArg List.length taken
    have nonempty : encode (csvCells true cells) ++ lineEnd ++ lines.flatMap csvLine ≠ [] := by
      intro empty
      rw [empty] at ends
      cases ends
    rw [length_append, length_singleton] at length
    rw [flatMap_cons, csvLine, rowsFrom_read parseDouble columns line nonempty read, length,
      after, length_cons, length_cons, ih]

end Lines

section Header

variable {cells : List String}

theorem splitRecordFrom_prefix {quoted : Bool} {found : List String} {cell rest : List UInt8}
    (split : splitRecordFrom quoted cells cell rest = some found) :
    cells <+: found := by
  fun_induction splitRecordFrom quoted cells cell rest with
  | case1 => cases split
  | case2 quoted cells cell =>
    cases split
    exact prefix_append cells _
  | case6 => cases split
  | case9 cells cell rest _ ih =>
    exact (prefix_append cells _).trans (ih split)
  | case3 _ _ ih | case4 _ _ _ ih | case5 _ _ _ _ ih | case7 _ _ _ _ _ ih | case8 _ _ _ _ _ ih
  | case10 _ _ _ _ _ _ ih => exact ih split

theorem splitRecordFrom_head {cell rest : List UInt8} {found : List String} (begun : cell ≠ [])
    (split : splitRecordFrom false [] cell rest = some found) :
    found.head? = some (fromUtf8Lossy (cell ++ rest.takeWhile (· ≠ comma))) := by
  induction rest generalizing cell with
  | nil =>
    cases split
    rw [takeWhile_nil, append_nil]
    rfl
  | cons b rest ih =>
    rw [splitRecordFrom, if_neg fun both => begun both.2] at split
    split at split
    · rename_i separates
      obtain ⟨others, rfl⟩ := splitRecordFrom_prefix split
      rw [separates, takeWhile_cons_of_neg (by decide), append_nil]
      rfl
    · rename_i continues
      rw [takeWhile_cons_of_pos (by simpa using continues), ← singleton_append,
        ← append_assoc]
      exact ih (by simp) split

theorem comma_mem_encode (text : List Char) : comma ∈ encode text ↔ ',' ∈ text :=
  mem_encode ',' (by decide) text

theorem takeWhile_encode (text : List Char) :
    (encode text).takeWhile (· ≠ comma) = encode (text.takeWhile (· ≠ ',')) := by
  induction text with
  | nil => rfl
  | cons char rest ih =>
    have cut : encode (char :: rest) = encode [char] ++ encode rest :=
      encode_append [char] rest
    rw [cut]
    by_cases separates : char = ','
    · rw [separates]
      rfl
    · have free : ∀ b ∈ encode [char], decide (b ≠ comma) = true := by
        intro b member
        rw [decide_eq_true_iff]
        intro same
        rw [same, comma_mem_encode, mem_singleton] at member
        exact separates member.symm
      have kept : decide (char ≠ ',') = true := decide_eq_true separates
      rw [takeWhile_append_of_pos free, ih, ← encode_append, takeWhile_cons]
      simp only [kept]
      rfl

theorem headerCells_exported {names : List String}
    (split : headerCells (encode ('\ufeff' :: csvCells true names) ++
      [carriageReturn]) = some cells) :
    cells.head? =
      some (String.ofList ('\ufeff' :: (csvCells true names).takeWhile (· ≠ ','))) := by
  have stripped : stripReturn (encode ('\ufeff' :: csvCells true names) ++ [carriageReturn]) =
      0xEF :: ([0xBB, 0xBF] ++ encode (csvCells true names)) := by
    rw [stripReturn, if_pos getLast?_concat, dropLast_concat]
    rfl
  have joined : [0xEF] ++ ([0xBB, 0xBF] ++ encode (csvCells true names)).takeWhile (· ≠ comma) =
      (encode ('\ufeff' :: csvCells true names)).takeWhile (· ≠ comma) := rfl
  rw [headerCells, stripped, splitRecord, splitRecordFrom, if_neg (by decide)] at split
  rw [splitRecordFrom_head (by decide) split, nil_append, joined, takeWhile_encode,
    fromUtf8Lossy, decode_encode, takeWhile_cons_of_pos (by decide)]

theorem length_le_quoteChars (text : List Char) : text.length ≤ (quoteChars text).length := by
  induction text with
  | nil => exact Nat.le_refl _
  | cons char rest ih =>
    rw [quoteChars, flatMap_cons, length_append]
    change rest.length + 1 ≤ _ + (quoteChars rest).length
    have some_char : 1 ≤ (if char = '\x22' then [char, char] else [char]).length := by
      split <;> simp
    omega

theorem length_le_quoted (text : List Char) : text.length ≤ (quoted text).length := by
  rw [quoted]
  split
  · have marks := length_le_quoteChars text
    rw [length_append, length_cons]
    omega
  · exact Nat.le_refl _

theorem comma_mem_quoted {text : List Char} (plain : ',' ∉ text) : ',' ∉ quoted text := by
  rw [quoted]
  split
  · rw [cons_append, mem_cons, mem_append, not_or, not_or]
    refine ⟨by decide, ?_, by decide⟩
    rw [quoteChars, mem_flatMap]
    rintro ⟨char, member, here⟩
    split at here
    · rename_i mark
      rw [mark] at here
      exact absurd here (by decide)
    · rw [mem_singleton] at here
      exact plain (here ▸ member)
  · exact plain

theorem exported_names_differ {names : List String}
    (split : headerCells (encode ('\ufeff' :: csvCells true names) ++
      [carriageReturn]) = some cells) :
    cells ≠ names := by
  have head := headerCells_exported split
  intro same
  rw [same] at head
  cases names with
  | nil => cases head
  | cons name names =>
    have first := congrArg String.toList (Option.some.inj head)
    rw [String.toList_ofList, csvCells, if_pos rfl, nil_append] at first
    by_cases separated : ',' ∈ name.toList
    · rw [first, mem_cons] at separated
      rcases separated with mark | cut
      · exact absurd mark (by decide)
      · have other := mem_takeWhile_imp cut
        exact absurd other (by decide)
    · have free : ∀ char ∈ quoted name.toList, decide (char ≠ ',') = true := by
        intro char member
        rw [decide_eq_true_iff]
        intro comma_
        rw [comma_] at member
        exact comma_mem_quoted separated member
      rw [takeWhile_append_of_pos free] at first
      have lengths := congrArg List.length first
      have longer := length_le_quoted name.toList
      rw [length_cons, length_append] at lengths
      omega

end Header

section Export

variable (jsonText : Value → String)

variable (row : List (String × String))

theorem object_cells :
    ∃ fields, TextTable.object row = .object fields ∧ fields.map Prod.fst = row.map Prod.fst ∧
      fields.map (fun field => csvCell jsonText field.2) = row.map Prod.snd := by
  refine ⟨_, rfl, ?_, ?_⟩
  · rw [map_map]
    rfl
  · rw [map_map]
    rfl

theorem push_row (buf : List UInt8) :
    ((Encoder.csv true).push jsonText (TextTable.object row) buf).1 = .csv true ∧
      ((Encoder.csv true).push jsonText (TextTable.object row) buf).2.1 =
        buf ++ csvLine (row.map Prod.snd) := by
  obtain ⟨fields, object, _, cells⟩ := object_cells jsonText row
  rw [object, ← cells]
  refine ⟨rfl, ?_⟩
  change buf ++ [] ++ csvLine _ = _
  rw [append_nil]

theorem push_first :
    ((Encoder.csv false).push jsonText (TextTable.object row) []).1 = .csv true ∧
      ((Encoder.csv false).push jsonText (TextTable.object row) []).2.1 =
        byteOrderMark ++ csvLine (row.map Prod.fst) ++ csvLine (row.map Prod.snd) := by
  obtain ⟨fields, object, names, cells⟩ := object_cells jsonText row
  rw [object, ← cells, ← names]
  exact ⟨rfl, rfl⟩

theorem pushAll_cons (encoder : Encoder) (row : Value) (rows : List Value) (buf : List UInt8) :
    encoder.pushAll jsonText (row :: rows) buf =
      (encoder.push jsonText row buf).1.pushAll jsonText rows
        (encoder.push jsonText row buf).2.1 := rfl

theorem pushAll_rows (rows : List (List (String × String))) (buf : List UInt8) :
    (Encoder.csv true).pushAll jsonText (rows.map TextTable.object) buf =
      buf ++ (rows.map (·.map Prod.snd)).flatMap csvLine := by
  induction rows generalizing buf with
  | nil => exact (append_nil buf).symm
  | cons row rows ih =>
    obtain ⟨encoder, line⟩ := push_row jsonText row buf
    rw [map_cons, pushAll_cons, encoder, line, ih, map_cons, flatMap_cons,
      append_assoc]

theorem exported_eq (table : TextTable) :
    table.exported jsonText =
      encode ('\ufeff' :: csvCells true table.names) ++ lineEnd ++
        (table.rows.map (·.map Prod.snd)).flatMap csvLine := by
  obtain ⟨encoder, line⟩ := push_first jsonText table.first
  have header : encode ('\ufeff' :: csvCells true table.names) ++ lineEnd =
      byteOrderMark ++ csvLine (table.first.map Prod.fst) := rfl
  rw [TextTable.exported, TextTable.rows, map_cons, pushAll_cons, encoder, line,
    pushAll_rows, map_cons, flatMap_cons, header, append_assoc]

end Export

section RoundTrip

def rowValues : Item → Option (List Value)
  | .ok row => some row.values
  | .error _ => none

def TextTable.cells (table : TextTable) (row : List (String × String)) : List Value :=
  table.names.map fun name => .string ((row.lookup name).getD "")

/-- The exported bytes, opened with their header, give back the names and the strings. -/
def RoundTrip (parseDouble : String → Option UInt64) (jsonText : Value → String) (window : Nat)
    (data : TextTable) (key : String) (registry : SchemaRegistry) (table : String)
    (dialect : Dialect) (maxBytes : Nat) : Prop :=
  ∃ source items,
    CsvBlobSource.open window (data.exported jsonText) key true [] registry table dialect
      maxBytes = .ok source ∧
    source.columns.names = data.names ∧
    Yields (CsvBlobSource.nextRow window parseDouble) source items ∧
    items.map rowValues = data.rows.map fun row => some (data.cells row)

variable (parseDouble : String → Option UInt64)

theorem resumed_rows_differ (columns : Columns) {window stop : Nat} {src : List UInt8}
    {lines : List (List String)} (ends : recordEnd false src = some stop)
    (resumes : Resumes window stop src) (data : src.drop (stop + 1) = lines.flatMap csvLine)
    (line : Nat) {expected : List (List Value)} (length : expected.length = lines.length) :
    (rowsFrom parseDouble columns line (src.drop (window + 1))).map rowValues ≠
      expected.map some := by
  intro same
  have short := firstStop_lt ends
  have beyond := resumes.beyond
  by_cases mark : src[window]? = some quote
  · have flipped := resumes_flipped resumes ends mark
    rw [← quoteOpen_after ends, data, quoteOpen_lines] at flipped
    obtain ⟨badLine, raw, reported, _⟩ := rowsFrom_opened parseDouble columns line flipped
    have failed := mem_map_of_mem (f := rowValues) reported
    rw [same, mem_map] at failed
    obtain ⟨row, _, impossible⟩ := failed
    cases impossible
  · have read := resumes_record resumes ends mark
    have left : ((src.take stop).drop (window + 1)).length = stop - (window + 1) := by
      rw [length_drop, length_take, Nat.min_eq_left (by omega)]
    have nonempty : src.drop (window + 1) ≠ [] := by
      rw [Ne, drop_eq_nil_iff]
      omega
    have next : window + 1 + (stop - (window + 1) + 1) = stop + 1 := by omega
    have lengths := congrArg List.length same
    rw [rowsFrom_read parseDouble columns line nonempty read, left, drop_drop, next, data,
      length_map, length_cons, rowsFrom_lines, length_map] at lengths
    omega

theorem not_round_trip_within (jsonText : Value → String) {window : Nat} (positive : 1 ≤ window)
    (data : TextTable) (key : String) (registry : SchemaRegistry) (table : String)
    (dialect : Dialect) (maxBytes : Nat) :
    ¬RoundTrip parseDouble jsonText window data key registry table dialect maxBytes := by
  rintro ⟨source, items, opened, names, yields, values⟩
  have balanced : Balanced (encode ('\ufeff' :: csvCells true data.names)) :=
    balanced_append (balanced_plain (by decide) (by decide)) (balanced_csvCells true data.names)
  obtain ⟨ends, taken, after⟩ :=
    line_record balanced ((data.rows.map (·.map Prod.snd)).flatMap csvLine)
  rw [← exported_eq] at ends taken after
  obtain ⟨record, phys, found, _, read, named, guarded, shape⟩ := open_ok opened
  rcases Nat.lt_or_ge window ((encode ('\ufeff' :: csvCells true data.names)).length + 1)
    with beyond | within
  · obtain ⟨skipped, _, resumes⟩ := header_rows_beyond ends beyond read
    have rest : source.rest = (data.exported jsonText).drop (window + 1) := by
      rw [shape, openedSource_rest, if_pos rfl, skipped]
    have buffered : source.Buffered := by
      rw [shape]
      exact openedSource_buffered window _ true _ maxBytes record phys
    have rows := (yields_sound parseDouble positive yields buffered).2.2
    have lines : (data.rows.map data.cells).length =
        (data.rows.map (·.map Prod.snd)).length := by
      rw [length_map, length_map]
    apply resumed_rows_differ parseDouble source.columns ends resumes after source.line lines
    rw [← rest, ← rows, values, map_map]
    rfl
  · obtain ⟨whole, _⟩ := header_rows_within ends within read
    rw [whole, taken] at named
    have same := guardedColumns_names guarded
    rw [openingColumns, if_neg (by decide), if_pos rfl] at named
    split at named
    · rename_i cells split_
      cases named
      exact exported_names_differ split_ (same.symm.trans names)
    · cases named

/-- No table comes back: exported bytes begin with a mark that the import keeps. -/
theorem export_never_reads_back (parseDouble : String → Option UInt64)
    (jsonText : Value → String) (data : TextTable) (key : String) (registry : SchemaRegistry)
    (table : String) (dialect : Dialect) (maxBytes : Nat) :
    ¬RoundTrip parseDouble jsonText readWindow data key registry table dialect maxBytes :=
  not_round_trip_within parseDouble jsonText (by decide) data key registry table dialect maxBytes

def sampleTable : TextTable where
  first := [("a", "1")]
  more := []
  distinct := by decide
  common := fun _ member => nomatch member

/-- The import finds a column whose name begins with the mark. -/
theorem export_renames_column :
    (CsvBlobSource.open readWindow (sampleTable.exported fun _ => "") "k" true [] emptyRegistry
        "t" .sqlite 100).toOption.map (·.columns.names) = some ["\ufeffa"] ∧
      ¬RoundTrip (fun _ => none) (fun _ => "") readWindow sampleTable "k" emptyRegistry "t"
        .sqlite 100 := by
  have renamed : (CsvBlobSource.open readWindow (sampleTable.exported fun _ => "") "k" true []
      emptyRegistry "t" .sqlite 100).toOption.map (·.columns.names) = some ["\ufeffa"] := by
    decide +kernel
  refine ⟨renamed, ?_⟩
  rintro ⟨source, items, opened, names, _, _⟩
  rw [opened] at renamed
  have same : source.columns.names = ["\ufeffa"] := Option.some.inj renamed
  rw [same] at names
  exact absurd names (by decide)

end RoundTrip

end OnlyJs.Bridge.DbExport
