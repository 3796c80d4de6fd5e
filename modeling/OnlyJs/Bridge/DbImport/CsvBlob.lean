import OnlyJs.Bridge.DbImport.Records

/-!
# The streaming CSV source

The source reads a blob window by window into a buffer and hands out rows from it.
It keeps the bytes behind its position until the position passes the size of a
window. One turn of the loop of `nextRow` is one turn of the reader; removing more
bytes than the buffer holds, or slicing past its end, is a panic.
-/

namespace OnlyJs.Bridge.DbImport

open Lib.Iteration Lib.QuotedText

def readWindow : Nat := 1024 * 1024

section Opening

def columnTypes (table : TableDef) (dialect : Dialect) : List String →
    Except String (List ColumnType)
  | [] => .ok []
  | column :: columns =>
    match table.columns.lookup column with
    | some definition =>
      (columnTypes table dialect columns).map (definition.ty :: ·)
    | none =>
      if dialect = .sqlite ∧ column = "rowid" then
        (columnTypes table dialect columns).map (.integer :: ·)
      else .error s!"unknown column '{column}' in import columns"

def columnsGuard (columns : List String) (registry : SchemaRegistry) (table : String)
    (dialect : Dialect) : Except String (List ColumnType) :=
  match registry.get table with
  | some definition => columnTypes definition dialect columns
  | none => .ok (List.replicate columns.length .unknown)

variable {columns : List String} {types : List ColumnType}

theorem columnTypes_length {table : TableDef} {dialect : Dialect}
    (found : columnTypes table dialect columns = .ok types) :
    columns.length = types.length := by
  induction columns generalizing types with
  | nil =>
    cases found
    rfl
  | cons column columns ih =>
    rw [columnTypes] at found
    have extended : ∀ ty, (columnTypes table dialect columns).map (ty :: ·) = .ok types →
        (column :: columns).length = types.length := by
      intro ty mapped
      cases later : columnTypes table dialect columns with
      | error message =>
        rw [later] at mapped
        cases mapped
      | ok rest =>
        rw [later] at mapped
        cases mapped
        rw [List.length_cons, List.length_cons, ih later]
    split at found
    · exact extended _ found
    · split at found
      · exact extended _ found
      · cases found

theorem columnsGuard_length {registry : SchemaRegistry} {table : String} {dialect : Dialect}
    (found : columnsGuard columns registry table dialect = .ok types) :
    columns.length = types.length := by
  unfold columnsGuard at found
  split at found
  · exact columnTypes_length found
  · cases found
    rw [List.length_replicate]

def guardedColumns (names : List String) (registry : SchemaRegistry) (table : String)
    (dialect : Dialect) : Except String Columns :=
  match found : columnsGuard names registry table dialect with
  | .ok types => .ok ⟨names, types, columnsGuard_length found⟩
  | .error message => .error message

structure CsvBlobSource where
  blob : List UInt8
  offset : Nat
  buf : List UInt8
  pos : Nat
  line : Nat
  eof : Bool
  bytesRead : Nat
  maxBytes : Nat
  columns : Columns

def readRange (blob : List UInt8) (offset len : Nat) : List UInt8 := (blob.drop offset).take len

def safePart (window : List UInt8) : List UInt8 :=
  match lastStop newline window with
  | some i => window.take (i + 1)
  | none => window

def openingRecord (window : List UInt8) (key : String) : Except String (List UInt8 × Nat) :=
  if window.isEmpty then .error s!"db import: blob source '{key}' is empty"
  else
    match readRecord (safePart window) with
    | some reading => .ok reading
    | none => .error "db import: unterminated quoted field near line 1"

def openingColumns (argsColumns : List String) (header : Bool) (record : List UInt8) :
    Except String (List String) :=
  if !argsColumns.isEmpty then .ok argsColumns
  else if header then
    match headerCells record with
    | some cells => .ok cells
    | none => .error "db import: malformed csv header at line 1"
  else .error "db import: columns are required for csv with header=false"

def CsvBlobSource.open (window : Nat) (blob : List UInt8) (key : String) (header : Bool)
    (argsColumns : List String) (registry : SchemaRegistry) (table : String)
    (dialect : Dialect) (maxBytes : Nat) : Except String CsvBlobSource := do
  let w := readRange blob 0 window
  let (record, phys) ← openingRecord w key
  let names ← openingColumns argsColumns header record
  let columns ← guardedColumns names registry table dialect
  return {
    blob := blob
    offset := w.length
    buf := w
    pos := if header then record.length + 1 else 0
    line := if header then 1 + phys else 1
    eof := false
    bytesRead := w.length
    maxBytes := maxBytes
    columns := columns }

end Opening

section Reading

def CsvBlobSource.hasRecord (source : CsvBlobSource) : Bool :=
  source.eof || (source.buf.drop source.pos).contains newline

/-- Reads the next window. The limit on the bytes read is enforced here only. -/
def CsvBlobSource.fill (window : Nat) (source : CsvBlobSource) : Except String CsvBlobSource :=
  if source.eof then .ok source
  else
    let w := readRange source.blob source.offset window
    let source := { source with
      offset := source.offset + w.length
      bytesRead := source.bytesRead + w.length }
    if source.maxBytes < source.bytesRead then
      .error s!"db import: source exceeds db_import.max_bytes ({source.maxBytes})"
    else if w.isEmpty then .ok { source with eof := true }
    else .ok { source with buf := source.buf ++ w }

def CsvBlobSource.refill (window : Nat) (source : CsvBlobSource) : Turn CsvBlobSource Item :=
  match source.fill window with
  | .ok filled => .again filled
  | .error message => .failed message

def CsvBlobSource.safeEnd (source : CsvBlobSource) : Nat :=
  if source.eof then source.buf.length
  else
    source.pos +
      match lastStop newline (source.buf.drop source.pos) with
      | some i => i + 1
      | none => source.buf.length

/-- Past a record. The bytes before the position go once it is beyond a window. -/
def CsvBlobSource.advance (window : Nat) (source : CsvBlobSource) (row : Item)
    (record : List UInt8) (phys : Nat) : Turn CsvBlobSource Item :=
  let pos := source.pos + record.length + 1
  let line := source.line + phys
  if window < pos then
    if source.buf.length < pos then .panicked
    else .item row { source with buf := source.buf.drop pos, pos := 0, line := line }
  else .item row { source with pos := pos, line := line }

def CsvBlobSource.nextRow (window : Nat) (parseDouble : String → Option UInt64)
    (source : CsvBlobSource) : Turn CsvBlobSource Item :=
  if source.buf.length ≤ source.pos then
    if source.eof then .finished
    else
      match source.fill window with
      | .ok filled =>
        if filled.buf.length ≤ filled.pos ∧ filled.eof = true then .finished else .again filled
      | .error message => .failed message
  else if !source.hasRecord then source.refill window
  else if source.buf.length < source.safeEnd then .panicked
  else
    match readRecord ((source.buf.take source.safeEnd).drop source.pos) with
    | some (record, phys) =>
      source.advance window (rowFromRecord parseDouble record source.line source.columns)
        record phys
    | none =>
      if source.eof then
        .item
          (.error (.bad source.line "unterminated quoted field"
            (fromUtf8Lossy (source.buf.drop source.pos))))
          { source with pos := source.buf.length }
      else source.refill window

end Reading

end OnlyJs.Bridge.DbImport
