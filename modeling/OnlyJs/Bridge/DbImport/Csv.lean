import OnlyJs.Bridge.Registry
import OnlyJs.Bridge.Value
import OnlyJs.Lib.Decimal
import OnlyJs.Lib.Iteration
import OnlyJs.Lib.QuotedText
import OnlyJs.Lib.Utf8

/-!
# CSV records

Records of a byte text, their cells, and the rows of typed values made of them.
Both readers of CSV share this; `CsvParser` is the one over a text in memory.
Lines are counted from one in the source file, and a quoted line break counts.
-/

namespace OnlyJs.Bridge.DbImport

open Lib.Decimal Lib.Iteration Lib.Utf8

def quote : UInt8 := 0x22

def comma : UInt8 := 0x2C

def newline : UInt8 := 0x0A

def carriageReturn : UInt8 := 0x0D

def fromUtf8Lossy (bytes : List UInt8) : String := String.ofList (decodeLossy bytes)

structure ParsedRow where
  values : List Value
  line : Nat

inductive ParseError where
  | bad (line : Nat) (reason raw : String)
deriving DecidableEq

structure Columns where
  names : List String
  types : List ColumnType
  aligned : names.length = types.length

section Records

def keep (b : UInt8) : Option (List UInt8 × Nat) → Option (List UInt8 × Nat) :=
  Option.map fun (record, phys) => (b :: record, phys)

/-- One pass over the bytes of a record; a doubled quotation mark inside a
quotation is skipped whole. The line break that ends the record is left out. -/
def readRecordFrom : Bool → Nat → List UInt8 → Option (List UInt8 × Nat)
  | quoted, phys, [] => if quoted then none else some ([], phys)
  | true, phys, b :: rest =>
    if b = quote then
      match rest with
      | [] => keep b (readRecordFrom false phys [])
      | next :: later =>
        if next = quote then keep b (keep next (readRecordFrom true phys later))
        else keep b (readRecordFrom false phys (next :: later))
    else if b = newline then keep b (readRecordFrom true (phys + 1) rest)
    else keep b (readRecordFrom true phys rest)
  | false, phys, b :: rest =>
    if b = quote then keep b (readRecordFrom true phys rest)
    else if b = newline then some ([], phys)
    else keep b (readRecordFrom false phys rest)

/-- The record at the start of `src` and the number of its lines; `none` when a
quotation is open at the end of the text. -/
def readRecord (src : List UInt8) : Option (List UInt8 × Nat) := readRecordFrom false 1 src

def stripReturn (record : List UInt8) : List UInt8 :=
  if record.getLast? = some carriageReturn then record.dropLast else record

/-- `quoted` is the state inside a quoted cell. What follows its closing mark must
be a comma or the end. -/
def splitRecordFrom : Bool → List String → List UInt8 → List UInt8 → Option (List String)
  | quoted, cells, cell, [] => if quoted then none else some (cells ++ [fromUtf8Lossy cell])
  | true, cells, cell, b :: rest =>
    if b = quote then
      match rest with
      | [] => splitRecordFrom false cells cell []
      | next :: later =>
        if next = quote then splitRecordFrom true cells (cell ++ [quote]) later
        else if next = comma then splitRecordFrom false cells cell (next :: later)
        else none
    else splitRecordFrom true cells (cell ++ [b]) rest
  | false, cells, cell, b :: rest =>
    if b = quote ∧ cell = [] then splitRecordFrom true cells cell rest
    else if b = comma then splitRecordFrom false (cells ++ [fromUtf8Lossy cell]) [] rest
    else splitRecordFrom false cells (cell ++ [b]) rest

def splitRecord (record : List UInt8) : Option (List String) :=
  splitRecordFrom false [] [] record

def headerCells (record : List UInt8) : Option (List String) := splitRecord (stripReturn record)

end Records

section Rows

def ofDouble (bits : UInt64) : Value :=
  if bits.toNat / 2 ^ 52 % 2 ^ 11 = 2 ^ 11 - 1 then .null else .double bits

variable (parseDouble : String → Option UInt64)

def coerce (value : String) : ColumnType → Except String Value
  | .integer | .bigInt =>
    match parseInt64 value.toList with
    | some number => .ok (.int number)
    | none => .error s!"invalid integer '{value}'"
  | .double =>
    match parseDouble value with
    | some bits => .ok (ofDouble bits)
    | none => .error s!"invalid double '{value}'"
  | .boolean =>
    if value = "true" ∨ value = "1" then .ok (.bool true)
    else if value = "false" ∨ value = "0" then .ok (.bool false)
    else .error s!"invalid boolean '{value}'"
  | .text | .unknown | .blob => .ok (.string value)

def coerceCells (line : Nat) : List String → List (String × ColumnType) →
    Except ParseError (List Value)
  | cell :: cells, (column, ty) :: columns =>
    match coerce parseDouble cell ty with
    | .ok value => (coerceCells line cells columns).map (value :: ·)
    | .error reason => .error (.bad line s!"column '{column}': {reason}" cell)
  | _, _ => .ok []

def rowFromRecord (record : List UInt8) (startLine : Nat) (columns : Columns) :
    Except ParseError ParsedRow :=
  let record := stripReturn record
  match splitRecord record with
  | none => .error (.bad startLine "unterminated quoted field" (fromUtf8Lossy record))
  | some cells =>
    if cells.length ≠ columns.names.length then
      .error (.bad startLine
        s!"expected {columns.names.length} columns, got {cells.length}" (fromUtf8Lossy record))
    else
      (coerceCells parseDouble startLine cells (columns.names.zip columns.types)).map
        fun values => ⟨values, startLine⟩

end Rows

section Parser

structure CsvParser where
  src : List UInt8
  pos : Nat
  line : Nat
  columns : Columns
  done : Bool

def CsvParser.new (src : List UInt8) (columns : Columns) (header : Bool) :
    Except String CsvParser :=
  let parser : CsvParser :=
    { src := src, pos := 0, line := 1, columns := columns, done := src.isEmpty }
  if header && !parser.done then
    match readRecord (src.drop parser.pos) with
    | none => .error "db import: unterminated quoted field in header at line 1"
    | some (record, phys) =>
      let record := stripReturn record
      match splitRecord record with
      | none => .error "db import: unterminated quoted field in header at line 1"
      | some cells =>
        if cells ≠ columns.names then
          let got := ",".intercalate cells
          let want := ",".intercalate columns.names
          .error (s!"db import: csv header mismatch at line 1: got [{got}] "
            ++ s!"but registered columns are [{want}]")
        else
          .ok { parser with
            pos := parser.pos + record.length + 1
            line := parser.line + phys }
  else .ok parser

def CsvParser.next (parseDouble : String → Option UInt64) (parser : CsvParser) :
    Turn CsvParser (Except ParseError ParsedRow) :=
  if parser.done || parser.src.length ≤ parser.pos then .finished
  else
    match readRecord (parser.src.drop parser.pos) with
    | none =>
      .item
        (.error (.bad parser.line "unterminated quoted field"
          (fromUtf8Lossy (parser.src.drop parser.pos))))
        { parser with done := true }
    | some (record, phys) =>
      .item (rowFromRecord parseDouble record parser.line parser.columns)
        { parser with pos := parser.pos + record.length + 1, line := parser.line + phys }

end Parser

end OnlyJs.Bridge.DbImport
