import OnlyJs.Bridge.Value
import OnlyJs.Lib.Utf8

/-!
# The encoders of an export

Rows are appended to a buffer one after another. The CSV encoder writes a byte order
mark and the column names before the first row, quotes a cell that needs it, and ends
every line with a carriage return and a line feed.
-/

namespace OnlyJs.Bridge.DbExport

open Lib.Utf8

inductive Encoder where
  | csv (headerDone : Bool)
  | jsonl
deriving DecidableEq

def byteOrderMark : List UInt8 := [0xEF, 0xBB, 0xBF]

def lineEnd : List UInt8 := [0x0D, 0x0A]

section Cells

variable (jsonText : Value → String)

def csvCell : Value → String
  | .null => ""
  | .string text => text
  | other => jsonText other

def needsQuotes (text : List Char) : Bool :=
  text.any fun char => char = ',' ∨ char = '\x22' ∨ char = '\n' ∨ char = '\r'

def quoteChars (text : List Char) : List Char :=
  text.flatMap fun char => if char = '\x22' then [char, char] else [char]

def quoted (text : List Char) : List Char :=
  if needsQuotes text then '\x22' :: quoteChars text ++ ['\x22'] else text

def csvCells (first : Bool) : List String → List Char
  | [] => []
  | cell :: cells => (if first then [] else [',']) ++ quoted cell.toList ++ csvCells false cells

def csvLine (cells : List String) : List UInt8 := encode (csvCells true cells) ++ lineEnd

def asObject : Value → Option (List (String × Value))
  | .object fields => some fields
  | _ => none

/-- Appends a row, and returns the number of bytes that it took. -/
def Encoder.push (encoder : Encoder) (row : Value) (buf : List UInt8) :
    Encoder × List UInt8 × Nat :=
  match encoder with
  | .csv headerDone =>
    let header :=
      if headerDone then []
      else
        byteOrderMark ++
          match asObject row with
          | some fields => csvLine (fields.map Prod.fst)
          | none => []
    let line :=
      match asObject row with
      | some fields => csvLine (fields.map fun field => csvCell jsonText field.2)
      | none => lineEnd
    let next := buf ++ header ++ line
    (.csv true, next, next.length - buf.length)
  | .jsonl =>
    let next := buf ++ encode (jsonText row).toList ++ [0x0A]
    (.jsonl, next, next.length - buf.length)

def Encoder.pushAll (encoder : Encoder) (rows : List Value) (buf : List UInt8) : List UInt8 :=
  (rows.foldl
    (fun (state : Encoder × List UInt8) row =>
      let (encoder, buf, _) := state.1.push jsonText row state.2
      (encoder, buf))
    (encoder, buf)).2

end Cells

end OnlyJs.Bridge.DbExport
