import OnlyJs.Bridge.DbExport.Encoder
import OnlyJs.Bridge.DbExport.Registry

/-!
# The consumer of an export

The consumer pulls rows into one buffer until the stream ends, a row cap or the
byte limit is reached, the stream fails or the task is cancelled. Then it stores
the buffer through the upload that was opened, or in one piece when the backend
opened none, and submits how the task ended.
-/

namespace OnlyJs.Bridge.DbExport

/-- The type and the payload of a cell in the reserved encoding `$<type>:<payload>`. -/
def decodeCell (text : List Char) : Option (List Char × List Char) :=
  match text with
  | '$' :: rest =>
    let ty := rest.takeWhile (· ≠ ':')
    match rest.dropWhile (· ≠ ':') with
    | [] => none
    | _ :: payload =>
      if ty.isEmpty || !ty.all typeOk then none else some (ty, payload)
  | _ => none
where
  typeOk (char : Char) : Bool := char.isLower || char.isDigit || char == '_'

def addDegraded (known found : List Degraded) : List Degraded :=
  found.foldl (fun known item => if known.contains item then known else known ++ [item]) known

def degradedCell : String × Value → Option Degraded
  | (col, .string text) =>
    (decodeCell text.toList).map fun cell => { col, ty := String.ofList cell.1 }
  | _ => none

def degradedOf (row : Value) : List Degraded :=
  match asObject row with
  | none => []
  | some fields => addDegraded [] (fields.filterMap degradedCell)

structure ExportTask where
  encoder : Encoder
  rowCap : Option Nat
  maxBytes : Nat
  fallbackCap : Nat
  blobKey : String

/-- What the consumer has so far. -/
structure Pump where
  encoder : Encoder
  buf : List UInt8
  rows : Nat
  bytes : Nat
  degraded : List Degraded

def Pump.start (encoder : Encoder) : Pump where
  encoder := encoder
  buf := []
  rows := 0
  bytes := 0
  degraded := []

inductive End where
  | natural
  | cancelled
  | maxBytes
  | maxRows
  | streamErr (error : String)
deriving DecidableEq

/-- How the backend answers: whether it opens an upload, takes the chunk, finishes
the upload, and stores a buffer in one piece. After a chunk that failed the upload
holds some bytes, and a call that fails to store may leave some under the key. -/
structure BlobBehaviour where
  opens : Bool
  chunk : Except (List UInt8) Unit
  finishes : Bool
  puts : Bool
  leftover : Option (List UInt8)

section Consume

variable (jsonText : Value → String)

def Pump.push (pump : Pump) (row : Value) : Pump :=
  let (encoder, buf, written) := pump.encoder.push jsonText row pump.buf
  { encoder
    buf
    rows := pump.rows + 1
    bytes := pump.bytes + written
    degraded := addDegraded pump.degraded (degradedOf row) }

/-- The loop of the consumer. `cancelAt` is the number of rows after which the
cancellation wins the race against the stream, if it ever does. -/
def drain (task : ExportTask) (cancelAt : Option Nat) (pump : Pump) :
    List (Except String Value) → Pump × End
  | [] => (pump, if cancelAt = some pump.rows then .cancelled else .natural)
  | item :: rest =>
    if cancelAt = some pump.rows then (pump, .cancelled)
    else
      match item with
      | .error error => (pump, .streamErr error)
      | .ok row =>
        if task.rowCap.any (· ≤ pump.rows) then (pump, .maxRows)
        else
          let next := pump.push jsonText row
          if task.maxBytes < next.bytes then (next, .maxBytes)
          else drain task cancelAt next rest

def commit (task : ExportTask) (blob : BlobBehaviour) (buf : List UInt8) :
    Bool × Option (List UInt8) :=
  if blob.opens then
    let held :=
      if buf.isEmpty then []
      else
        match blob.chunk with
        | .ok () => buf
        | .error kept => kept
    if blob.finishes then (true, some held) else (false, blob.leftover)
  else if task.fallbackCap < buf.length then (false, none)
  else if blob.puts then (true, some buf)
  else (false, blob.leftover)

def settleEnd (task : ExportTask) (blob : BlobBehaviour) (pump : Pump) (truncated : Bool) :
    Finish × Option (List UInt8) :=
  let (stored, object) := commit task blob pump.buf
  if stored then
    (.done pump.rows pump.bytes truncated (if truncated then some "max_rows" else none)
      task.blobKey pump.degraded, object)
  else
    (.failed pump.rows pump.bytes "blob write failed (export artifact not persisted)", object)

/-- What the consumer submits for each end, and the object that it leaves under the
key of the task. An upload is aborted unless the rows are to be stored. -/
def settle (task : ExportTask) (blob : BlobBehaviour) (pump : Pump) :
    End → Finish × Option (List UInt8)
  | .natural => settleEnd task blob pump false
  | .maxRows => settleEnd task blob pump true
  | .cancelled => (.cancelled pump.rows pump.bytes, none)
  | .maxBytes =>
    (.failed pump.rows pump.bytes s!"export exceeded maxBytes ({task.maxBytes})", none)
  | .streamErr error => (.failed pump.rows pump.bytes s!"stream error: {error}", none)

def consume (task : ExportTask) (blob : BlobBehaviour) (cancelAt : Option Nat)
    (stream : List (Except String Value)) : Finish × Option (List UInt8) :=
  let (pump, ended) := drain jsonText task cancelAt (.start task.encoder) stream
  settle task blob pump ended

end Consume

end OnlyJs.Bridge.DbExport
