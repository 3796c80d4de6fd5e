import OnlyJs.Bridge.DbImport.Csv
import OnlyJs.Lib.FiniteMap

/-!
# The consumer of an import

Rows are collected in batches and inserted, a batch at a time in one statement or,
when errors are skipped, a row at a time. Batches are committed each on its own,
or all of them in one transaction: on SQLite, and whenever the table is replaced.

The database answers every call as it likes; the history of its transactions is
kept beside the counters of the consumer, with the rows of every statement that it
accepted or refused.
-/

namespace OnlyJs.Bridge.DbImport

open Finmap Lib.FiniteMap

inductive ImportState where
  | running
  | done
  | failed
  | cancelled
deriving DecidableEq

structure ImportSample where
  line : Nat
  reason : String
  raw : Option String
deriving DecidableEq

def maxSamples : Nat := 20

structure ImportEntry where
  state : ImportState
  rows : Nat
  bytes : Nat
  samples : List ImportSample
  errorCount : Nat
  startedAtMs : Nat
  finishedAtMs : Option Nat
  error : Option String
deriving DecidableEq

def ImportEntry.started (now : Nat) : ImportEntry where
  state := .running
  rows := 0
  bytes := 0
  samples := []
  errorCount := 0
  startedAtMs := now
  finishedAtMs := none
  error := none

/-- What the consumer of a task submits when it ends. -/
inductive ImportFinish where
  | done (rows bytes : Nat)
  | failed (rows bytes : Nat) (error : String)
  | cancelled (rows bytes : Nat)
deriving DecidableEq

def ImportFinish.rows : ImportFinish → Nat
  | done rows _ => rows
  | failed rows _ _ => rows
  | cancelled rows _ => rows

def ImportEntry.settled (entry : ImportEntry) (now : Nat) : ImportFinish → ImportEntry
  | .done rows bytes =>
    { entry with finishedAtMs := some now, state := .done, rows := rows, bytes := bytes }
  | .failed rows bytes error =>
    { entry with
      finishedAtMs := some now
      state := .failed
      rows := rows
      bytes := bytes
      error := some error }
  | .cancelled rows bytes =>
    { entry with finishedAtMs := some now, state := .cancelled, rows := rows, bytes := bytes }

structure ImportRegistry where
  inner : Finmap fun _ : String => ImportEntry

def ImportRegistry.whileRunning (registry : ImportRegistry) (id : String)
    (change : ImportEntry → ImportEntry) : ImportRegistry :=
  match registry.inner.lookup id with
  | none => registry
  | some entry =>
    if entry.state = .running then { inner := registry.inner.insert id (change entry) }
    else registry

def progress (registry : ImportRegistry) (id : String) (rows bytes : Nat) : ImportRegistry :=
  registry.whileRunning id fun entry => { entry with rows, bytes }

def pushSample (registry : ImportRegistry) (id : String) (sample : ImportSample) :
    ImportRegistry :=
  registry.whileRunning id fun entry =>
    { entry with
      errorCount := entry.errorCount + 1
      samples :=
        if entry.samples.length < maxSamples then entry.samples ++ [sample] else entry.samples }

def finish (registry : ImportRegistry) (id : String) (fin : ImportFinish) (now : Nat) :
    ImportRegistry :=
  registry.whileRunning id fun entry => entry.settled now fin

inductive Statement where
  | delete
  | insert (first : ParsedRow) (others : List ParsedRow) (merged : Nat)
  | refused (first : ParsedRow) (others : List ParsedRow)

structure Transaction where
  statements : List Statement
  committed : Bool

structure History where
  past : List Transaction
  current : List Statement

structure World where
  cancelled : Nat → Bool
  rendersDelete : Except String Unit
  renders : List ParsedRow → Except String Unit
  begins : History → Except String Unit
  deletes : History → Except String Unit
  inserts : History → List ParsedRow → Except String Nat
  commits : History → Except String Unit

inductive SourceItem where
  | row (parsed : ParsedRow)
  | bad (error : ParseError)
  | io (error : String)

/-- The items still to be read, each with the number of bytes read once it is, and the
number of bytes at the end. -/
structure RowSource where
  bytes : Nat
  items : List (SourceItem × Nat)
  endBytes : Nat

inductive Mode where
  | append
  | upsert (conflictKeys : List String)
  | replace
deriving DecidableEq

structure ImportTask where
  dialect : Dialect
  mode : Mode
  ncols : Nat
  batchSize : Nat
  batched : 100 ≤ batchSize ∧ batchSize ≤ 50000
  skip : Bool
  maxErrors : Nat
  maxBytes : Nat

def batchRows (dialect : Dialect) (batchSize ncols : Nat) : Nat :=
  let maxVars := if dialect = .sqlite then 32766 else 65535
  min batchSize (max (maxVars / max ncols 1) 1)

def ImportTask.singleTx (task : ImportTask) : Bool :=
  task.dialect = .sqlite || task.mode = .replace

/-- What the consumer has so far; `unparsable` lists the lines of the rows that could
not be parsed. -/
structure ImportRun where
  source : RowSource
  registry : ImportRegistry
  errors : Nat
  committed : Nat
  history : History
  unparsable : List Nat

inductive ImportEnd where
  | done
  | failed (error : String)
  | cancelled
deriving DecidableEq

def maxErrorsExceeded (maxErrors : Nat) : String :=
  s!"db import: errors exceed maxErrors ({maxErrors})"

section Consume

variable (jsonText : Value → String) (task : ImportTask) (world : World) (id : String)

def ImportRun.sampled (run : ImportRun) (sample : ImportSample) : ImportRun :=
  { run with
    registry := pushSample run.registry id sample
    errors := run.errors + 1 }

def ImportRun.stated (run : ImportRun) (statement : Statement) : ImportRun :=
  { run with
    history := { run.history with current := run.history.current ++ [statement] } }

def ImportRun.ended (run : ImportRun) (committed : Bool) : ImportRun :=
  { run with
    history :=
      { past := run.history.past ++ [{ statements := run.history.current, committed }]
        current := [] } }

/-- Up to `limit` rows, and whether the source has ended. -/
def collectBatch (limit : Nat) (endBytes : Nat) :
    List (SourceItem × Nat) → List ParsedRow → ImportRun →
      ImportRun × Except String (List ParsedRow × Bool)
  | [], batch, run =>
    if batch.length < limit then
      ({ run with source := { bytes := endBytes, items := [], endBytes } }, .ok (batch, true))
    else ({ run with source := { run.source with items := [] } }, .ok (batch, false))
  | (item, bytes) :: rest, batch, run =>
    if batch.length < limit then
      let run := { run with source := { bytes, items := rest, endBytes } }
      match item with
      | .row parsed => collectBatch limit endBytes rest (batch ++ [parsed]) run
      | .io error => (run, .error error)
      | .bad (.bad line reason raw) =>
        let run :=
          { run.sampled id { line, reason, raw := some raw } with
            unparsable := run.unparsable ++ [line] }
        if ¬ task.skip then (run, .error s!"db import: row {line}: {reason}")
        else if task.maxErrors < run.errors then (run, .error (maxErrorsExceeded task.maxErrors))
        else collectBatch limit endBytes rest batch run
    else ({ run with source := { run.source with items := (item, bytes) :: rest } },
      .ok (batch, false))

def insertEach : List ParsedRow → ImportRun → ImportRun × Except String Unit
  | [], run => (run, .ok ())
  | row :: rest, run =>
    match world.renders [row] with
    | .error error => (run, .error error)
    | .ok () =>
      match world.inserts run.history [row] with
      | .ok merged => insertEach rest (run.stated (.insert row [] merged))
      | .error error =>
        let sample :=
          { line := row.line
            reason := s!"insert failed: {error}"
            raw := some (jsonText (.array row.values)) }
        let run := (run.stated (.refused row [])).sampled id sample
        if task.maxErrors < run.errors then (run, .error (maxErrorsExceeded task.maxErrors))
        else insertEach rest run

def insertAll (first : ParsedRow) (others : List ParsedRow) (run : ImportRun) :
    ImportRun × Except String Unit :=
  match world.renders (first :: others) with
  | .error error => (run, .error error)
  | .ok () =>
    match world.inserts run.history (first :: others) with
    | .ok merged => (run.stated (.insert first others merged), .ok ())
    | .error error => (run.stated (.refused first others), .error error)

def execRows (first : ParsedRow) (others : List ParsedRow) (run : ImportRun) :
    ImportRun × Except String Unit :=
  if task.skip then insertEach jsonText task world id (first :: others) run
  else insertAll world first others run

def writeBatch (first : ParsedRow) (others : List ParsedRow) (run : ImportRun) :
    ImportRun × Except String Unit :=
  if task.singleTx then execRows jsonText task world id first others run
  else
    match world.begins run.history with
    | .error error => (run, .error s!"begin failed: {error}")
    | .ok () =>
      match execRows jsonText task world id first others run with
      | (run, .error error) => (run.ended false, .error error)
      | (run, .ok ()) =>
        match world.commits run.history with
        | .error error => (run.ended false, .error s!"commit failed: {error}")
        | .ok () => (run.ended true, .ok ())

/-- The loop over the batches, `none` when the fuel runs out. -/
def importLoop : Nat → Nat → ImportRun → Option (ImportRun × ImportEnd)
  | 0, _, _ => none
  | fuel + 1, turn, run =>
    if world.cancelled turn then some (run, .cancelled)
    else if task.maxBytes < run.source.bytes then
      some (run, .failed s!"db import: source exceeds db_import.max_bytes ({task.maxBytes})")
    else
      match collectBatch task id (batchRows task.dialect task.batchSize task.ncols)
          run.source.endBytes run.source.items [] run with
      | (run, .error error) => some (run, .failed error)
      | (run, .ok ([], _)) => some (run, .done)
      | (run, .ok (first :: others, done)) =>
        match writeBatch jsonText task world id first others run with
        | (run, .error error) => some (run, .failed error)
        | (run, .ok ()) =>
          let committed := run.committed + (others.length + 1)
          let run :=
            { run with
              committed
              registry := progress run.registry id committed run.source.bytes }
          if done then some (run, .done) else importLoop fuel (turn + 1) run

def openSingle (run : ImportRun) : ImportRun × Bool × Option ImportEnd :=
  match world.begins run.history with
  | .error error => (run, false, some (.failed s!"begin failed: {error}"))
  | .ok () =>
    if task.mode = .replace then
      match world.rendersDelete with
      | .error error => (run, true, some (.failed error))
      | .ok () =>
        match world.deletes run.history with
        | .error error => (run, true, some (.failed s!"replace delete failed: {error}"))
        | .ok () => (run.stated .delete, true, none)
    else (run, true, none)

def closeRun (held : Bool) (run : ImportRun) : ImportEnd → ImportRun × ImportFinish
  | .done =>
    if held then
      match world.commits run.history with
      | .error error =>
        (run.ended false, .failed 0 run.source.bytes s!"commit failed: {error}")
      | .ok () => (run.ended true, .done run.committed run.source.bytes)
    else (run, .done run.committed run.source.bytes)
  | .cancelled =>
    (if held then run.ended false else run,
      .cancelled (if task.singleTx then 0 else run.committed) run.source.bytes)
  | .failed error =>
    (if held then run.ended false else run,
      .failed (if task.singleTx then 0 else run.committed) run.source.bytes error)

def ImportRun.start (others : ImportRegistry) (source : RowSource) (startedAt : Nat) :
    ImportRun where
  source := source
  registry := { inner := others.inner.insert id (.started startedAt) }
  errors := 0
  committed := 0
  history := { past := [], current := [] }
  unparsable := []

structure ImportOutcome where
  registry : ImportRegistry
  fin : ImportFinish
  past : List Transaction
  unparsable : List Nat

/-- A whole import, from its registration on; each turn but the last takes an item
from the source. -/
def runImport (others : ImportRegistry) (source : RowSource) (startedAt now : Nat) :
    Option ImportOutcome :=
  let run := ImportRun.start id others source startedAt
  let (run, held, opened) :=
    if task.singleTx then openSingle task world run else (run, false, none)
  let looped :=
    match opened with
    | some ended => some (run, ended)
    | none => importLoop jsonText task world id (source.items.length + 1) 0 run
  looped.map fun (run, ended) =>
    let (run, fin) := closeRun task world held run ended
    { registry := finish run.registry id fin now
      fin
      past := run.history.past
      unparsable := run.unparsable }

end Consume

end OnlyJs.Bridge.DbImport
