import OnlyJs.Lib.Association
import OnlyJs.Lib.Utf8
import OnlyJs.Serve.Upload

/-!
# Two readers of a multipart body

A form is read in one of two ways: part by part, with large files carried over to the blob
store, or from a body that is already in memory. Both see the same parts with the same
chunks, and the same errors of the underlying reader.
-/

namespace OnlyJs.Serve.Multipart

open Lib
open Serve.Upload (Limits)

inductive ReaderError where
  | fieldSizeExceeded
  | streamSizeExceeded
  | other (text : String)
deriving DecidableEq

/-- What the blob store answers when the bytes of a part are carried over to it. The chunks
of a part are numbered. -/
structure Store where
  key : String
  opened : Option Nat
  flushed : Except String Unit
  sent : Nat → Except String Unit
  finished : Except String Unit
  url : Option String

/-- A part, the chunks in which its bytes arrive, and the error after them if there is one. -/
structure Part where
  name : String
  filename : String
  contentType : Option String
  chunks : List (List UInt8)
  failure : Option ReaderError
  store : Store

structure Body where
  parts : List Part
  ending : Option ReaderError

structure Rejection where
  status : Nat
  message : String
deriving DecidableEq

def tooLarge : Rejection := ⟨413, "upload too large"⟩

def uploadFailed (reason : String) : Rejection := ⟨500, "blob upload failed: " ++ reason⟩

def multipartErrResponse : ReaderError → Rejection
  | .fieldSizeExceeded | .streamSizeExceeded => tooLarge
  | .other text => ⟨400, "multipart parse: " ++ text⟩

structure UploadedFile where
  field : String
  filename : String
  contentType : Option String
  bytes : List UInt8
  size : Nat
  key : Option String
  url : Option String
deriving DecidableEq

abbrev Fields := List (String × String)

def lossy (bytes : List UInt8) : String := String.ofList (Utf8.decodeLossy bytes)

structure Memory where
  fields : Fields
  text : List UInt8
  file : List UInt8
  files : List UploadedFile
deriving DecidableEq

def valueBytes (fields : Fields) : Nat := (fields.map fun field => field.2.utf8ByteSize).sum

def Memory.textBytes (memory : Memory) : Nat := valueBytes memory.fields + memory.text.length

structure Run (α : Type) where
  trace : List Memory
  outcome : Except Rejection α

section Runs

variable {α β : Type}

def Run.ends (outcome : Except Rejection α) : Run α where
  trace := []
  outcome := outcome

def Run.waits (memory : Memory) (run : Run α) : Run α where
  trace := memory :: run.trace
  outcome := run.outcome

def Run.bind (run : Run α) (rest : α → Run β) : Run β :=
  match run.outcome with
  | .ok value => ⟨run.trace ++ (rest value).trace, (rest value).outcome⟩
  | .error rejection => ⟨run.trace, .error rejection⟩

end Runs

section Stream

variable (limits : Limits)

/-- The limit is that of one part: what earlier parts left in `fields` is not counted. -/
def textChunks (memory : Memory) : List (List UInt8) → Run Memory
  | [] => .waits memory (.ends (.ok memory))
  | chunk :: rest =>
    .waits memory
      (if memory.text.length + chunk.length > limits.maxUpload then .ends (.error tooLarge)
      else textChunks { memory with text := memory.text ++ chunk } rest)

def textField (memory : Memory) (part : Part) : Run Memory :=
  (textChunks limits { memory with text := [] } part.chunks).bind fun memory =>
    match part.failure with
    | some error => .ends (.error (multipartErrResponse error))
    | none => .ends (.ok
        { memory with
          text := []
          fields := Association.put memory.fields part.name (lossy memory.text) })

/-- A file in the middle: the session of the store once there is one, and the bytes so far. -/
structure FileState where
  memory : Memory
  session : Option Nat
  total : Nat
deriving DecidableEq

def openSession (store : Store) (state : FileState) : Except Rejection FileState :=
  match store.opened with
  | none => .error tooLarge
  | some id =>
    match store.flushed with
    | .error reason => .error (uploadFailed reason)
    | .ok _ =>
      .ok { state with memory := { state.memory with file := [] }, session := some id }

def keepChunk (store : Store) (index : Nat) (chunk : List UInt8) (state : FileState) :
    Except Rejection FileState :=
  match state.session with
  | some _ =>
    match store.sent index with
    | .error reason => .error (uploadFailed reason)
    | .ok _ => .ok state
  | none => .ok { state with memory := { state.memory with file := state.memory.file ++ chunk } }

def fileChunk (store : Store) (index : Nat) (chunk : List UInt8) (state : FileState) :
    Except Rejection FileState :=
  let counted := { state with total := state.total + chunk.length }
  if counted.total > limits.blobUploadMax then .error tooLarge
  else if counted.session.isNone ∧
      counted.memory.file.length + chunk.length > limits.maxUpload then
    (openSession store counted).bind (keepChunk store index chunk)
  else keepChunk store index chunk counted

def fileChunks (store : Store) : FileState → Nat → List (List UInt8) → Run FileState
  | state, _, [] => .waits state.memory (.ends (.ok state))
  | state, index, chunk :: rest =>
    .waits state.memory
      ((Run.ends (fileChunk limits store index chunk state)).bind fun next =>
        fileChunks store next (index + 1) rest)

def finishFile (part : Part) (state : FileState) : Except Rejection Memory :=
  match state.session with
  | some _ =>
    match part.store.finished with
    | .error reason => .error (uploadFailed reason)
    | .ok _ =>
      .ok { state.memory with
        file := []
        files := state.memory.files ++ [{
          field := part.name
          filename := part.filename
          contentType := part.contentType
          bytes := []
          size := state.total
          key := some part.store.key
          url := part.store.url }] }
  | none =>
    .ok { state.memory with
      file := []
      files := state.memory.files ++ [{
        field := part.name
        filename := part.filename
        contentType := part.contentType
        bytes := state.memory.file
        size := state.total
        key := none
        url := none }] }

def fileField (memory : Memory) (part : Part) : Run Memory :=
  (fileChunks limits part.store ⟨{ memory with file := [] }, none, 0⟩ 0 part.chunks).bind
    fun state =>
      match part.failure with
      | some error => .ends (.error (multipartErrResponse error))
      | none => .ends (finishFile part state)

def readPart (memory : Memory) (part : Part) : Run Memory :=
  if part.filename = "" then textField limits memory part else fileField limits memory part

def streamParts (ending : Option ReaderError) : Memory → List Part → Run Memory
  | memory, [] =>
    .waits memory (.ends
      (match ending with
      | some error => .error (multipartErrResponse error)
      | none => .ok memory))
  | memory, part :: rest =>
    .waits memory ((readPart limits memory part).bind fun next => streamParts ending next rest)

def streamMultipart (body : Body) : Run (Fields × List UploadedFile) :=
  (streamParts limits body.ending ⟨[], [], [], []⟩ body.parts).bind fun memory =>
    .ends (.ok (memory.fields, memory.files))

end Stream

def Part.bytes (part : Part) : List UInt8 :=
  if part.failure.isSome then [] else part.chunks.flatten

def parsePart (read : Fields × List UploadedFile) (part : Part) : Fields × List UploadedFile :=
  if part.filename = "" then
    (Association.put read.1 part.name (lossy part.bytes), read.2)
  else
    (read.1, read.2 ++ [{
      field := part.name
      filename := part.filename
      contentType := part.contentType
      bytes := part.bytes
      size := part.bytes.length
      key := none
      url := none }])

def parseMultipart (body : Body) : Except Rejection (Fields × List UploadedFile) :=
  .ok (body.parts.foldl parsePart ([], []))

section Runs

variable {α β : Type}

def Run.All (run : Run α) (holds : Memory → Prop) : Prop := ∀ memory ∈ run.trace, holds memory

theorem all_ends (outcome : Except Rejection α) (holds : Memory → Prop) :
    (Run.ends outcome).All holds := by
  intro memory member
  cases member

theorem all_waits (memory : Memory) (run : Run α) (holds : Memory → Prop) :
    (Run.waits memory run).All holds ↔ holds memory ∧ run.All holds := by
  exact List.forall_mem_cons

variable (run : Run α) (rest : α → Run β)

theorem all_bind (holds : Memory → Prop) :
    (run.bind rest).All holds ↔
      run.All holds ∧ ∀ value, run.outcome = .ok value → (rest value).All holds := by
  unfold Run.bind
  split
  · rename_i value ended
    unfold Run.All
    rw [List.forall_mem_append]
    constructor
    · rintro ⟨first, second⟩
      refine ⟨first, ?_⟩
      intro other same
      rw [ended] at same
      cases same
      exact second
    · rintro ⟨first, second⟩
      exact ⟨first, second value ended⟩
  · rename_i rejection ended
    constructor
    · intro first
      refine ⟨first, ?_⟩
      intro other same
      rw [ended] at same
      cases same
    · rintro ⟨first, _⟩
      exact first

theorem outcome_bind :
    (run.bind rest).outcome = run.outcome.bind fun value => (rest value).outcome := by
  unfold Run.bind
  cases run.outcome with
  | ok value => rfl
  | error rejection => rfl

end Runs

def Part.size (part : Part) : Nat := part.chunks.flatten.length

section Sizes

variable (limits : Limits)

/-- The store takes all chunks from the one that no longer fits into the buffer. -/
structure Part.Carried (part : Part) : Prop where
  opened : part.store.opened.isSome = true
  flushed : part.store.flushed = .ok ()
  sent : ∀ index < part.chunks.length,
    limits.maxUpload < (part.chunks.take (index + 1)).flatten.length →
      part.store.sent index = .ok ()
  finished : part.store.finished = .ok ()

/-- A part that is read to its end. -/
structure Part.Passes (part : Part) : Prop where
  unbroken : part.failure = none
  text : part.filename = "" → part.size ≤ limits.maxUpload
  file : part.filename ≠ "" →
    part.size ≤ limits.blobUploadMax ∧ (limits.maxUpload < part.size → part.Carried limits)

def Part.keep (fields : Fields) (part : Part) : Fields :=
  if part.filename = "" then Association.put fields part.name (lossy part.chunks.flatten)
  else fields

/-- The values of the text parts, and as much of the next one as fits alone, stay within the
limit together, until a part does not pass. -/
def TextsFit : Fields → List Part → Prop
  | _, [] => True
  | fields, part :: rest =>
    (part.filename = "" → ∀ count ≤ part.chunks.length,
      (part.chunks.take count).flatten.length ≤ limits.maxUpload →
        valueBytes fields + (part.chunks.take count).flatten.length ≤ limits.maxUpload) ∧
    (part.Passes limits →
      valueBytes (part.keep fields) ≤ limits.maxUpload ∧ TextsFit (part.keep fields) rest)

/-- The values of the text parts and a piece of the next one go past the limit. -/
def Overfull : Fields → List Part → Prop
  | _, [] => False
  | fields, part :: rest =>
    (part.filename = "" ∧ ∃ count ≤ part.chunks.length,
      limits.maxUpload < valueBytes fields + (part.chunks.take count).flatten.length) ∨
    (part.Passes limits ∧ Overfull (part.keep fields) rest)

def Body.Within (body : Body) : Prop := ∀ part ∈ body.parts, part.size ≤ limits.maxUpload

/-- The reader reports an error somewhere. -/
def Body.Broken (body : Body) : Prop :=
  body.ending.isSome = true ∨ ∃ part ∈ body.parts, part.failure.isSome = true

end Sizes

end OnlyJs.Serve.Multipart
