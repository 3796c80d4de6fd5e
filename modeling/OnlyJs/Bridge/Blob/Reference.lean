import OnlyJs.Bridge.Blob.Local
import OnlyJs.Lib.StepSystem

/-!
# The blob backend as a store with metadata

What a key stands for in the store the backend means to be: bytes, a content type and a
file name. The two run side by side; an operation that is refused leaves the store as it
was. What the disk shows of a key is what the store says of it in every run that does not
ask for what the three files of a blob do not keep together.
-/

namespace OnlyJs.Bridge.Blob

open Lib Lib.StepSystem

structure Entry where
  bytes : Bytes
  contentType : Option String
  filename : Option String

/-- A stream in progress. It has no bytes any more once a chunk was refused. -/
structure Stream where
  key : String
  contentType : Option String
  filename : Option String
  bytes : Option Bytes

structure Reference where
  entries : String → Option Entry
  streams : Nat → Option Stream

def effectiveType (key : String) (given : Option String) : Option String :=
  (given.filter (· ≠ "")).or (inferContentType key)

def effectiveName (given : Option String) : Option String := given.filter (· ≠ "")

def Reference.store (reference : Reference) (key : String) (entry : Option Entry) : Reference :=
  { reference with entries := Function.update reference.entries key entry }

def Reference.stream (reference : Reference) (id : Nat) (stream : Option Stream) : Reference :=
  { reference with streams := Function.update reference.streams id stream }

/-- An operation that succeeds; `fresh` is the number of an upload it opens. -/
def Reference.commit (reference : Reference) (fresh : Nat) : Operation → Reference
  | .put key bytes contentType =>
    reference.store key
      (some { bytes, contentType := effectiveType key contentType, filename := none })
  | .del key => reference.store key none
  | .setFilename key filename =>
    match reference.entries key with
    | none => reference
    | some entry =>
      reference.store key (some { entry with filename := effectiveName (some filename) })
  | .copy src dst =>
    match reference.entries src with
    | none => reference
    | some entry => reference.store dst (some entry)
  | .moveTo src dst =>
    match reference.entries src with
    | none => reference
    | some entry => (reference.store src none).store dst (some entry)
  | .open key contentType =>
    reference.stream fresh (some { key, contentType, filename := none, bytes := some [] })
  | .filename id filename =>
    match reference.streams id with
    | none => reference
    | some stream => reference.stream id (some { stream with filename := some filename })
  | .chunk id more =>
    match reference.streams id with
    | none => reference
    | some stream =>
      reference.stream id (some { stream with bytes := stream.bytes.map (· ++ more) })
  | .finish id =>
    match reference.streams id with
    | none => reference
    | some stream =>
      (reference.stream id none).store stream.key (stream.bytes.map fun bytes => {
        bytes
        contentType := effectiveType stream.key stream.contentType
        filename := effectiveName stream.filename })
  | .abort id => reference.stream id none

def Reference.refuse (reference : Reference) : Operation → Reference
  | .chunk id _ =>
    match reference.streams id with
    | none => reference
    | some stream => reference.stream id (some { stream with bytes := none })
  | .finish id => reference.stream id none
  | _ => reference

structure State where
  disk : Disk
  reference : Reference

structure Label where
  operation : Operation
  faults : Faults

def initial : State where
  disk := { files := fun _ => none, uploads := fun _ => none, nextUpload := 0 }
  reference := { entries := fun _ => none, streams := fun _ => none }

def step (config : Config) (state : State) (label : Label) : State :=
  let outcome := apply config state.disk label.operation label.faults
  { disk := outcome.2
    reference :=
      if outcome.1 then
        state.reference.commit (state.disk.nextUpload + 1) label.operation
      else state.reference.refuse label.operation }

def system (config : Config) : System State Label where
  init := initial
  step := fun state label => some (step config state label)

@[ext] structure View where
  bytes : Option Bytes
  contentType : Option String
  filename : Option String

def view (config : Config) (files : Files) (key : String) : View where
  bytes := get config files key
  contentType := contentType files key
  filename := filename files key

def viewOf (key : String) : Option Entry → View
  | none => { bytes := none, contentType := inferContentType key, filename := none }
  | some entry =>
    { bytes := some entry.bytes, contentType := entry.contentType, filename := entry.filename }

def Reference.view (reference : Reference) (key : String) : View :=
  viewOf key (reference.entries key)

def plainRoot : Config where
  pathToFilesystem := some
  pid := 1

def noFault : Faults := fun _ => none

/-- A file name that was given to a blob stays when the blob is put again. -/
theorem put_inherits_filename :
    ∃ labels state, Path (system plainRoot) Unrestricted initial labels state ∧
      validKey "a" = true ∧ view plainRoot state.disk.files "a" ≠ state.reference.view "a" := by
  let labels : List Label :=
    [⟨.put "a" [1] none, noFault⟩, ⟨.setFilename "a" "n", noFault⟩, ⟨.put "a" [2] none, noFault⟩]
  let state := labels.foldl (step plainRoot) initial
  refine ⟨labels, state, ⟨trivial, _, rfl, trivial, _, rfl, trivial, _, rfl, rfl⟩, ?_, ?_⟩
  · decide
  · intro same
    have name := congrArg View.filename same
    have shown : (view plainRoot state.disk.files "a").filename = some "n" := by rfl
    rw [shown] at name
    cases name

/-- The files of the keys and the temporary files do not collide. -/
structure Apart (config : Config) (keys : Set String) : Prop where
  mapped : ∀ key ∈ keys, ∃ path, fsPath config key = some path
  distinct : ∀ key ∈ keys, ∀ other ∈ keys,
    fsPath config key = fsPath config other → key = other
  ct : ∀ key ∈ keys, ∀ other ∈ keys, fsPath config key ≠ some (ctPath other)
  filename : ∀ key ∈ keys, ∀ other ∈ keys, fsPath config key ≠ some (filenamePath other)
  uploads : ∀ key ∈ keys, ∀ id, fsPath config key ≠ some (config.tmpPath id)

def Works (faults : Faults) : Prop := ∀ index, faults index = none

/-- A write that fails leaves the file as it was. -/
def Harmless (files : Files) (path : String) (fault : Option (Option Bytes)) : Prop :=
  ∀ left, fault = some left → left = files path

/-- Once the bytes are changed the rest works, and there is no file name to be dropped. -/
def Replaces (reference : Reference) (key : String) (faults : Faults) : Prop :=
  faults 0 = none → Works (faults.from 1) ∧ (reference.view key).filename = none

/-- Once the bytes are there the rest works, the content type of the source does not come
from its key alone, and the file names fit. -/
def Transfers (config : Config) (state : State) (src dst : String) (faults : Faults)
    (named : Prop) : Prop :=
  src ≠ dst → faults 0 = none → ∀ entry, state.reference.entries src = some entry →
    (∀ path, fsPath config dst = some path → Harmless state.disk.files path (faults 1)) ∧
      (faults 1 = none → Works (faults.from 2) ∧ named ∧
        (entry.contentType ≠ inferContentType src ∨ inferContentType src = inferContentType dst))

/-- A stream is finished with all its chunks, onto a key whose path is the key itself. -/
def Finishes (config : Config) (stream : Stream) (faults : Faults) : Prop :=
  (∀ index < 4, faults index = none) →
    stream.bytes.isSome = true ∧ fsPath config stream.key = some stream.key ∧
      Works (faults.from 4)

def Orderly (config : Config) (keys : Set String) (state : State) (label : Label) : Prop :=
  match label.operation with
  | .put key _ _ => key ∈ keys ∧ Replaces state.reference key label.faults
  | .del key => key ∈ keys ∧ Replaces state.reference key label.faults
  | .setFilename key _ =>
    key ∈ keys ∧ (state.reference.entries key).isSome = true ∧
      (label.faults 0 = none →
        Harmless state.disk.files (filenamePath key) (label.faults 1))
  | .copy src dst =>
    src ∈ keys ∧ dst ∈ keys ∧ Transfers config state src dst label.faults
      ((state.reference.view src).filename = (state.reference.view dst).filename)
  | .moveTo src dst =>
    src ∈ keys ∧ dst ∈ keys ∧ Transfers config state src dst label.faults
      ((state.reference.view src).filename = none ∧ (state.reference.view dst).filename = none)
  | .open key _ => key ∈ keys
  | .finish id =>
    ∀ stream, state.reference.streams id = some stream → Finishes config stream label.faults
  | _ => True

end OnlyJs.Bridge.Blob
