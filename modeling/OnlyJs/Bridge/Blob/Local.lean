import OnlyJs.Lib.Utf8

/-!
# The local blob backend

A blob is a file for its bytes with two more beside it, one for the content type and one for
the file name. The bytes are put and read through the path mapping of the object store, and
everything else through the key as a path below the root. Every access to the disk may
fail, and a write that fails leaves something or nothing behind.
-/

namespace OnlyJs.Bridge.Blob

open Lib

abbrev Bytes := List UInt8

abbrev Files := String → Option Bytes

/-- What happens to each access of an operation, in their order: `none` when it works, and
else what a write leaves behind. -/
abbrev Faults := Nat → Option (Option Bytes)

def Faults.from (faults : Faults) (start : Nat) : Faults := fun index => faults (start + index)

def isDots (segment : List Char) : Bool := segment = ['.'] || segment = ['.', '.']

def validKey (key : String) : Bool :=
  key.toList ≠ [] && key.toList.head? ≠ some '/' &&
    (key.toList.splitOn '/').all fun segment =>
      segment ≠ [] && !isDots segment && !segment.any fun c => c = '\x5c' || c = '\x00'

def contentTypeByExtension : List (String × String) :=
  [("png", "image/png"), ("jpg", "image/jpeg"), ("jpeg", "image/jpeg"), ("gif", "image/gif"),
    ("webp", "image/webp"), ("svg", "image/svg+xml"), ("pdf", "application/pdf"),
    ("txt", "text/plain"), ("json", "application/json"), ("js", "text/javascript"),
    ("mjs", "text/javascript"), ("css", "text/css"), ("html", "text/html"), ("htm", "text/html"),
    ("mp4", "video/mp4"), ("mp3", "audio/mpeg"), ("zip", "application/zip"),
    ("gz", "application/gzip")]

/-- By what stands after the last dot, of the whole key where there is none. -/
def inferContentType (key : String) : Option String :=
  let extension := ((key.toList.splitOn '.').getLast?.getD []).map Char.toLower
  contentTypeByExtension.lookup (String.ofList extension)

def ctPath (key : String) : String := key ++ ".ct"

def filenamePath (key : String) : String := key ++ ".filename"

def parentOf (path : String) : List (List Char) := (path.toList.splitOn '/').dropLast

def encodeText (text : String) : Bytes := Utf8.encode text.toList

/-- `None` also where the bytes are no UTF-8. -/
def readToString (files : Files) (path : String) : Option String :=
  (files path).bind fun bytes =>
    let text := Utf8.decodeLossy bytes
    if Utf8.encode text = bytes then some (String.ofList text) else none

def writeFile (files : Files) (path : String) (content : Bytes) :
    Option (Option Bytes) → Bool × Files
  | none => (true, Function.update files path (some content))
  | some left => (false, Function.update files path left)

def removeFile (files : Files) (path : String) : Option (Option Bytes) → Files
  | none => Function.update files path none
  | some _ => files

def saveText (files : Files) (path : String) (text : Option String) (faults : Faults) :
    Bool × Files :=
  match text with
  | some text =>
    -- the directory first
    if (faults 0).isSome then (false, files)
    else writeFile files path (encodeText text) (faults 1)
  | none => (true, removeFile files path (faults 0))

def saveContentType (files : Files) (key : String) (contentType : Option String)
    (faults : Faults) : Bool × Files :=
  saveText files (ctPath key) (contentType.filter fun given => inferContentType key ≠ some given)
    faults

structure Config where
  /-- Where the object store puts a key, relative to the root. -/
  pathToFilesystem : String → Option String
  pid : Nat

def Config.tmpPath (config : Config) (id : Nat) : String :=
  ".oj-tmp-upload-" ++ toString config.pid ++ "-" ++ toString id

/-- An upload in progress; its bytes are in the temporary file. -/
structure Session where
  key : String
  contentType : Option String
  filename : Option String

structure Disk where
  files : Files
  uploads : Nat → Option Session
  nextUpload : Nat

inductive Operation where
  | put (key : String) (bytes : Bytes) (contentType : Option String)
  | del (key : String)
  | setFilename (key filename : String)
  | copy (src dst : String)
  | moveTo (src dst : String)
  | open (key : String) (contentType : Option String)
  | filename (id : Nat) (filename : String)
  | chunk (id : Nat) (bytes : Bytes)
  | finish (id : Nat)
  | abort (id : Nat)

section Operations

variable (config : Config)

def fsPath (key : String) : Option String :=
  if validKey key then config.pathToFilesystem key else none

def put (files : Files) (key : String) (bytes : Bytes) (contentType : Option String)
    (faults : Faults) : Bool × Files :=
  match fsPath config key with
  | none => (false, files)
  | some path =>
    if (faults 0).isSome then (false, files)
    else
      saveContentType (Function.update files path (some bytes)) key contentType (faults.from 1)

def del (files : Files) (key : String) (faults : Faults) : Bool × Files :=
  match fsPath config key with
  | none => (false, files)
  | some path =>
    if (faults 0).isSome then (false, files)
    else (true, removeFile (Function.update files path none) (ctPath key) (faults 1))

def setFilename (files : Files) (key filename : String) (faults : Faults) : Bool × Files :=
  if validKey key then saveText files (filenamePath key) (some filename) faults
  else (false, files)

/-- Brings the stored content type of `src` to `dst`. -/
def carryCt (files : Files) (src dst : String) (faults : Faults) : Bool × Files :=
  saveContentType files dst ((readToString files (ctPath src)).filter (· ≠ "")) faults

def copy (files : Files) (src dst : String) (faults : Faults) : Bool × Files :=
  match fsPath config src, fsPath config dst with
  | some source, some target =>
    if source = target then (true, files)
    else if (faults 0).isSome then (false, files)
    else
      match files source with
      | none => (false, files)
      | some bytes =>
        match writeFile files target bytes (faults 1) with
        | (false, files) => (false, files)
        | (true, files) => carryCt files src dst (faults.from 2)
  | _, _ => (false, files)

def relocate (files : Files) (source target : String) (bytes : Bytes) (faults : Faults) :
    Bool × Files :=
  if parentOf source = parentOf target then
    if (faults 0).isSome then (false, files)
    else (true, Function.update (Function.update files source none) target (some bytes))
  else
    match writeFile files target bytes (faults 0) with
    | (false, files) => (false, files)
    | (true, files) =>
      if (faults 1).isSome then (false, files)
      else (true, Function.update files source none)

def moveTo (files : Files) (src dst : String) (faults : Faults) : Bool × Files :=
  match fsPath config src, fsPath config dst with
  | some source, some target =>
    if source = target then (true, files)
    else if (faults 0).isSome then (false, files)
    else
      match files source with
      | none => (false, files)
      | some bytes =>
        match relocate files source target bytes (faults.from 1) with
        | (false, files) => (false, files)
        | (true, files) =>
          match carryCt files src dst (faults.from 3) with
          | (false, files) => (false, files)
          | (true, files) => (true, removeFile files (ctPath src) (faults 5))
  | _, _ => (false, files)

def dropSession (files : Files) (id : Nat) (faults : Faults) : Files :=
  removeFile files (config.tmpPath id) (faults 0)

def finish (files : Files) (id : Nat) (session : Session) (faults : Faults) : Bool × Files :=
  match files (config.tmpPath id), faults 0, faults 1, faults 2, faults 3 with
  | some bytes, none, none, none, none =>
    let moved := Function.update
      (Function.update files (config.tmpPath id) none) session.key (some bytes)
    match saveContentType moved session.key session.contentType (faults.from 4) with
    | (false, files) => (false, files)
    | (true, files) => saveText files (filenamePath session.key) session.filename (faults.from 6)
  | _, _, _, _, _ => (false, dropSession config files id (faults.from 4))

def openUpload (disk : Disk) (key : String) (contentType : Option String) (faults : Faults) :
    Bool × Disk :=
  let id := disk.nextUpload + 1
  match writeFile disk.files (config.tmpPath id) [] (faults 0) with
  | (false, files) => (false, { disk with files, nextUpload := id })
  | (true, files) =>
    (true, {
      files
      uploads := Function.update disk.uploads id
        (some { key, contentType, filename := none })
      nextUpload := id })

def onFiles (disk : Disk) (outcome : Bool × Files) : Bool × Disk :=
  (outcome.1, { disk with files := outcome.2 })

def apply (disk : Disk) (operation : Operation) (faults : Faults) : Bool × Disk :=
  match operation with
  | .put key bytes contentType => onFiles disk (put config disk.files key bytes contentType faults)
  | .del key => onFiles disk (del config disk.files key faults)
  | .setFilename key filename => onFiles disk (setFilename disk.files key filename faults)
  | .copy src dst => onFiles disk (copy config disk.files src dst faults)
  | .moveTo src dst => onFiles disk (moveTo config disk.files src dst faults)
  | .open key contentType =>
    if validKey key then openUpload config disk key contentType faults else (false, disk)
  | .filename id filename =>
    match disk.uploads id with
    | none => (false, disk)
    | some session =>
      (true, { disk with
        uploads := Function.update disk.uploads id
          (some { session with filename := some filename }) })
  | .chunk id bytes =>
    match disk.uploads id with
    | none => (false, disk)
    | some _ =>
      onFiles disk (writeFile disk.files (config.tmpPath id)
        ((disk.files (config.tmpPath id)).getD [] ++ bytes) (faults 0))
  | .finish id =>
    match disk.uploads id with
    | none => (false, disk)
    | some session =>
      onFiles { disk with uploads := Function.update disk.uploads id none }
        (finish config disk.files id session faults)
  | .abort id =>
    match disk.uploads id with
    | none => (true, disk)
    | some _ =>
      (true, { disk with
        uploads := Function.update disk.uploads id none
        files := dropSession config disk.files id faults })

/-! ## Observations

Of a valid key; the others are refused. -/

def get (files : Files) (key : String) : Option Bytes := (fsPath config key).bind files

def readRange (files : Files) (key : String) (offset length : Nat) : Option Bytes :=
  (get config files key).map fun bytes => (bytes.drop offset).take length

def contentType (files : Files) (key : String) : Option String :=
  ((readToString files (ctPath key)).filter (· ≠ "")).or (inferContentType key)

def filename (files : Files) (key : String) : Option String :=
  (readToString files (filenamePath key)).filter (· ≠ "")

end Operations

end OnlyJs.Bridge.Blob
