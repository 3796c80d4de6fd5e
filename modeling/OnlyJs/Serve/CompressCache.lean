import OnlyJs.Lib.StepSystem

/-!
# The compression cache

Concurrent calls for one cache key. A call that misses the cache looks the key up in the
table of calls in flight and enters a channel of its own where it finds none; a second look
decides whether it leads, compresses and stores the body, or follows, waiting on a channel.
A step is one lock section, one operation on a file, or one move of a receiver.
-/

namespace OnlyJs.Serve.CompressCache

open Lib

abbrev Bytes := List UInt8

abbrev Inode := Nat

structure Files where
  tmp : Option Inode
  cache : Option Inode
  content : Inode → Bytes
  next : Inode

def Files.create (files : Files) : Files × Inode :=
  match files.tmp with
  | some inode => ({ files with content := Function.update files.content inode [] }, inode)
  | none =>
    ({ files with
        tmp := some files.next
        content := Function.update files.content files.next []
        next := files.next + 1 }, files.next)

def writeAt (old : Bytes) (offset : Nat) (data : Bytes) : Bytes :=
  old.take offset ++ List.replicate (offset - old.length) 0 ++ data ++
    old.drop (offset + data.length)

def Files.write (files : Files) (inode : Inode) (offset : Nat) (data : Bytes) : Files :=
  { files with
    content := Function.update files.content inode (writeAt (files.content inode) offset data) }

def Files.rename (files : Files) (inode : Inode) : Files :=
  { files with tmp := none, cache := some inode }

abbrev Sender := Nat

/-- Where a call stands. A follower keeps the channel it found, the channel it listens to
and the version it has seen there. -/
inductive Phase where
  | idle
  | reading
  | registering
  | deciding (wait : Sender) (created : Bool)
  | subscribing (wait : Sender)
  | polling (wait receiver : Sender) (seen : Nat)
  | looking (wait receiver : Sender) (seen : Nat)
  | resubscribing (wait current : Sender)
  | awaiting (wait receiver : Sender) (seen : Nat)
  | acquiring
  | rechecking
  | sourcing
  | compressing (body : Bytes)
  | preparing (out : Bytes)
  | creating (out : Bytes)
  | writing (out : Bytes) (inode : Inode) (written : Nat)
  | moving (out : Bytes)
  | releasing (result : Option Bytes)
  | dropping (result : Option Bytes)
  | returned (result : Option Bytes)
deriving DecidableEq

structure Config where
  cacheDir : Bool
  /-- `none` when compressing does not pay. -/
  compress : Bytes → Option Bytes
  permits : Nat

structure State where
  calls : Nat → Phase
  inflight : Option Sender
  versions : Sender → Nat
  nextSender : Sender
  files : Files
  permits : Nat

inductive Action where
  | proceed
  /-- The file operation at hand fails. -/
  | fail
  | source (body : Bytes)
  | write (count : Nat)
deriving DecidableEq

/-- What a step does to what the calls share. -/
inductive Effect where
  | quiet
  | register
  | acquire
  | create
  | write (inode : Inode) (offset : Nat) (data : Bytes)
  | rename (inode : Inode)
  | release
  | announce

def cached (config : Config) (state : State) : Option Bytes :=
  if config.cacheDir then state.files.cache.map state.files.content else none

section Steps

variable (config : Config)

def next (state : State) : Phase → Action → Option (Phase × Effect)
  | .idle, .proceed => some (.reading, .quiet)
  | .reading, .proceed =>
    match cached config state with
    | some body => some (.returned (some body), .quiet)
    | none => some (.registering, .quiet)
  | .reading, .fail => some (.registering, .quiet)
  | .registering, .proceed =>
    match state.inflight with
    | some sender => some (.deciding sender false, .quiet)
    | none => some (.deciding state.nextSender true, .register)
  | .deciding wait _, .proceed =>
    if state.inflight = some wait then some (.acquiring, .quiet)
    else some (.subscribing wait, .quiet)
  | .subscribing wait, .proceed => some (.polling wait wait (state.versions wait), .quiet)
  | .polling wait receiver seen, .proceed =>
    match cached config state with
    | some body => some (.returned (some body), .quiet)
    | none => some (.looking wait receiver seen, .quiet)
  | .polling wait receiver seen, .fail => some (.looking wait receiver seen, .quiet)
  | .looking wait receiver seen, .proceed =>
    match state.inflight with
    | none => some (.returned none, .quiet)
    | some current =>
      if current = wait then some (.awaiting wait receiver seen, .quiet)
      else some (.resubscribing wait current, .quiet)
  | .resubscribing wait current, .proceed =>
    some (.awaiting wait current (state.versions current), .quiet)
  | .awaiting wait receiver seen, .proceed =>
    if seen < state.versions receiver then
      some (.polling wait receiver (state.versions receiver), .quiet)
    else none
  | .acquiring, .proceed => if 0 < state.permits then some (.rechecking, .acquire) else none
  | .rechecking, .proceed =>
    match cached config state with
    | some body => some (.releasing (some body), .quiet)
    | none => some (.sourcing, .quiet)
  | .rechecking, .fail => some (.sourcing, .quiet)
  | .sourcing, .source body => some (.compressing body, .quiet)
  | .sourcing, .fail => some (.releasing none, .quiet)
  | .compressing body, .proceed =>
    match config.compress body with
    | some out =>
      if config.cacheDir then some (.preparing out, .quiet)
      else some (.releasing (some out), .quiet)
    | none => some (.releasing none, .quiet)
  | .preparing out, .proceed => some (.creating out, .quiet)
  | .preparing out, .fail => some (.releasing (some out), .quiet)
  | .creating out, .proceed => some (.writing out state.files.create.2 0, .create)
  | .creating out, .fail => some (.releasing (some out), .quiet)
  | .writing out inode written, .write count =>
    if 0 < count ∧ written + count ≤ out.length then
      some (.writing out inode (written + count),
        .write inode written ((out.drop written).take count))
    else none
  | .writing out _ written, .proceed =>
    if written = out.length then some (.moving out, .quiet) else none
  | .writing out _ _, .fail => some (.releasing (some out), .quiet)
  | .moving out, .proceed =>
    match state.files.tmp with
    | some inode => some (.releasing (some out), .rename inode)
    | none => some (.releasing (some out), .quiet)
  | .moving out, .fail => some (.releasing (some out), .quiet)
  | .releasing result, .proceed => some (.dropping result, .release)
  | .dropping result, .proceed => some (.returned result, .announce)
  | _, _ => none

def announce (state : State) : State :=
  match state.inflight with
  | some sender =>
    { state with
      inflight := none
      versions := Function.update state.versions sender (state.versions sender + 1) }
  | none => state

def apply (state : State) : Effect → State
  | .quiet => state
  | .register =>
    { state with inflight := some state.nextSender, nextSender := state.nextSender + 1 }
  | .acquire => { state with permits := state.permits - 1 }
  | .create => { state with files := state.files.create.1 }
  | .write inode offset data => { state with files := state.files.write inode offset data }
  | .rename inode => { state with files := state.files.rename inode }
  | .release => { state with permits := state.permits + 1 }
  | .announce => announce state

inductive Label where
  | call (id : Nat) (action : Action)
  | unlinkTmp
  | unlinkCache
deriving DecidableEq

def step (state : State) : Label → Option State
  | .call id action =>
    (next config state (state.calls id) action).map fun (phase, effect) =>
      { apply state effect with calls := Function.update state.calls id phase }
  | .unlinkTmp => some { state with files := { state.files with tmp := none } }
  | .unlinkCache => some { state with files := { state.files with cache := none } }

structure LeftBehind where
  files : Files
  whole : ∀ inode, files.cache = some inode →
    ∃ source, config.compress source = some (files.content inode)
  distinct : ∀ inode, files.tmp = some inode → files.cache ≠ some inode
  known : ∀ inode, files.tmp = some inode ∨ files.cache = some inode → inode < files.next

def initial (files : Files) : State :=
  { calls := fun _ => .idle
    inflight := none
    versions := fun _ => 0
    nextSender := 0
    files
    permits := config.permits }

def system (left : LeftBehind config) : StepSystem.System State Label :=
  { init := initial config left.files, step := step config }

end Steps

def Phase.leads : Phase → Bool
  | deciding _ created => created
  | acquiring | rechecking | sourcing | compressing _ | preparing _ | creating _
  | writing _ _ _ | moving _ | releasing _ | dropping _ => true
  | _ => false

def Phase.follows : Phase → Option Sender
  | subscribing wait | polling wait _ _ | looking wait _ _ | resubscribing wait _
  | awaiting wait _ _ => some wait
  | _ => none

/-- A body some source compresses to. -/
def Complete (config : Config) (body : Bytes) : Prop :=
  ∃ source, config.compress source = some body

def SingleFlight (state : State) : Prop :=
  ∀ first second, (state.calls first).leads = true → (state.calls second).leads = true →
    first = second

/-- The stored body is complete, and so is every body a call has returned. -/
def WholeFiles (config : Config) (state : State) : Prop :=
  (∀ body, cached config state = some body → Complete config body) ∧
    ∀ id body, state.calls id = .returned (some body) → Complete config body

/-- `id` returns by steps of its own. -/
def CanReturn (config : Config) (left : LeftBehind config) (state : State) (id : Nat) : Prop :=
  ∃ (actions : List Action) (finish : State) (result : Option Bytes),
    StepSystem.Path (system config left) StepSystem.Unrestricted state
      (actions.map (Label.call id)) finish ∧
    finish.calls id = .returned result

/-- Who waits on a channel that has left the table is woken, and once the table is empty
every follower can return. -/
def NoLostWakeup (config : Config) (left : LeftBehind config) (state : State) : Prop :=
  (∀ id wait receiver seen, state.calls id = .awaiting wait receiver seen →
    state.inflight ≠ some receiver → seen < state.versions receiver) ∧
  (state.inflight = none →
    ∀ id, (state.calls id).follows ≠ none → CanReturn config left state id)

end OnlyJs.Serve.CompressCache
