import OnlyJs.Bridge.HandleCore
import OnlyJs.Lib.FiniteMap

/-!
# The registry of cross-request transaction sessions

The registry is one table of sessions, one table of reservations and a short
list of tombstones. Entries are shared by reference: `arc` is the identity that
`Arc::ptr_eq` compares, and the cells an entry shares between its holders (its
`dead` flag, its timers, its connection) are kept by allocation in `cells`.
Audit events are left out.
-/

namespace OnlyJs.Bridge.DbSession

open Finmap Bridge.HandleCore Lib.FiniteMap

def handlePrefix : String := "tx_"

def tombstoneCap : Nat := 256

def tombstoneTtl : Nat := 60000

structure DbSessionSection where
  enabled : Bool
  maxSessions : Nat
  maxPerOwner : Nat
  idleTimeoutSecs : Nat
  maxLifetimeSecs : Nat
  requireIdentity : Bool
deriving DecidableEq

def DbSessionSection.default : DbSessionSection where
  enabled := false
  maxSessions := 32
  maxPerOwner := 8
  idleTimeoutSecs := 300
  maxLifetimeSecs := 1800
  requireIdentity := true

def DbSessionSection.idleTimeout (config : DbSessionSection) : Nat :=
  max config.idleTimeoutSecs 1 * 1000

def DbSessionSection.maxLifetime (config : DbSessionSection) : Nat :=
  max config.maxLifetimeSecs 1 * 1000

inductive KillState where
  | closed
  | expired
  | discarded
deriving DecidableEq

structure Tombstone where
  owner : Owner
  state : KillState
  reason : String
  noted : Nat
deriving DecidableEq

/-- The immutable part of a session entry; `aliasName` is the physical alias. -/
structure TxSessionEntry where
  arc : Nat
  id : String
  aliasName : String
  owner : Owner
  epoch : Nat
  readOnly : Bool
  created : Nat
deriving DecidableEq

/-- `commit` and `rollback` consume the transaction of a connection. -/
inductive TxSession where
  | active
  | consumed
deriving DecidableEq

/-- What the holders of one entry share. `holder` is the call that holds the
connection's mutex. -/
structure EntryCell where
  dead : Bool
  lastUsed : Nat
  ops : Nat
  session : TxSession
  holder : Option Nat
deriving DecidableEq

def EntryCell.fresh (now : Nat) : EntryCell where
  dead := false
  lastUsed := now
  ops := 0
  session := .active
  holder := none

def EntryCell.noteUse (now : Nat) (cell : EntryCell) : EntryCell :=
  { cell with lastUsed := now, ops := cell.ops + 1 }

def EntryCell.lock (call : Nat) (cell : EntryCell) : EntryCell :=
  { cell with holder := some call }

def EntryCell.unlock (cell : EntryCell) : EntryCell :=
  { cell with holder := none }

def EntryCell.consume (cell : EntryCell) : EntryCell :=
  { cell with session := .consumed }

structure OwnerKey where
  tenant : Option String
  user : Option String
deriving DecidableEq

def OwnerKey.of (owner : Owner) : OwnerKey where
  tenant := owner.tenant
  user := owner.user

structure Inner where
  sessions : Finmap fun _ : String => TxSessionEntry
  pending : Finmap fun _ : OwnerKey => Nat
  pendingTotal : Nat

structure TxSessionRegistry where
  inner : Inner
  tombstones : List (String × Tombstone)
  boot : BootTag
  config : DbSessionSection
  timedOut : Nat
  discarded : Nat
  rejected : Nat
  cells : Nat → EntryCell
  nextArc : Nat

def TxSessionRegistry.new (config : DbSessionSection) (boot : BootTag) : TxSessionRegistry where
  inner := { sessions := ∅, pending := ∅, pendingTotal := 0 }
  tombstones := []
  boot := boot
  config := config
  timedOut := 0
  discarded := 0
  rejected := 0
  cells := fun _ => .fresh 0
  nextArc := 0

/-- Sessions in the table that belong to the subject of `owner`. -/
def Inner.owned (inner : Inner) (owner : Owner) : Nat :=
  weight (fun _ (entry : TxSessionEntry) => if entry.owner.sameSubject owner then 1 else 0)
    inner.sessions

def Inner.pendingOf (inner : Inner) (key : OwnerKey) : Nat :=
  (inner.pending.lookup key).getD 0

def reserve (registry : TxSessionRegistry) (owner : Owner) :
    Except String Unit × TxSessionRegistry :=
  let inner := registry.inner
  let total := size inner.sessions + inner.pendingTotal
  let maxSessions := registry.config.maxSessions
  let maxPerOwner := registry.config.maxPerOwner
  let key := OwnerKey.of owner
  let mine := inner.owned owner + inner.pendingOf key
  if maxSessions ≤ total then
    (.error (s!"db session: limit reached ({total} active/opening, " ++
        s!"db_session.max_sessions = {maxSessions}); " ++
        "commit/rollback/close some sessions first"),
      { registry with rejected := registry.rejected + 1 })
  else if maxPerOwner ≤ mine then
    (.error (s!"db session: per-caller limit reached ({mine} active/opening, " ++
        s!"db_session.max_per_owner = {maxPerOwner})"),
      { registry with rejected := registry.rejected + 1 })
  else
    (.ok (),
      { registry with
        inner := { inner with
          pending := inner.pending.insert key (inner.pendingOf key + 1)
          pendingTotal := inner.pendingTotal + 1 } })

def settlePending (inner : Inner) (owner : Owner) : Inner :=
  let key := OwnerKey.of owner
  match inner.pending.lookup key with
  | none => inner
  | some n =>
    { inner with
      pending :=
        if n - 1 = 0 then inner.pending.erase key else inner.pending.insert key (n - 1)
      pendingTotal := inner.pendingTotal - 1 }

theorem settle_pending_sessions (inner : Inner) (owner : Owner) :
    (settlePending inner owner).sessions = inner.sessions := by
  simp only [settlePending]
  split <;> rfl

def cancelReservation (registry : TxSessionRegistry) (owner : Owner) : TxSessionRegistry :=
  { registry with inner := settlePending registry.inner owner }

def insert (registry : TxSessionRegistry) (entry : TxSessionEntry) (owner : Owner) :
    TxSessionRegistry :=
  let settled := settlePending registry.inner owner
  { registry with inner := { settled with sessions := settled.sessions.insert entry.id entry } }

def noteTombstone (registry : TxSessionRegistry) (entry : TxSessionEntry) (state : KillState)
    (reason : String) (now : Nat) : TxSessionRegistry :=
  { registry with
    tombstones :=
      ((entry.id, { owner := entry.owner, state, reason, noted := now }) ::
        registry.tombstones).take tombstoneCap }

def tombstoneFor (registry : TxSessionRegistry) (id : String) (owner : Owner) (now : Nat) :
    Option Tombstone :=
  ((registry.tombstones.find? fun item => item.1 == id && item.2.owner.sameSubject owner).filter
    fun item => now - item.2.noted < tombstoneTtl).map Prod.snd

def updateCell (registry : TxSessionRegistry) (arc : Nat) (change : EntryCell → EntryCell) :
    TxSessionRegistry :=
  { registry with
    cells := fun other => if other = arc then change (registry.cells other)
      else registry.cells other }

def Inner.detach (inner : Inner) (entry : TxSessionEntry) : Inner :=
  match inner.sessions.lookup entry.id with
  | some held =>
    if held.arc = entry.arc then { inner with sessions := inner.sessions.erase entry.id }
    else inner
  | none => inner

def kill (registry : TxSessionRegistry) (entry : TxSessionEntry) (state : KillState)
    (reason : String) (now : Nat) : TxSessionRegistry :=
  let counted :=
    if (registry.cells entry.arc).dead then registry
    else { registry with discarded := registry.discarded + 1 }
  let marked := updateCell counted entry.arc fun cell => { cell with dead := true }
  noteTombstone { marked with inner := marked.inner.detach entry } entry state reason now

end OnlyJs.Bridge.DbSession
