import OnlyJs.Lib.FiniteMap
import OnlyJs.Lib.StepSystem

/-!
# The websocket rooms of the process

One table of rooms serves all route pools. A room maps connection numbers to the senders
of the connections that joined it, and every pool counts its connections for itself; a
pool that has failed hands out zero. A connection of the process is known by its place
in the list of all connections.
-/

namespace OnlyJs.Bridge.WsHub

open Lib

inductive WsSend where
  | text (data : String)
  | binary (data : List UInt8)
deriving DecidableEq

/-- For each room, the connection whose sender is stored under a number. A room without
members is not kept, so the empty map stands for it. -/
abbrev Rooms := String → Finmap fun _ : Nat => Nat

namespace Rooms

def empty : Rooms := fun _ => ∅

def join (rooms : Rooms) (room : String) (number tx : Nat) : Rooms :=
  Function.update rooms room ((rooms room).insert number tx)

def leave (rooms : Rooms) (room : String) (number : Nat) : Rooms :=
  Function.update rooms room ((rooms room).erase number)

def removeConn (rooms : Rooms) (number : Nat) : Rooms :=
  fun room => (rooms room).erase number

def delivered (rooms : Rooms) (receiving : Nat → Bool) (room : String) (sender : Nat) :
    Multiset Nat :=
  ((rooms room).entries.filter fun entry => entry.1 ≠ sender ∧ receiving entry.2 = true).map
    fun entry => entry.2

def broadcast (rooms : Rooms) (receiving : Nat → Bool) (room : String) (sender : Nat) : Rooms :=
  Function.update rooms room
    (FiniteMap.retain (fun number tx => number = sender || receiving tx) (rooms room))

def members (rooms : Rooms) (room : String) : Multiset Nat :=
  (rooms room).entries.map fun entry => entry.2

end Rooms

structure Route where
  failed : Bool
  connSeq : Nat

/-- What `attach` has made. `session` says that the pool has an entry for the
connection, with its sender; `detached` that the hub has been told of its end. -/
structure Conn where
  route : Nat
  number : Nat
  session : Bool
  detached : Bool
  receiving : Bool
deriving DecidableEq

def Conn.opNumber (conn : Conn) : Nat := conn.number % 2 ^ 32

/-- A frame that has started; `tx` says that it was given the sender of its
connection. -/
structure Frame where
  conn : Nat
  tx : Bool
  running : Bool
deriving DecidableEq

inductive Event where
  | joined (conn : Nat) (room : String)
  | left (conn : Nat) (room : String)
  | detached (conn : Nat)
  | broadcast (sender : Option Nat) (room : String) (data : WsSend) (delivered : Multiset Nat)

/-- `history` lists the events, the latest first. -/
structure State where
  routes : Nat → Route
  conns : List Conn
  frames : List Frame
  rooms : Rooms
  history : List Event

def State.initial : State where
  routes := fun _ => ⟨false, 0⟩
  conns := []
  frames := []
  rooms := Rooms.empty
  history := []

namespace State

def executing (state : State) (frame : Nat) : Option (Frame × Conn) := do
  let started ← state.frames[frame]?
  let conn ← state.conns[started.conn]?
  if started.running then some (started, conn) else none

def receives (state : State) (tx : Nat) : Bool :=
  (state.conns[tx]?).any Conn.receiving

def update (state : State) (conn : Nat) (value : Conn) : State :=
  { state with conns := state.conns.set conn value }

end State

/-- `conn_checked`. -/
def connChecked (frame : Frame) (conn : Conn) : Bool := conn.opNumber ≠ 0 && frame.tx

inductive Label where
  | attach (route : Nat)
  | fail (route : Nat)
  | start (conn : Nat)
  | finish (frame : Nat)
  | join (frame : Nat) (room : String)
  | leave (frame : Nat) (room : String)
  | broadcast (frame : Nat) (room : String) (data : WsSend)
  | notify (room : String) (data : WsSend)
  | detach (conn : Nat)
  | dropSession (conn : Nat)
  | closeReceiver (conn : Nat)

def attach (state : State) (route : Nat) : State :=
  let pool := state.routes route
  if pool.failed then
    { state with conns := state.conns ++ [⟨route, 0, false, false, true⟩] }
  else { state with
    routes := Function.update state.routes route { pool with connSeq := pool.connSeq + 1 }
    conns := state.conns ++ [⟨route, pool.connSeq + 1, true, false, true⟩] }

def broadcast (state : State) (sender : Option Nat) (number : Nat) (room : String)
    (data : WsSend) : State :=
  { state with
    rooms := state.rooms.broadcast state.receives room number
    history := .broadcast sender room data
      (state.rooms.delivered state.receives room number) :: state.history }

/-- An operation that fails its check throws in the handler and changes nothing. -/
def step (state : State) : Label → Option State
  | .attach route => some (attach state route)
  | .fail route =>
    some { state with
      routes := Function.update state.routes route { state.routes route with failed := true } }
  | .start conn =>
    (state.conns[conn]?).map fun held =>
      { state with frames := state.frames ++ [⟨conn, held.session, true⟩] }
  | .finish frame =>
    (state.frames[frame]?).map fun started =>
      { state with frames := state.frames.set frame { started with running := false } }
  | .join frame room =>
    (state.executing frame).map fun (started, conn) =>
      if connChecked started conn then
        { state with
          rooms := state.rooms.join room conn.opNumber started.conn
          history := .joined started.conn room :: state.history }
      else state
  | .leave frame room =>
    (state.executing frame).map fun (started, conn) =>
      if connChecked started conn then
        { state with
          rooms := state.rooms.leave room conn.opNumber
          history := .left started.conn room :: state.history }
      else state
  | .broadcast frame room data =>
    (state.executing frame).map fun (started, conn) =>
      broadcast state (some started.conn) conn.opNumber room data
  | .notify room data => some (broadcast state none 0 room data)
  | .detach conn =>
    (state.conns[conn]?).map fun held =>
      { state.update conn { held with detached := true } with
        rooms := state.rooms.removeConn held.number
        history := .detached conn :: state.history }
  | .dropSession conn =>
    (state.conns[conn]?).bind fun held =>
      if held.detached then some (state.update conn { held with session := false }) else none
  | .closeReceiver conn =>
    (state.conns[conn]?).bind fun held =>
      if held.detached && !held.session then
        some (state.update conn { held with receiving := false })
      else none

def system : StepSystem.System State Label := ⟨.initial, step⟩

def isDetached (conn : Nat) : List Event → Bool
  | [] => false
  | .detached other :: rest => other = conn || isDetached conn rest
  | _ :: rest => isDetached conn rest

@[grind =]
def isMember (room : String) (conn : Nat) : List Event → Bool
  | [] => false
  | .joined other joined :: rest =>
    if other = conn ∧ joined = room then !isDetached conn rest else isMember room conn rest
  | .left other left :: rest =>
    if other = conn ∧ left = room then false else isMember room conn rest
  | .detached other :: rest => if other = conn then false else isMember room conn rest
  | .broadcast _ _ _ _ :: rest => isMember room conn rest

end OnlyJs.Bridge.WsHub
