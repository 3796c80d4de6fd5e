import OnlyJs.Bridge.WsHub.Hub

/-!
# Membership of the rooms

Where no two connections meet under one number, a room holds the connections that have
joined it and are still there, each under its own number, and no operation of one
connection touches another. Numbers meet as soon as two routes are in use.
-/

namespace OnlyJs.Bridge.WsHub

open Lib List Option

/-- Under this number the room holds no connection but this one. -/
def Rooms.Free (rooms : Rooms) (room : String) (number conn : Nat) : Prop :=
  ∀ tx, (rooms room).lookup number = some tx → tx = conn

/-- A connection acts on rooms where its number is its own, and joins none after its end
or under a number cut to a word. -/
def Orderly (state : State) : Label → Prop
  | .join frame room => ∀ started conn, state.executing frame = some (started, conn) →
      connChecked started conn = true →
        conn.detached = false ∧ conn.number < 2 ^ 32 ∧
          state.rooms.Free room conn.opNumber started.conn
  | .leave frame room => ∀ started conn, state.executing frame = some (started, conn) →
      state.rooms.Free room conn.opNumber started.conn
  | .broadcast frame room _ => ∀ started conn, state.executing frame = some (started, conn) →
      state.rooms.Free room conn.opNumber started.conn
  | .detach conn => ∀ held, state.conns[conn]? = some held →
      ∀ room, state.rooms.Free room held.number conn
  | _ => True

/-- The table of rooms agrees with the history of joins, leaves and ends. -/
structure Kept (state : State) : Prop where
  stored : ∀ room number tx, (state.rooms room).lookup number = some tx ↔
    isMember room tx state.history = true ∧
      ∃ conn, state.conns[tx]? = some conn ∧ conn.number = number
  live : ∀ room tx, isMember room tx state.history = true →
    ∃ conn, state.conns[tx]? = some conn ∧ conn.detached = false ∧ conn.number ≠ 0 ∧
      conn.number < 2 ^ 32
  marked : ∀ (tx : Nat) (conn : Conn), state.conns[tx]? = some conn →
    conn.detached = isDetached tx state.history
  known : ∀ tx, isDetached tx state.history = true → tx < state.conns.length
  receiving : ∀ (tx : Nat) (conn : Conn), state.conns[tx]? = some conn →
    conn.detached = false → conn.receiving = true

variable {state : State}

variable {conn : Conn}

theorem opNumber_of_lt (small : conn.number < 2 ^ 32) :
    conn.opNumber = conn.number := Nat.mod_eq_of_lt small

theorem kept_attach (kept : Kept state) (route : Nat) : Kept (attach state route) := by
  obtain ⟨added, conns, rooms, history, fresh, open_⟩ :
      ∃ added : Conn, (attach state route).conns = state.conns ++ [added] ∧
        (attach state route).rooms = state.rooms ∧
        (attach state route).history = state.history ∧
        added.detached = false ∧ added.receiving = true := by
    unfold attach
    dsimp only
    split
    · exact ⟨_, rfl, rfl, rfl, rfl, rfl⟩
    · exact ⟨_, rfl, rfl, rfl, rfl, rfl⟩
  have old : ∀ tx conn, state.conns[tx]? = some conn →
      (state.conns ++ [added])[tx]? = some conn := fun tx conn found =>
    (getElem?_append_left (List.getElem?_eq_some_iff.mp found).1).trans found
  have cases : ∀ tx conn, (state.conns ++ [added])[tx]? = some conn →
      state.conns[tx]? = some conn ∨ tx = state.conns.length ∧ conn = added := by
    intro tx conn found
    rcases Nat.lt_trichotomy tx state.conns.length with less | same | more
    · exact .inl ((getElem?_append_left less).symm.trans found)
    · subst same
      rw [getElem?_concat_length] at found
      exact .inr ⟨rfl, (Option.some.inj found).symm⟩
    · rw [getElem?_eq_none (by simp; omega)] at found
      cases found
  constructor
  · intro room number tx
    rw [rooms, history, conns, kept.stored]
    constructor
    · rintro ⟨member, conn, found, same⟩
      exact ⟨member, conn, old tx conn found, same⟩
    · rintro ⟨member, conn, found, same⟩
      obtain ⟨held, there, -⟩ := kept.live room tx member
      rw [old tx held there] at found
      cases found
      exact ⟨member, conn, there, same⟩
  · intro room tx member
    rw [history] at member
    obtain ⟨conn, found, rest⟩ := kept.live room tx member
    exact ⟨conn, conns ▸ old tx conn found, rest⟩
  · intro tx conn found
    rw [conns] at found
    rw [history]
    rcases cases tx conn found with before | ⟨rfl, rfl⟩
    · exact kept.marked tx conn before
    · rw [fresh]
      by_contra marked
      have bound := kept.known state.conns.length (by simpa using marked)
      exact absurd bound (lt_irrefl _)
  · intro tx detached
    rw [history] at detached
    have bound := kept.known tx detached
    rw [conns, length_append]
    omega
  · intro tx conn found attached
    rw [conns] at found
    rcases cases tx conn found with before | ⟨-, rfl⟩
    · exact kept.receiving tx conn before attached
    · exact open_

theorem kept_update (kept : Kept state) {conn : Nat} {held value : Conn}
    (found : state.conns[conn]? = some held) (number : value.number = held.number)
    (detached : value.detached = held.detached)
    (receiving : value.detached = false → value.receiving = true) :
    Kept (state.update conn value) := by
  have bound := (List.getElem?_eq_some_iff.mp found).1
  have own : (state.conns.set conn value)[conn]? = some value := getElem?_set_self bound
  have other : ∀ tx, conn ≠ tx → (state.conns.set conn value)[tx]? = state.conns[tx]? :=
    fun tx distinct => getElem?_set_ne distinct
  constructor
  · intro room name tx
    rw [State.update, kept.stored]
    by_cases same : conn = tx
    · subst same
      simp [own, found, number]
    · simp [other tx same]
  · intro room tx member
    obtain ⟨before, there, rest⟩ := kept.live room tx member
    by_cases same : conn = tx
    · subst same
      rw [found] at there
      cases there
      exact ⟨value, own, by rw [detached, number]; exact rest⟩
    · exact ⟨before, (other tx same).trans there, rest⟩
  · intro tx after there
    by_cases same : conn = tx
    · subst same
      cases own.symm.trans there
      rw [detached]
      exact kept.marked conn held found
    · exact kept.marked tx after ((other tx same).symm.trans there)
  · intro tx marked
    exact (kept.known tx marked).trans_eq length_set.symm
  · intro tx after there attached
    by_cases same : conn = tx
    · subst same
      cases own.symm.trans there
      exact receiving attached
    · exact kept.receiving tx after ((other tx same).symm.trans there) attached

variable {started : Frame}

variable {frame : Nat}

theorem executing_conn (executing : state.executing frame = some (started, conn)) :
    state.conns[started.conn]? = some conn := by
  simp only [State.executing, bind_eq_bind, bind_eq_some_iff] at executing
  obtain ⟨held, -, other, found, chosen⟩ := executing
  obtain ⟨-, equal⟩ := ite_none_right_eq_some.mp chosen
  cases equal
  exact found

variable {room : String}

section

variable (kept : Kept state) (found : state.conns[started.conn]? = some conn)
include kept found

theorem kept_join (checked : connChecked started conn = true) (attached : conn.detached = false)
    (small : conn.number < 2 ^ 32) (free : state.rooms.Free room conn.opNumber started.conn) :
    Kept { state with
      rooms := state.rooms.join room conn.opNumber started.conn
      history := .joined started.conn room :: state.history } := by
  rw [opNumber_of_lt small] at free ⊢
  have fresh : isDetached started.conn state.history = false :=
    (kept.marked _ _ found).symm.trans attached
  have positive : conn.number ≠ 0 := by
    simp only [connChecked, Bool.and_eq_true, decide_eq_true_eq] at checked
    rw [opNumber_of_lt small] at checked
    exact checked.1
  refine ⟨fun other number tx => ?_, fun other tx member => ?_, kept.marked, kept.known,
    kept.receiving⟩
  · simp only [Rooms.join, isMember, Function.update_apply]
    by_cases same : other = room
    · subst same
      rw [if_pos rfl]
      by_cases own : started.conn = tx
      · subst own
        rw [if_pos ⟨rfl, rfl⟩, fresh]
        by_cases named : number = conn.number
        · subst named
          rw [Finmap.lookup_insert]
          exact ⟨fun _ => ⟨rfl, conn, found, rfl⟩, fun _ => rfl⟩
        · rw [Finmap.lookup_insert_of_ne _ named, kept.stored]
          constructor
          · rintro ⟨-, rest⟩
            exact ⟨rfl, rest⟩
          · rintro ⟨-, held, there, equal⟩
            cases found.symm.trans there
            exact absurd equal.symm named
      · rw [if_neg fun both => own both.1]
        by_cases named : number = conn.number
        · subst named
          rw [Finmap.lookup_insert]
          constructor
          · intro equal
            cases equal
            exact absurd rfl own
          · intro there
            exact absurd (free tx ((kept.stored _ _ _).mpr there)).symm own
        · rw [Finmap.lookup_insert_of_ne _ named]
          exact kept.stored other number tx
    · rw [if_neg same, if_neg fun both => same both.2.symm]
      exact kept.stored other number tx
  · simp only [isMember] at member
    split at member
    · rename_i both
      rw [← both.1]
      exact ⟨conn, found, attached, positive, small⟩
    · exact kept.live other tx member

theorem kept_leave (free : state.rooms.Free room conn.opNumber started.conn) :
    Kept { state with
      rooms := state.rooms.leave room conn.opNumber
      history := .left started.conn room :: state.history } := by
  refine ⟨fun other number tx => ?_, fun other tx member => ?_, kept.marked, kept.known,
    kept.receiving⟩
  · simp only [Rooms.leave, isMember, Function.update_apply]
    by_cases same : other = room
    · subst same
      rw [if_pos rfl]
      by_cases own : started.conn = tx
      · subst own
        rw [if_pos ⟨rfl, rfl⟩]
        refine ⟨fun there => ?_, fun ⟨impossible, _⟩ => nomatch impossible⟩
        -- a member is stored under its own number, which is the one left
        exfalso
        by_cases named : number = conn.opNumber
        · subst named
          rw [Finmap.lookup_erase] at there
          cases there
        · rw [Finmap.lookup_erase_ne named, kept.stored] at there
          obtain ⟨member, held, again, equal⟩ := there
          obtain ⟨live, third, -, -, small⟩ := kept.live _ _ member
          cases found.symm.trans again
          cases found.symm.trans third
          rw [opNumber_of_lt small] at named
          exact named equal.symm
      · rw [if_neg fun both => own both.1]
        by_cases named : number = conn.opNumber
        · subst named
          rw [Finmap.lookup_erase]
          refine ⟨nofun, fun there => ?_⟩
          exact absurd (free tx ((kept.stored _ _ _).mpr there)).symm own
        · rw [Finmap.lookup_erase_ne named]
          exact kept.stored other number tx
    · rw [if_neg same, if_neg fun both => same both.2.symm]
      exact kept.stored other number tx
  · simp only [isMember] at member
    split at member
    · cases member
    · exact kept.live other tx member

end

theorem kept_receives (kept : Kept state) {tx : Nat}
    (member : isMember room tx state.history = true) : state.receives tx = true := by
  obtain ⟨conn, found, attached, -⟩ := kept.live room tx member
  rw [State.receives, found]
  exact kept.receiving tx conn found attached

theorem kept_broadcast (kept : Kept state) (sender : Option Nat) (number : Nat) (room : String)
    (data : WsSend) : Kept (broadcast state sender number room data) := by
  refine ⟨fun other name tx => ?_, kept.live, kept.marked, kept.known, kept.receiving⟩
  simp only [broadcast, Rooms.broadcast, isMember, Function.update_apply]
  rw [← kept.stored]
  split
  · rename_i same
    subst same
    rw [FiniteMap.lookup_retain, filter_eq_some_iff]
    refine ⟨fun both => both.1, fun there => ⟨there, ?_⟩⟩
    rw [kept_receives kept ((kept.stored _ _ _).mp there).1, Bool.or_true]
  · rfl

theorem kept_detach (kept : Kept state) {conn : Nat} {held : Conn}
    (found : state.conns[conn]? = some held)
    (free : ∀ room, state.rooms.Free room held.number conn) :
    Kept { state.update conn { held with detached := true } with
      rooms := state.rooms.removeConn held.number
      history := .detached conn :: state.history } := by
  have bound := (List.getElem?_eq_some_iff.mp found).1
  have own : (state.conns.set conn { held with detached := true })[conn]? =
      some { held with detached := true } := getElem?_set_self bound
  have other : ∀ tx, conn ≠ tx →
      (state.conns.set conn { held with detached := true })[tx]? = state.conns[tx]? :=
    fun tx distinct => getElem?_set_ne distinct
  refine ⟨fun room number tx => ?_, fun room tx member => ?_, fun tx after there => ?_,
    fun tx marked => ?_, fun tx after there attached => ?_⟩
  · simp only [Rooms.removeConn, isMember, State.update]
    by_cases same : conn = tx
    · subst same
      rw [if_pos rfl]
      refine ⟨fun there => ?_, fun ⟨impossible, _⟩ => nomatch impossible⟩
      exfalso
      by_cases named : number = held.number
      · subst named
        rw [Finmap.lookup_erase] at there
        cases there
      · rw [Finmap.lookup_erase_ne named, kept.stored] at there
        obtain ⟨-, before, again, equal⟩ := there
        cases found.symm.trans again
        exact named equal.symm
    · rw [if_neg same, other tx same, ← kept.stored]
      by_cases named : number = held.number
      · subst named
        rw [Finmap.lookup_erase]
        exact ⟨nofun, fun there => absurd (free room tx there).symm same⟩
      · rw [Finmap.lookup_erase_ne named]
  · simp only [isMember] at member
    split at member
    · cases member
    · rename_i same
      obtain ⟨before, there, rest⟩ := kept.live room tx member
      exact ⟨before, (other tx same).trans there, rest⟩
  · simp only [isDetached]
    by_cases same : conn = tx
    · subst same
      cases own.symm.trans there
      simp
    · rw [decide_eq_false same]
      exact kept.marked tx after ((other tx same).symm.trans there)
  · simp only [isDetached, Bool.or_eq_true, decide_eq_true_eq] at marked
    simp only [State.update, length_set]
    rcases marked with rfl | before
    · exact bound
    · exact kept.known tx before
  · by_cases same : conn = tx
    · subst same
      cases own.symm.trans there
      cases attached
    · exact kept.receiving tx after ((other tx same).symm.trans there) attached

theorem kept_step : StepSystem.Preserved system Orderly Kept := by
  intro state label next kept orderly fired
  cases label with
  | attach route =>
    cases fired
    exact kept_attach kept route
  | fail route =>
    cases fired
    exact ⟨kept.stored, kept.live, kept.marked, kept.known, kept.receiving⟩
  | start conn =>
    obtain ⟨held, -, rfl⟩ := map_eq_some_iff.mp fired
    exact ⟨kept.stored, kept.live, kept.marked, kept.known, kept.receiving⟩
  | finish frame =>
    obtain ⟨started, -, rfl⟩ := map_eq_some_iff.mp fired
    exact ⟨kept.stored, kept.live, kept.marked, kept.known, kept.receiving⟩
  | join frame room =>
    obtain ⟨⟨started, conn⟩, executing, rfl⟩ := map_eq_some_iff.mp fired
    dsimp only
    split
    · rename_i checked
      obtain ⟨attached, small, free⟩ := orderly started conn executing checked
      exact kept_join kept (executing_conn executing) checked attached small free
    · exact kept
  | leave frame room =>
    obtain ⟨⟨started, conn⟩, executing, rfl⟩ := map_eq_some_iff.mp fired
    dsimp only
    split
    · exact kept_leave kept (executing_conn executing) (orderly started conn executing)
    · exact kept
  | broadcast frame room data =>
    obtain ⟨⟨started, conn⟩, executing, rfl⟩ := map_eq_some_iff.mp fired
    exact kept_broadcast kept _ _ room data
  | notify room data =>
    cases fired
    exact kept_broadcast kept _ _ room data
  | detach conn =>
    obtain ⟨held, found, rfl⟩ := map_eq_some_iff.mp fired
    exact kept_detach kept found (orderly held found)
  | dropSession conn =>
    obtain ⟨held, found, dropped⟩ := bind_eq_some_iff.mp fired
    obtain ⟨gone, equal⟩ := ite_none_right_eq_some.mp dropped
    cases equal
    refine kept_update kept found rfl rfl fun attached => ?_
    rw [gone] at attached
    cases attached
  | closeReceiver conn =>
    obtain ⟨held, found, closed⟩ := bind_eq_some_iff.mp fired
    obtain ⟨gone, equal⟩ := ite_none_right_eq_some.mp closed
    cases equal
    rw [Bool.and_eq_true] at gone
    refine kept_update kept found rfl rfl fun attached => ?_
    rw [gone.1] at attached
    cases attached

theorem kept_initial : Kept State.initial := by
  constructor <;> simp [State.initial, isMember, isDetached, Rooms.empty]

theorem mem_entries_iff (rooms : Rooms) (room : String) (number tx : Nat) :
    (⟨number, tx⟩ : Sigma fun _ : Nat => Nat) ∈ (rooms room).entries ↔
      (rooms room).lookup number = some tx :=
  (FiniteMap.lookup_eq_some_iff _ _ _).symm

theorem entries_injective (kept : Kept state) (room : String)
    (first second : Sigma fun _ : Nat => Nat) (left : first ∈ (state.rooms room).entries)
    (right : second ∈ (state.rooms room).entries) (same : first.2 = second.2) :
    first = second := by
  obtain ⟨number, tx⟩ := first
  obtain ⟨other, third⟩ := second
  cases same
  rw [mem_entries_iff, kept.stored] at left right
  obtain ⟨-, conn, found, rfl⟩ := left
  obtain ⟨-, held, there, rfl⟩ := right
  cases found.symm.trans there
  rfl

theorem members_nodup (kept : Kept state) (room : String) : (state.rooms.members room).Nodup := by
  apply Multiset.Nodup.map_on _ (Finmap.nodup_entries _)
  intro first left second right
  exact entries_injective kept room first second left right

theorem mem_members_iff (kept : Kept state) (room : String) (tx : Nat) :
    tx ∈ state.rooms.members room ↔ isMember room tx state.history = true := by
  simp only [Rooms.members, Multiset.mem_map]
  constructor
  · rintro ⟨⟨number, other⟩, there, rfl⟩
    rw [mem_entries_iff, kept.stored] at there
    exact there.1
  · intro member
    obtain ⟨conn, found, -⟩ := kept.live room tx member
    refine ⟨⟨conn.number, tx⟩, ?_, rfl⟩
    rw [mem_entries_iff, kept.stored]
    exact ⟨member, conn, found, rfl⟩

theorem delivered_nodup (kept : Kept state) (room : String) (number : Nat) :
    (state.rooms.delivered state.receives room number).Nodup := by
  apply Multiset.Nodup.map_on _ (Multiset.Nodup.filter _ (Finmap.nodup_entries _))
  intro first left second right
  exact entries_injective kept room first second (Multiset.mem_of_mem_filter left)
    (Multiset.mem_of_mem_filter right)

theorem mem_delivered_iff (kept : Kept state) (room : String) (number tx : Nat) :
    tx ∈ state.rooms.delivered state.receives room number ↔
      isMember room tx state.history = true ∧ (state.rooms room).lookup number ≠ some tx := by
  simp only [Rooms.delivered, Multiset.mem_map, Multiset.mem_filter]
  constructor
  · rintro ⟨⟨name, other⟩, ⟨there, apart, -⟩, rfl⟩
    rw [mem_entries_iff] at there
    have member := (kept.stored _ _ _).mp there
    refine ⟨member.1, fun same => apart ?_⟩
    obtain ⟨-, conn, found, rfl⟩ := member
    obtain ⟨-, held, again, rfl⟩ := (kept.stored _ _ _).mp same
    cases found.symm.trans again
    rfl
  · rintro ⟨member, apart⟩
    obtain ⟨conn, found, -⟩ := kept.live room tx member
    have there := (kept.stored room conn.number tx).mpr ⟨member, conn, found, rfl⟩
    refine ⟨⟨conn.number, tx⟩, ⟨(mem_entries_iff _ _ _ _).mpr there, ?_,
      kept_receives kept member⟩, rfl⟩
    intro same
    exact apart (same ▸ there)

def actor (state : State) : Label → Option Nat
  | .join frame _ => (state.frames[frame]?).map Frame.conn
  | .leave frame _ => (state.frames[frame]?).map Frame.conn
  | .detach conn => some conn
  | _ => none

theorem executing_frame (executing : state.executing frame = some (started, conn)) :
    state.frames[frame]? = some started := by
  simp only [State.executing, bind_eq_bind, bind_eq_some_iff] at executing
  obtain ⟨held, found, other, -, chosen⟩ := executing
  obtain ⟨-, equal⟩ := ite_none_right_eq_some.mp chosen
  cases equal
  exact found

variable {next : State}

/-- The history of a connection that does not act is the same. -/
theorem isMember_step {label : Label} {conn : Nat} (room : String)
    (fired : step state label = some next) (apart : actor state label ≠ some conn) :
    isMember room conn next.history = isMember room conn state.history := by
  cases label with
  | attach route =>
    cases fired
    unfold attach
    dsimp only
    split <;> rfl
  | fail route =>
    cases fired
    rfl
  | start other =>
    obtain ⟨held, -, rfl⟩ := map_eq_some_iff.mp fired
    rfl
  | finish frame =>
    obtain ⟨started, -, rfl⟩ := map_eq_some_iff.mp fired
    rfl
  | join frame joined | leave frame left =>
    obtain ⟨⟨started, held⟩, executing, rfl⟩ := map_eq_some_iff.mp fired
    simp only [actor, executing_frame executing, map_some, ne_eq,
      Option.some.injEq] at apart
    dsimp only
    split
    · simp only [isMember, apart, false_and, if_false]
    · rfl
  | broadcast frame sent data =>
    obtain ⟨⟨started, held⟩, executing, rfl⟩ := map_eq_some_iff.mp fired
    rfl
  | notify sent data =>
    cases fired
    rfl
  | detach other =>
    obtain ⟨held, found, rfl⟩ := map_eq_some_iff.mp fired
    simp only [actor, ne_eq, Option.some.injEq] at apart
    simp only [isMember, apart, if_false]
  | dropSession other =>
    obtain ⟨held, found, dropped⟩ := bind_eq_some_iff.mp fired
    obtain ⟨-, equal⟩ := ite_none_right_eq_some.mp dropped
    cases equal
    rfl
  | closeReceiver other =>
    obtain ⟨held, found, closed⟩ := bind_eq_some_iff.mp fired
    obtain ⟨-, equal⟩ := ite_none_right_eq_some.mp closed
    cases equal
    rfl

theorem broadcast_step {data : WsSend} (kept : Kept state)
    (orderly : Orderly state (.broadcast frame room data))
    (fired : step state (.broadcast frame room data) = some next) :
    ∃ started delivered, state.frames[frame]? = some started ∧
      next.history = .broadcast (some started.conn) room data delivered :: state.history ∧
      delivered.Nodup ∧ ∀ tx, tx ∈ delivered ↔
        isMember room tx state.history = true ∧ tx ≠ started.conn := by
  obtain ⟨⟨started, conn⟩, executing, rfl⟩ := map_eq_some_iff.mp fired
  refine ⟨started, _, executing_frame executing, rfl, delivered_nodup kept room _, fun tx => ?_⟩
  rw [mem_delivered_iff kept]
  have free := orderly started conn executing
  refine and_congr_right fun member => not_congr ⟨fun there => free tx there, fun same => ?_⟩
  subst same
  obtain ⟨held, found, -, -, small⟩ := kept.live room _ member
  cases (executing_conn executing).symm.trans found
  rw [opNumber_of_lt small, kept.stored]
  exact ⟨member, _, found, rfl⟩

theorem notify_step {data : WsSend} (kept : Kept state)
    (fired : step state (.notify room data) = some next) :
    ∃ delivered, next.history = .broadcast none room data delivered :: state.history ∧
      delivered.Nodup ∧ ∀ tx, tx ∈ delivered ↔ isMember room tx state.history = true := by
  cases fired
  refine ⟨_, rfl, delivered_nodup kept room 0, fun tx => ?_⟩
  rw [mem_delivered_iff kept, and_iff_left_iff_imp]
  intro member stored
  obtain ⟨conn, found, -, positive, -⟩ := kept.live room tx member
  obtain ⟨-, held, there, zero⟩ := (kept.stored _ _ _).mp stored
  cases found.symm.trans there
  exact positive zero

/-- Over every run in which no connection acts under a number that another holds in the
room, and none joins after its end, a room has the connections that joined it and are
still there, each once; a broadcast reaches each of them but the sender once, and no step
changes the membership of a connection that does not act. -/
theorem rooms_hold_connections
    (reached : StepSystem.Reachable system Orderly state) :
    (∀ room, (state.rooms.members room).Nodup ∧
      ∀ conn, conn ∈ state.rooms.members room ↔ isMember room conn state.history = true) ∧
    (∀ conn, isDetached conn state.history = true →
      ∀ room, conn ∉ state.rooms.members room) ∧
    (∀ frame room data next, Orderly state (.broadcast frame room data) →
      step state (.broadcast frame room data) = some next →
        ∃ started delivered, state.frames[frame]? = some started ∧
          next.history = .broadcast (some started.conn) room data delivered :: state.history ∧
          delivered.Nodup ∧ ∀ conn, conn ∈ delivered ↔
            conn ∈ state.rooms.members room ∧ conn ≠ started.conn) ∧
    (∀ room data next, step state (.notify room data) = some next →
      ∃ delivered, next.history = .broadcast none room data delivered :: state.history ∧
        delivered.Nodup ∧ ∀ conn, conn ∈ delivered ↔ conn ∈ state.rooms.members room) ∧
    ∀ label next conn, Orderly state label → step state label = some next →
      actor state label ≠ some conn →
        ∀ room, conn ∈ next.rooms.members room ↔ conn ∈ state.rooms.members room := by
  have kept := StepSystem.invariant_of_step kept_initial kept_step reached
  refine ⟨fun room => ⟨members_nodup kept room, mem_members_iff kept room⟩, ?_, ?_, ?_, ?_⟩
  · intro conn detached room member
    obtain ⟨held, found, attached, -⟩ := kept.live room conn ((mem_members_iff kept _ _).mp member)
    rw [kept.marked conn held found, detached] at attached
    cases attached
  · intro frame room data next orderly fired
    obtain ⟨started, delivered, running, recorded, once, reaches⟩ :=
      broadcast_step kept orderly fired
    refine ⟨started, delivered, running, recorded, once, fun conn => ?_⟩
    rw [reaches, mem_members_iff kept]
  · intro room data next fired
    obtain ⟨delivered, recorded, once, reaches⟩ := notify_step kept fired
    refine ⟨delivered, recorded, once, fun conn => ?_⟩
    rw [reaches, mem_members_iff kept]
  · intro label next conn orderly fired apart room
    have after := kept_step state label next kept orderly fired
    rw [mem_members_iff after, mem_members_iff kept, isMember_step room fired apart]

/-- Two connections of one route in a room, and the second speaks. -/
theorem rooms_hold_connections_two :
    ∃ state, system.run State.initial
        [.attach 0, .attach 0, .start 0, .start 1, .join 0 "r", .join 1 "r"] = some state ∧
      ∃ next, step state (.broadcast 1 "r" (.text "hi")) = some next ∧
        ∃ started delivered, state.frames[1]? = some started ∧
          next.history = .broadcast (some started.conn) "r" (.text "hi") delivered ::
            state.history ∧
          delivered.Nodup ∧ ∀ conn, conn ∈ delivered ↔
            conn ∈ state.rooms.members "r" ∧ conn ≠ started.conn := by
  refine ⟨_, rfl, _, rfl, ?_⟩
  refine (rooms_hold_connections ⟨[.attach 0, .attach 0, .start 0, .start 1, .join 0 "r",
    .join 1 "r"], ?_⟩).2.2.1 1 "r" (.text "hi") _ ?_ rfl
  · refine ⟨trivial, _, rfl, trivial, _, rfl, trivial, _, rfl, trivial, _, rfl, ?_, _, rfl, ?_, _,
      rfl, rfl⟩
    · intro started conn executing _
      cases executing
      exact ⟨rfl, by decide, nofun⟩
    · intro started conn executing _
      cases executing
      exact ⟨rfl, by decide, nofun⟩
  · intro started conn executing tx stored
    cases executing
    exact (Option.some.inj stored).symm

/-- The first connections of two routes are both numbered one: the second to join takes
the place of the first. And a frame that outlives the end of its connection joins a
room. -/
theorem replaced_by_other_route :
    (∃ state, StepSystem.Reachable system StepSystem.Unrestricted state ∧
      isMember "r" 0 state.history = true ∧ 0 ∉ state.rooms.members "r") ∧
    ∃ state, StepSystem.Reachable system StepSystem.Unrestricted state ∧
      isDetached 0 state.history = true ∧ 0 ∈ state.rooms.members "r" := by
  constructor
  · have path : StepSystem.Path system StepSystem.Unrestricted State.initial
        [.attach 0, .attach 1, .start 0, .start 1, .join 0 "r", .join 1 "r"] _ :=
      StepSystem.path_of_run _ _ _ rfl
    exact ⟨_, ⟨_, path⟩, rfl, by decide⟩
  · have path : StepSystem.Path system StepSystem.Unrestricted State.initial
        [.attach 0, .start 0, .detach 0, .dropSession 0, .join 0 "r"] _ :=
      StepSystem.path_of_run _ _ _ rfl
    exact ⟨_, ⟨_, path⟩, rfl, by decide⟩

end OnlyJs.Bridge.WsHub
