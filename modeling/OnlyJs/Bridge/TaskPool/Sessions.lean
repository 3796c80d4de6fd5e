import OnlyJs.Bridge.TaskPool.Moves

/-!
# Sessions of long tasks

Where no reload is pending on a task that a worker has found wanted and connected, the
worker finds the session it expects. Every session is then torn down once before it is
dropped, unless its runtime was lost, and where no entry is removed under a session,
every session belongs to an entry.
-/

namespace OnlyJs.Bridge.TaskPool

open Lib List

def Phase.attaches (name : String) : Phase → Bool
  | .seen task _ => task.name = name && task.want && !task.connected
  | .aligning task _ => task.name = name && task.want && !task.connected
  | .connecting task _ => task.name = name
  | .looping other _ _ => other = name
  | _ => false

/-- No reload flag is taken for a task found wanted and connected, and no entry is
removed whose task has a session or is about to. -/
def Orderly (state : State) : Label → Prop
  | .work worker .proceed =>
    match state.phase worker with
    | .seen task _ => task.want = true → task.connected = true →
        ((state.registry.get task.name).any TaskEntry.reloadPending) = false
    | _ => True
  | .command (.remove name) => ∀ worker, (state.sessions worker).contains name = false ∧
      (state.phase worker).attaches name = false
  | _ => True

/-- No loop body after the teardown, no second teardown, and nothing dropped that was
neither torn down nor lost. -/
def Proper : List Event → Prop
  | [] => True
  | .looped session :: rest => .tornDown session ∉ rest ∧ Proper rest
  | .tornDown session :: rest => .tornDown session ∉ rest ∧ Proper rest
  | .poisoned _ :: rest => Proper rest
  | .dropped session :: rest =>
    (.tornDown session ∈ rest ∨ .poisoned session ∈ rest) ∧ Proper rest
  | .unwound sessions :: rest => (∀ session ∈ sessions, .tornDown session ∈ rest) ∧ Proper rest

variable {state next : State} {worker : Nat}

/-- What holds of a worker in a phase. -/
def Stands (state : State) (worker : Nat) : Phase → Prop
  | .seen task _ => task.connected = (state.sessions worker).contains task.name
  | .aligning task _ =>
    (task.connected = false → (state.sessions worker)[task.name]? = none) ∧
      (task.want = true → task.connected = true →
        (state.sessions worker)[task.name]? ≠ none)
  | .connecting task _ => (state.sessions worker)[task.name]? = none
  | .looping name session _ => state.created[session]? = some (worker, name) ∧
      .tornDown session ∉ state.history ∧ (state.sessions worker)[name]? = none
  | .tearing name session after => state.created[session]? = some (worker, name) ∧
      .tornDown session ∈ state.history ∧
        ∀ task rest, after = .align task rest → task.connected = true ∧ task.want = false
  | .failing name session _ _ => state.created[session]? = some (worker, name) ∧
      .tornDown session ∈ state.history
  | .panicked => False
  | _ => True

structure Fine (state : State) (worker : Nat) : Prop where
  owned : ∀ (name : String) (session : Nat),
    (state.sessions worker)[name]? = some session →
      state.created[session]? = some (worker, name) ∧ .tornDown session ∉ state.history
  stands : Stands state worker (state.phase worker)

theorem stands_idle (phase : Phase) (idle : phase.idle = true) : Stands state worker phase := by
  cases phase <;> trivial

theorem stands_placed (phase : Phase) (idle : phase.idle = true) :
    Stands (state.place worker phase) worker ((state.place worker phase).phase worker) := by
  rw [phase_place, if_pos rfl]
  exact stands_idle phase idle

/-- A worker that does not move: what is torn down meanwhile is not its own. -/
theorem fine_other {other : Nat} (fine : Fine state other)
    (phase : next.phase other = state.phase other)
    (sessions : next.sessions other = state.sessions other)
    (created : ∀ (session : Nat) (owner : Nat × String),
      state.created[session]? = some owner → next.created[session]? = some owner)
    (torn : ∀ (session : Nat) (name : String), state.created[session]? = some (other, name) →
      (.tornDown session ∈ next.history ↔ .tornDown session ∈ state.history)) :
    Fine next other := by
  constructor
  · intro name session held
    rw [sessions] at held
    obtain ⟨own, fresh⟩ := fine.owned name session held
    exact ⟨created session _ own, fun late => fresh ((torn session name own).mp late)⟩
  · have stands := fine.stands
    rw [phase]
    cases stood : state.phase other with
    | looping name session rest =>
      rw [stood] at stands
      obtain ⟨own, fresh, gone⟩ := stands
      refine ⟨created session _ own, fun late => fresh ((torn session name own).mp late), ?_⟩
      rwa [sessions]
    | tearing name session after =>
      rw [stood] at stands
      obtain ⟨own, torn', rest⟩ := stands
      exact ⟨created session _ own, (torn session name own).mpr torn', rest⟩
    | failing name session error rest =>
      rw [stood] at stands
      exact ⟨created session _ stands.1, (torn session name stands.1).mpr stands.2⟩
    | seen task rest | aligning task rest | connecting task rest =>
      rw [stood] at stands
      simpa only [Stands, sessions] using stands
    | panicked =>
      rw [stood] at stands
      exact stands
    | _ => trivial

variable {table : Std.TreeMap String Nat} {name other : String} {session : Nat}

theorem erase_some (held : (table.erase name)[other]? = some session) :
    name ≠ other ∧ table[other]? = some session := by
  rw [Std.TreeMap.getElem?_erase] at held
  simp only [Std.LawfulEqCmp.compare_eq_iff_eq] at held
  split at held
  · cases held
  · rename_i distinct
    exact ⟨distinct, held⟩

theorem erase_self (table : Std.TreeMap String Nat) (name : String) :
    (table.erase name)[name]? = none := by
  simp

theorem insert_some {held : Nat} (found : (table.insert name session)[other]? = some held) :
    name = other ∧ session = held ∨ name ≠ other ∧ table[other]? = some held := by
  rw [Std.TreeMap.getElem?_insert] at found
  simp only [Std.LawfulEqCmp.compare_eq_iff_eq] at found
  split at found
  · rename_i same
    exact .inl ⟨same, Option.some.inj found⟩
  · rename_i distinct
    exact .inr ⟨distinct, found⟩

/-- What is known of all sessions. -/
structure Tended (state : State) : Prop where
  fine : ∀ worker, Fine state worker
  known : ∀ session, .tornDown session ∈ state.history → session < state.created.length
  proper : Proper state.history

/-- A worker that has taken a snapshot takes no reload flag for a running task. -/
def Unpressed (state : State) (worker : Nat) : Prop :=
  ∀ task rest, state.phase worker = .seen task rest → task.want = true →
    task.connected = true → ((state.registry.get task.name).any TaskEntry.reloadPending) = false

theorem own_moves (tended : Tended state) (unpressed : Unpressed state worker)
    (moved : Moves state worker next) : Fine next worker := by
  have fine := tended.fine worker
  have stands := fine.stands
  cases moved with
  | rest phase registry jobs before after alike =>
    refine ⟨fun name session held => ?_, ?_⟩
    · simp only [sessions_place] at held
      exact fine.owned name session held
    · exact stands_placed phase after
  | see task rest before listed connected =>
    refine ⟨fun name session held => ?_, ?_⟩
    · simp only [sessions_place] at held
      exact fine.owned name session held
    · simpa only [phase_place, if_true, Stands, sessions_place] using connected
  | aligned task rest registry before alike =>
    rw [before] at stands
    refine ⟨fun name session held => ?_, ?_⟩
    · simp only [sessions_place] at held
      exact fine.owned name session held
    · have table : (({ state with registry }.place worker (.aligning task rest)).sessions
          worker) = state.sessions worker := sessions_place _ _ _ _
      simp only [phase_place, Stands, table]
      simp only [Stands] at stands
      constructor
      · intro apart
        apply Std.TreeMap.getElem?_eq_none
        rw [Std.TreeMap.mem_iff_contains, ← stands, apart]
        exact nofun
      · intro _ connected gone
        rw [connected] at stands
        rw [Std.TreeMap.contains_eq_isSome_getElem?, gone] at stands
        cases stands
  | connecting task rest before want apart =>
    rw [before] at stands
    refine ⟨fun name session held => ?_, ?_⟩
    · simp only [sessions_place] at held
      exact fine.owned name session held
    · simpa only [phase_place, if_true, Stands, sessions_place] using stands.1 apart
  | tear name session after registry before found due alike =>
    obtain ⟨own, fresh⟩ := fine.owned name session found
    refine ⟨fun other held there => ?_, ?_⟩
    · simp only [sessions_place, sessions_observe, sessions_hold] at there
      obtain ⟨distinct, there⟩ := erase_some there
      obtain ⟨theirs, untorn⟩ := fine.owned other held there
      refine ⟨theirs, fun torn => ?_⟩
      rcases mem_cons.mp torn with same | late
      · cases same
        rw [own] at theirs
        cases theirs
        exact distinct rfl
      · exact untorn late
    · simp only [phase_place]
      refine ⟨own, mem_cons_self, ?_⟩
      rintro task rest rfl
      obtain ⟨rfl, stood, connected, pressed⟩ := due
      refine ⟨connected, ?_⟩
      by_contra wanted
      rw [unpressed task rest stood (by simpa using wanted) connected] at pressed
      cases pressed
  | loop task rest session before found =>
    obtain ⟨own, fresh⟩ := fine.owned task.name session found
    refine ⟨fun other held there => ?_, ?_⟩
    · simp only [sessions_place, sessions_observe, sessions_hold] at there
      obtain ⟨-, there⟩ := erase_some there
      obtain ⟨theirs, untorn⟩ := fine.owned other held there
      refine ⟨theirs, fun torn => ?_⟩
      rcases mem_cons.mp torn with same | late
      · cases same
      · exact untorn late
    · simp only [phase_place, Stands, sessions_place, sessions_observe, sessions_hold]
      refine ⟨own, fun torn => ?_, erase_self _ _⟩
      rcases mem_cons.mp torn with same | late
      · cases same
      · exact fresh late
  | connect task rest registry before alike =>
    refine ⟨fun other held there => ?_, stands_placed _ rfl⟩
    simp only [sessions_place, sessions_hold] at there
    rcases insert_some there with ⟨rfl, rfl⟩ | ⟨-, there⟩
    · refine ⟨getElem?_concat_length, fun torn => ?_⟩
      exact absurd (tended.known _ torn) (lt_irrefl _)
    · obtain ⟨theirs, untorn⟩ := fine.owned other held there
      have bound := (List.getElem?_eq_some_iff.mp theirs).1
      exact ⟨(getElem?_append_left bound).trans theirs, untorn⟩
  | giveBack name session rest registry before alike =>
    rw [before] at stands
    obtain ⟨own, fresh, -⟩ := stands
    refine ⟨fun other held there => ?_, stands_placed _ rfl⟩
    simp only [sessions_place, sessions_hold] at there
    rcases insert_some there with ⟨rfl, rfl⟩ | ⟨-, there⟩
    · exact ⟨own, fresh⟩
    · exact fine.owned other held there
  | fail name session message rest before =>
    rw [before] at stands
    obtain ⟨own, fresh, gone⟩ := stands
    refine ⟨fun other held there => ?_, ?_⟩
    · simp only [sessions_place, sessions_observe] at there
      obtain ⟨theirs, untorn⟩ := fine.owned other held there
      refine ⟨theirs, fun torn => ?_⟩
      rcases mem_cons.mp torn with same | late
      · cases same
        rw [own] at theirs
        cases theirs
        rw [gone] at there
        cases there
      · exact untorn late
    · simp only [phase_place]
      exact ⟨own, mem_cons_self⟩
  | lose name session rest registry before alike
  | dropFailed name session message rest registry before alike =>
    refine ⟨fun other held there => ?_, stands_placed _ rfl⟩
    simp only [sessions_place] at there
    obtain ⟨theirs, untorn⟩ := fine.owned other held there
    refine ⟨theirs, fun torn => untorn ?_⟩
    simpa only [place_history, observe_history, mem_cons, reduceCtorEq, false_or] using torn
  | dropTorn name session after registry before alike =>
    rw [before] at stands
    refine ⟨fun other held there => ?_, ?_⟩
    · simp only [sessions_place] at there
      obtain ⟨theirs, untorn⟩ := fine.owned other held there
      refine ⟨theirs, fun torn => untorn ?_⟩
      simpa only [place_history, observe_history, mem_cons, reduceCtorEq, false_or]
        using torn
    · simp only [phase_place]
      cases after with
      | align task rest =>
        obtain ⟨connected, unwanted⟩ := stands.2.2 task rest rfl
        refine ⟨fun apart => ?_, fun wanted => ?_⟩
        · rw [connected] at apart
          cases apart
        · rw [unwanted] at wanted
          cases wanted
      | visit rest => exact stands_idle (.visiting rest) rfl
      | close rest => exact stands_idle (.closing rest) rfl
  | panic task rest before want connected missing =>
    rw [before] at stands
    exact absurd missing (stands.2 want connected)

theorem torn_moves (tended : Tended state) (moved : Moves state worker next)
    (torn : .tornDown session ∈ next.history) :
    .tornDown session ∈ state.history ∨ ∃ name, state.created[session]? = some (worker, name) := by
  have fine := tended.fine worker
  have stands := fine.stands
  cases moved with
  | tear name own after registry before found due alike =>
    rcases mem_cons.mp torn with same | late
    · cases same
      exact .inr ⟨name, (fine.owned name _ found).1⟩
    · exact .inl late
  | fail name own message rest before =>
    rw [before] at stands
    rcases mem_cons.mp torn with same | late
    · cases same
      exact .inr ⟨name, stands.1⟩
    · exact .inl late
  | _ =>
    simp only [place_history, observe_history, mem_cons, reduceCtorEq,
      false_or] at torn
    exact .inl torn

theorem history_moves (moved : Moves state worker next) : state.history <:+ next.history := by
  cases moved with
  | lose name session rest registry before alike =>
    exact (suffix_cons _ _).trans (suffix_cons _ _)
  | tear | loop | fail | dropFailed | dropTorn | panic => exact suffix_cons _ _
  | _ => exact suffix_refl _

theorem created_moves (moved : Moves state worker next) : state.created <+: next.created := by
  cases moved with
  | connect task rest registry before alike => exact prefix_append _ _
  | _ => exact prefix_refl _

theorem proper_moves (tended : Tended state) (moved : Moves state worker next) :
    Proper next.history := by
  have fine := tended.fine worker
  have stands := fine.stands
  have proper := tended.proper
  cases moved with
  | tear name session after registry before found due alike =>
    exact ⟨(fine.owned name session found).2, proper⟩
  | loop task rest session before found => exact ⟨(fine.owned task.name session found).2, proper⟩
  | fail name session message rest before =>
    rw [before] at stands
    exact ⟨stands.2.1, proper⟩
  | lose name session rest registry before alike =>
    exact ⟨.inr mem_cons_self, proper⟩
  | dropFailed name session message rest registry before alike =>
    rw [before] at stands
    exact ⟨.inl stands.2, proper⟩
  | dropTorn name session after registry before alike =>
    rw [before] at stands
    exact ⟨.inl stands.2.1, proper⟩
  | panic task rest before want connected missing =>
    rw [before] at stands
    exact absurd missing (stands.2 want connected)
  | _ => exact proper

theorem tended_moves (tended : Tended state) (unpressed : Unpressed state worker)
    (moved : Moves state worker next) : Tended next := by
  have longer := (created_moves moved).length_le
  refine ⟨fun other => ?_, fun session torn => ?_, proper_moves tended moved⟩
  · by_cases own : other = worker
    · subst own
      exact own_moves tended unpressed moved
    · obtain ⟨phase, sessions⟩ := others_moves moved own
      refine fine_other (tended.fine other) phase sessions (fun session owner found => ?_)
        fun session name theirs => ⟨fun torn => ?_, fun torn => ?_⟩
      · obtain ⟨bound, rfl⟩ := List.getElem?_eq_some_iff.mp found
        have kept := (created_moves moved).getElem bound
        exact List.getElem?_eq_some_iff.mpr ⟨bound.trans_le longer, kept.symm⟩
      · rcases torn_moves tended moved torn with late | ⟨name', mine⟩
        · exact late
        · rw [theirs] at mine
          cases mine
          exact absurd rfl own
      · exact (history_moves moved).mem torn
  · rcases torn_moves tended moved torn with late | ⟨name, mine⟩
    · exact (tended.known session late).trans_le longer
    · exact (List.getElem?_eq_some_iff.mp mine).1.trans_le longer

theorem unpressed_of_orderly {timeout : Nat} {input : Input}
    (orderly : Orderly state (.work worker input))
    (worked : work timeout state worker input = some next) : Unpressed state worker := by
  intro task rest stood
  cases input with
  | proceed =>
    simp only [Orderly, stood] at orderly
    exact orderly
  | connected result | fired result | finished result =>
    simp only [work, stood] at worked
    cases worked

theorem tended_same (tended : Tended state) (workers : next.workers = state.workers)
    (created : next.created = state.created) (history : next.history = state.history) :
    Tended next := by
  refine ⟨fun worker => ?_, fun session torn => ?_, history ▸ tended.proper⟩
  · apply fine_other (tended.fine worker)
    · simp only [State.phase, workers]
    · simp only [State.sessions, workers]
    · intro session owner found
      rwa [created]
    · intro session name own
      rw [history]
  · rw [history] at torn
    exact (tended.known session torn).trans_eq (congrArg List.length created.symm)

variable {timeout workers : Nat} {registry : Registry} {resume : Bool}

theorem tended_step :
    StepSystem.Preserved (system timeout registry workers resume) Orderly Tended := by
  intro state label next tended orderly fired
  cases label with
  | work worker input =>
    exact tended_moves tended (unpressed_of_orderly orderly fired) (work_moves fired)
  | command command | submit job | shutdown | resume =>
    cases fired
    exact tended_same tended rfl rfl rfl

theorem tended_initial : Tended (spawn registry workers resume) := by
  refine ⟨fun worker => ⟨fun name session held => ?_, ?_⟩, nofun, trivial⟩
  · cases held
  · apply stands_idle
    simp only [State.phase, spawn]
    split <;> rfl

/-- A session is held by a worker, in its table or in hand, or has been dropped. -/
def Located (state : State) (session : Nat) : Prop :=
  (∃ (worker : Nat) (name : String), (state.sessions worker)[name]? = some session) ∨
    (∃ worker, (state.phase worker).hand = some session) ∨ .dropped session ∈ state.history

theorem located_insert {held : Nat} (free : table[name]? = none)
    (found : table[other]? = some held) :
    (table.insert name session)[other]? = some held := by
  rw [Std.TreeMap.getElem?_insert]
  simp only [Std.LawfulEqCmp.compare_eq_iff_eq]
  split
  · rename_i same
    rw [← same, free] at found
    cases found
  · exact found

theorem erase_found {held : Nat} (name : String) (found : table[other]? = some held) :
    name = other ∨ (table.erase name)[other]? = some held := by
  rw [Std.TreeMap.getElem?_erase]
  simp only [Std.LawfulEqCmp.compare_eq_iff_eq]
  by_cases same : name = other
  · exact .inl same
  · exact .inr (by rw [if_neg same]; exact found)

theorem located_moves (located : ∀ session < state.created.length, Located state session)
    (moved : Moves state worker next)
    (held : ∀ (name : String) (session : Nat),
      (state.sessions worker)[name]? = some session → Located next session)
    (hand : ∀ session, (state.phase worker).hand = some session → Located next session)
    (made : ∀ session, state.created.length ≤ session → session < next.created.length →
      Located next session) :
    ∀ session < next.created.length, Located next session := by
  intro session bound
  rcases Nat.lt_or_ge session state.created.length with old | fresh
  · rcases located session old with ⟨other, name, found⟩ | ⟨other, found⟩ | gone
    · by_cases own : other = worker
      · subst own
        exact held name session found
      · exact .inl ⟨other, name, (others_moves moved own).2 ▸ found⟩
    · by_cases own : other = worker
      · subst own
        exact hand session found
      · exact .inr (.inl ⟨other, (others_moves moved own).1 ▸ found⟩)
    · exact .inr (.inr ((history_moves moved).mem gone))
  · exact made session fresh bound

theorem accounted_moves (tended : Tended state) (moved : Moves state worker next)
    (located : ∀ session < state.created.length, Located state session) :
    ∀ session < next.created.length, Located next session := by
  have fine := tended.fine worker
  have stands := fine.stands
  -- most steps make no session and leave the table alone
  have made : next.created = state.created → ∀ session, state.created.length ≤ session →
      session < next.created.length → Located next session := by
    intro same session lower upper
    rw [same] at upper
    omega
  have kept : next.sessions worker = state.sessions worker → ∀ (name : String) (session : Nat),
      (state.sessions worker)[name]? = some session → Located next session := by
    intro same name session found
    exact .inl ⟨worker, name, same ▸ found⟩
  have empty : ∀ phase, state.phase worker = phase → phase.hand = none →
      ∀ session, (state.phase worker).hand = some session → Located next session := by
    intro phase stood none session held
    rw [stood, none] at held
    cases held
  apply located_moves located moved
  case held =>
    cases moved with
    | tear name session after registry before found due alike =>
      intro other held there
      rcases erase_found name there with same | still
      · subst same
        rw [found] at there
        cases there
        exact .inr (.inl ⟨worker, by simp [Phase.hand]⟩)
      · exact .inl ⟨worker, other, by simpa using still⟩
    | loop task rest session before found =>
      intro other held there
      rcases erase_found task.name there with same | still
      · subst same
        rw [found] at there
        cases there
        exact .inr (.inl ⟨worker, by simp [Phase.hand]⟩)
      · exact .inl ⟨worker, other, by simpa using still⟩
    | connect task rest registry before alike =>
      rw [before] at stands
      intro other held there
      exact .inl ⟨worker, other, by simpa using located_insert stands there⟩
    | giveBack name session rest registry before alike =>
      rw [before] at stands
      intro other held there
      exact .inl ⟨worker, other, by simpa using located_insert stands.2.2 there⟩
    | panic task rest before want connected missing =>
      rw [before] at stands
      exact absurd missing (stands.2 want connected)
    | _ => exact kept (sessions_place _ _ _ _)
  case hand =>
    cases moved with
    | rest phase registry jobs before after alike => exact empty _ rfl before
    | see task rest before listed connected | aligned task rest registry before alike
    | connecting task rest before want apart => exact empty _ before rfl
    | tear name session after registry before found due alike => exact empty _ rfl before
    | loop task rest session before found | connect task rest registry before alike =>
      exact empty _ before rfl
    | giveBack name session rest registry before alike =>
      intro held there
      rw [before] at there
      cases there
      exact .inl ⟨worker, name, by simp⟩
    | fail name session message rest before =>
      intro held there
      rw [before] at there
      cases there
      exact .inr (.inl ⟨worker, by simp [Phase.hand]⟩)
    | lose name session rest registry before alike
    | dropFailed name session message rest registry before alike
    | dropTorn name session after registry before alike =>
      intro held there
      rw [before] at there
      cases there
      exact .inr (.inr mem_cons_self)
    | panic task rest before want connected missing => exact empty _ before rfl
  case made =>
    cases moved with
    | connect task rest registry before alike =>
      intro session lower upper
      simp only [place_created, hold_created, length_append, length_singleton] at upper
      have same : session = state.created.length := by omega
      subst same
      exact .inl ⟨worker, task.name, by simp⟩
    | _ => exact made rfl

/-- Every session that is held, or about to be, has an entry in the registry. -/
def Registered (state : State) : Prop :=
  ∀ worker name, ((state.sessions worker).contains name = true ∨
    (state.phase worker).attaches name = true) → (state.registry.get name).isSome = true

theorem contains_of_found (found : table[name]? = some session) : table.contains name = true := by
  rw [Std.TreeMap.contains_eq_isSome_getElem?, found]
  rfl

theorem attaches_idle {phase : Phase} (idle : phase.idle = true) (name : String) :
    phase.attaches name = false := by
  cases phase <;> first | rfl | cases idle

/-- What the worker holds after its step it held or was about to, or it has just seen the
entry. -/
theorem attached_moves (tended : Tended state) (moved : Moves state worker next)
    (attached : (next.sessions worker).contains name = true ∨
      (next.phase worker).attaches name = true) :
    (state.sessions worker).contains name = true ∨ (state.phase worker).attaches name = true ∨
      (state.registry.get name).isSome = true := by
  have stands := (tended.fine worker).stands
  cases moved with
  | rest phase registry jobs before after alike =>
    simp only [sessions_place, phase_place, if_true, attaches_idle after, Bool.false_eq_true,
      or_false] at attached
    exact .inl attached
  | see task rest before listed connected =>
    simp only [sessions_place, phase_place, if_true] at attached
    rcases attached with held | seen
    · exact .inl held
    · simp only [Phase.attaches, Bool.and_eq_true, decide_eq_true_eq] at seen
      exact .inr (.inr (seen.1.1 ▸ listed))
  | aligned task rest registry before alike =>
    simp only [sessions_place, phase_place] at attached
    rcases attached with held | seen
    · exact .inl held
    · exact .inr (.inl (by rw [before]; exact seen))
  | connecting task rest before want apart =>
    simp only [sessions_place, phase_place, if_true] at attached
    rcases attached with held | seen
    · exact .inl held
    · refine .inr (.inl ?_)
      rw [before]
      simp only [Phase.attaches] at seen
      simp [Phase.attaches, seen, want, apart]
  | tear torn session after registry before found due alike =>
    simp only [sessions_place, sessions_observe, sessions_hold, phase_place, if_true,
      Phase.attaches, Bool.false_eq_true, or_false] at attached
    rw [Std.TreeMap.contains_erase, Bool.and_eq_true] at attached
    exact .inl attached.2
  | loop task rest session before found =>
    simp only [sessions_place, sessions_observe, sessions_hold, phase_place, if_true,
      Phase.attaches, decide_eq_true_eq] at attached
    rcases attached with held | same
    · rw [Std.TreeMap.contains_erase, Bool.and_eq_true] at held
      exact .inl held.2
    · exact .inl (same ▸ contains_of_found found)
  | connect task rest registry before alike =>
    simp only [sessions_place, sessions_hold, phase_place, if_true, Phase.attaches,
      Bool.false_eq_true, or_false] at attached
    rw [Std.TreeMap.contains_insert, Bool.or_eq_true] at attached
    rcases attached with same | held
    · refine .inr (.inl ?_)
      rw [before]
      simpa [Phase.attaches] using same
    · exact .inl held
  | giveBack held session rest registry before alike =>
    simp only [sessions_place, sessions_hold, phase_place, if_true, Phase.attaches,
      Bool.false_eq_true, or_false] at attached
    rw [Std.TreeMap.contains_insert, Bool.or_eq_true] at attached
    rcases attached with same | there
    · refine .inr (.inl ?_)
      rw [before]
      simpa [Phase.attaches] using same
    · exact .inl there
  | fail other session message rest before | lose other session rest registry before alike
  | dropFailed other session message rest registry before alike =>
    simp only [sessions_place, phase_place, if_true, Phase.attaches,
      Bool.false_eq_true, or_false] at attached
    exact .inl attached
  | dropTorn other session after registry before alike =>
    rw [before] at stands
    simp only [sessions_place, phase_place] at attached
    rcases attached with held | seen
    · exact .inl held
    · exfalso
      cases after with
      | align task rest =>
        obtain ⟨-, unwanted⟩ := stands.2.2 task rest rfl
        simp [Next.phase, Phase.attaches, unwanted] at seen
      | visit rest | close rest => cases seen
  | panic task rest before want connected missing =>
    rw [before] at stands
    exact absurd missing (stands.2 want connected)

theorem registered_moves (tended : Tended state) (registered : Registered state)
    (moved : Moves state worker next) : Registered next := by
  intro other name attached
  rw [alike_isSome (registry_moves moved) name]
  by_cases own : other = worker
  · subst own
    rcases attached_moves tended moved attached with held | seen | there
    · exact registered other name (.inl held)
    · exact registered other name (.inr seen)
    · exact there
  · obtain ⟨phase, sessions⟩ := others_moves moved own
    rw [phase, sessions] at attached
    exact registered other name attached

theorem isSome_update (registry : Registry) (name : String) (change : TaskEntry → TaskEntry)
    (other : String) :
    ((registry.update name change).get other).isSome = (registry.get other).isSome := by
  rw [Registry.get_update]
  split
  · exact Option.isSome_map
  · rfl

theorem registered_command (registered : Registered state) (command : Command)
    (orderly : Orderly state (.command command)) :
    Registered { state with registry := state.registry.command command } := by
  intro worker name attached
  have there := registered worker name attached
  cases command with
  | remove removed =>
    have free := orderly worker
    simp only [Registry.command, Registry.get_remove]
    split
    · rename_i same
      rw [← same] at attached
      rcases attached with held | seen
      · rw [show (state.sessions worker).contains removed = true from held] at free
        cases free.1
      · rw [show (state.phase worker).attaches removed = true from seen] at free
        cases free.2
    · exact there
  | upsert entry =>
    simp only [Registry.command, Registry.get_upsert]
    split
    · rfl
    · exact there
  | setEnabled other enabled | start other | requestReload other | setCronExpr other expr now =>
    exact (isSome_update _ _ _ name).trans there

/-- What holds of every state of an orderly run. -/
structure Settled (state : State) : Prop where
  tended : Tended state
  located : ∀ session < state.created.length, Located state session
  registered : Registered state

theorem settled_step :
    StepSystem.Preserved (system timeout registry workers resume) Orderly Settled := by
  intro state label next settled orderly fired
  have tended := tended_step state label next settled.tended orderly fired
  cases label with
  | work worker input =>
    have moved := work_moves fired
    exact ⟨tended, accounted_moves settled.tended moved settled.located,
      registered_moves settled.tended settled.registered moved⟩
  | command command =>
    cases fired
    exact ⟨tended, settled.located, registered_command settled.registered command orderly⟩
  | submit job | shutdown | resume =>
    cases fired
    exact ⟨tended, settled.located, settled.registered⟩

theorem settled_initial : Settled (spawn registry workers resume) := by
  refine ⟨tended_initial, nofun, fun worker name attached => ?_⟩
  rcases attached with held | seen
  · cases held
  · simp only [State.phase, spawn] at seen
    split at seen <;> cases seen

/-- Over every run in which no reload flag is taken for a task found wanted and connected
and no entry is removed under a session: no worker panics; no loop body runs after the
teardown of its session, which happens once; a session is dropped only when torn down or
lost in a loop body, and until then it is held; and every session held belongs to an
entry of the registry. -/
theorem sessions_tended
    (reached : StepSystem.Reachable (system timeout registry workers resume) Orderly state) :
    (∀ worker, state.phase worker ≠ .panicked) ∧ Proper state.history ∧
      (∀ session < state.created.length, Located state session) ∧
        ∀ worker name, (state.sessions worker).contains name = true →
          (state.registry.get name).isSome = true := by
  have settled := StepSystem.invariant_of_step settled_initial settled_step reached
  refine ⟨fun worker stood => ?_, settled.tended.proper, settled.located,
    fun worker name held => settled.registered worker name (.inl held)⟩
  have stands := (settled.tended.fine worker).stands
  rw [stood] at stands
  exact stands

/-- A task is connected, disabled and torn down. -/
theorem sessions_tended_stop :
    ∃ state : State, state.history = [.dropped 0, .tornDown 0] ∧
      (∀ worker, state.phase worker ≠ .panicked) ∧ Proper state.history := by
  have path : StepSystem.Path (system 0 ((∅ : Registry).upsert (.long "a" "a.ts")) 1 true)
      Orderly (spawn ((∅ : Registry).upsert (.long "a" "a.ts")) 1 true)
      [.work 0 .proceed, .work 0 .proceed, .work 0 .proceed, .work 0 .proceed,
        .work 0 .proceed, .work 0 .proceed, .work 0 (.connected (.ok ())), .work 0 .proceed,
        .command (.setEnabled "a" false), .work 0 .proceed, .work 0 .proceed, .work 0 .proceed,
        .work 0 .proceed, .work 0 .proceed, .work 0 (.fired .ok)] _ :=
    ⟨trivial, _, rfl, trivial, _, rfl, trivial, _, rfl, trivial, _, rfl, fun _ _ => rfl, _, rfl,
      trivial, _, rfl, trivial, _, rfl, trivial, _, rfl, trivial, _, rfl, trivial, _, rfl,
      trivial, _, rfl, trivial, _, rfl, fun _ _ => rfl, _, rfl, trivial, _, rfl, trivial, _, rfl,
      rfl⟩
  have held := sessions_tended ⟨_, path⟩
  exact ⟨_, rfl, held.1, held.2.1⟩

/-- A reload of a running task ends its worker, and the session of another task goes
without a teardown. And a task keeps its session after its entry is gone. -/
theorem reload_panics :
    (∃ state, StepSystem.Reachable
        (system 0 (((∅ : Registry).upsert (.long "a" "a.ts")).upsert (.long "b" "b.ts")) 1 true)
        StepSystem.Unrestricted state ∧
      state.phase 0 = .panicked ∧ Event.unwound [1] ∈ state.history ∧
        Event.tornDown 1 ∉ state.history) ∧
    ∃ state, StepSystem.Reachable
        (system 0 ((∅ : Registry).upsert (.long "a" "a.ts")) 1 true)
        StepSystem.Unrestricted state ∧
      state.phase 0 = .top ∧ (state.sessions 0).contains "a" = true ∧
        state.registry.get "a" = none := by
  constructor
  · have path : StepSystem.Path
        (system 0 (((∅ : Registry).upsert (.long "a" "a.ts")).upsert (.long "b" "b.ts")) 1 true)
        StepSystem.Unrestricted
        (spawn (((∅ : Registry).upsert (.long "a" "a.ts")).upsert (.long "b" "b.ts")) 1 true)
        [.work 0 .proceed, .work 0 .proceed, .work 0 .proceed, .work 0 .proceed,
          .work 0 .proceed, .work 0 .proceed, .work 0 (.connected (.ok ())), .work 0 .proceed,
          .work 0 .proceed, .work 0 .proceed, .work 0 (.connected (.ok ())), .work 0 .proceed,
          .work 0 .proceed, .work 0 .proceed, .command (.requestReload "a"), .work 0 .proceed,
          .work 0 .proceed, .work 0 (.fired .ok), .work 0 .proceed] _ :=
      StepSystem.path_of_run _ _ _ rfl
    exact ⟨_, ⟨_, path⟩, rfl, by decide, by decide⟩
  · have path : StepSystem.Path
        (system 0 ((∅ : Registry).upsert (.long "a" "a.ts")) 1 true) StepSystem.Unrestricted
        (spawn ((∅ : Registry).upsert (.long "a" "a.ts")) 1 true)
        [.work 0 .proceed, .work 0 .proceed, .work 0 .proceed, .work 0 .proceed,
          .work 0 .proceed, .work 0 .proceed, .work 0 (.connected (.ok ())), .work 0 .proceed,
          .command (.remove "a")] _ :=
      StepSystem.path_of_run _ _ _ rfl
    exact ⟨_, ⟨_, path⟩, rfl, rfl, rfl⟩

end OnlyJs.Bridge.TaskPool
