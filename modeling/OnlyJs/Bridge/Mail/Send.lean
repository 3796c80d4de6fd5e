import OnlyJs.Bridge.Mail.Results
import OnlyJs.Lib.StepSystem

/-!
# Sending mail

Any number of calls of `handle_send`, deliveries of the plugin, look-ups and advances of the
clock, interleaved at the lock sections of the store. The plugin is arbitrary: it answers a
submission with any value or an error, and delivers any payload at any time.
-/

namespace OnlyJs.Bridge.Mail

open Lib List Function Lib.StepSystem

inductive MailMode where
  | send
  | sync
  | enqueue
  | raw
deriving DecidableEq

structure Config extends StoreConfig where
  /-- The random prefix of the process. -/
  jobPrefix : String

def nextJobId (config : Config) (number : Nat) : String :=
  config.jobPrefix ++ "-" ++ toString number

/-- Where a call of `handle_send` stands. -/
inductive Phase where
  | idle
  | numbered (mode : MailMode) (owner : MailOwner) (jobId : String)
  /-- The plugin has the request. -/
  | submitting (mode : MailMode) (owner : MailOwner) (jobId : String)
  /-- The submission was refused: about to store its result. -/
  | settling (owner : MailOwner) (jobId : String) (envelope flat : Value)
  /-- The call has returned its envelope; an enqueue that got as far has a job. -/
  | returned (job : Option (MailOwner × String)) (envelope : Value)

structure State where
  entries : Entries
  now : Nat
  sequence : Nat
  calls : Nat → Phase
  /-- Every slot ever reserved, oldest first. -/
  reserved : List Ticket
  /-- Every result ever stored. -/
  fills : List (String × Value)
  published : List Value
  /-- What look-ups have shown, and to whom. -/
  seen : List (String × MailOwner × Value)

inductive Action where
  /-- Numbers the request unless it is invalid. -/
  | begin (mode : MailMode) (key : String) (ctx : CallCtx) (invalid : Option String)
  | proceed
  | answer (answer : Except String Value)

inductive Label where
  | call (id : Nat) (action : Action)
  /-- A frame of the plugin; `none` when it is no JSON. -/
  | deliver (payload : Option Value)
  | look (jobId key : String) (ctx : CallCtx)
  | elapse (duration : Nat)

def Phase.enter (state : State) (id : Nat) (phase : Phase) : State :=
  { state with calls := Function.update state.calls id phase }

/-- The envelope `submit` gives. -/
def submitted : Except String Value → Value
  | .ok value => ensureEnvelope value
  | .error error => undelivered error

/-- What follows an answer of the plugin. -/
def settle (mode : MailMode) (owner : MailOwner) (jobId : String)
    (answer : Except String Value) : Phase :=
  if mode ≠ .enqueue then .returned none (submitted answer)
  else
    let envelope := pinJobId (submitted answer) jobId
    if codeOf envelope = some 0 then .returned (some (owner, jobId)) envelope
    else
      match flattenResult envelope with
      | some flat => .settling owner jobId envelope flat
      | none => .returned (some (owner, jobId)) envelope

def reserveSlot (config : Config) (state : State) (owner : MailOwner) (jobId : String) : State :=
  let outcome := reserve config.toStoreConfig state.now jobId owner state.entries
  { state with
    entries := outcome.2
    reserved := if outcome.1 then state.reserved ++ [{ jobId, owner, issued := state.now }]
      else state.reserved }

def completeSlot (config : Config) (state : State) (jobId : String) (value : Value) :
    CompleteOutcome × State :=
  let outcome := complete config.toStoreConfig state.now jobId value state.entries
  (outcome.1, { state with
    entries := outcome.2
    fills := if outcome.1 = .filled then (jobId, value) :: state.fills else state.fills })

def route (config : Config) (state : State) (payload : Option Value) : State :=
  match payload.bind flattenResult with
  | none => state
  | some flat =>
    let jobId := ((flat.get "jobId").bind Value.asStr).getD ""
    match completeSlot config state jobId flat with
    | (.filled, state) => { state with published := flat :: state.published }
    | (_, state) => state

def callStep (config : Config) (state : State) (id : Nat) : Action → Option State
  | .begin mode key ctx invalid =>
    match state.calls id, invalid with
    | .idle, some message => some (Phase.enter state id (.returned none (code5 message)))
    | .idle, none =>
      some (Phase.enter { state with sequence := state.sequence + 1 } id
        (.numbered mode (.new key ctx) (nextJobId config state.sequence)))
    | _, _ => none
  | .proceed =>
    match state.calls id with
    | .numbered mode owner jobId =>
      let reserved := if mode = .enqueue then reserveSlot config state owner jobId else state
      some (Phase.enter reserved id (.submitting mode owner jobId))
    | .settling owner jobId envelope flat =>
      some (Phase.enter (completeSlot config state jobId flat).2 id
        (.returned (some (owner, jobId)) envelope))
    | _ => none
  | .answer answer =>
    match state.calls id with
    | .submitting mode owner jobId => some (Phase.enter state id (settle mode owner jobId answer))
    | _ => none

def step (config : Config) (state : State) : Label → Option State
  | .call id action => callStep config state id action
  | .deliver payload => some (route config state payload)
  | .look jobId key ctx =>
    let owner := MailOwner.new key ctx
    let outcome := get config.toStoreConfig state.now jobId owner state.entries
    some { state with
      entries := outcome.2
      seen := (outcome.1.map fun value => (jobId, owner, value)).toList ++ state.seen }
  | .elapse duration => some { state with now := state.now + duration }

def init : State where
  entries := []
  now := 0
  sequence := 1
  calls := fun _ => .idle
  reserved := []
  fills := []
  published := []
  seen := []

def system (config : Config) : System State Label where
  init := init
  step := step config

/-- Results are owned and written once, and no refused submission stays without one. -/
structure Sound (config : Config) (state : State) : Prop where
  /-- Every job has one owner. -/
  owned : (state.reserved.map Ticket.jobId).Nodup
  /-- A job gets one result. -/
  once : (state.fills.map Prod.fst).Nodup
  /-- Only a reserved job gets one. -/
  issued : ∀ jobId value, (jobId, value) ∈ state.fills →
    ∃ ticket ∈ state.reserved, ticket.jobId = jobId
  /-- What the store holds is what the job got. -/
  stored : ∀ entry ∈ state.entries, ∀ value, entry.result = some value →
    (entry.jobId, value) ∈ state.fills
  /-- A look-up shows the result of the job, to its owner. -/
  visible : ∀ jobId owner value, (jobId, owner, value) ∈ state.seen →
    (∃ ticket ∈ state.reserved, ticket.jobId = jobId ∧ ticket.owner = owner) ∧
      (jobId, value) ∈ state.fills
  whitelisted : ∀ jobId value, (jobId, value) ∈ state.fills → Whitelisted value
  published : ∀ value ∈ state.published, Whitelisted value
  /-- The job an enqueue returns is the one reserved for its caller. -/
  receipt : ∀ id owner jobId envelope,
    state.calls id = .returned (some (owner, jobId)) envelope →
      jobIdOf envelope = some jobId ∧
        ∃ ticket ∈ state.reserved, ticket.jobId = jobId ∧ ticket.owner = owner
  /-- A refused submission has a result its owner reads, while the slot is young and fewer
  than cap slots were reserved after it. -/
  settled : ∀ id owner jobId envelope,
    state.calls id = .returned (some (owner, jobId)) envelope → codeOf envelope ≠ some 0 →
      ∀ ticket newer, ticket.jobId = jobId → ticket :: newer <:+ state.reserved →
        newer.length < config.cap → young config.ttl state.now ticket = true →
          ∃ value, (get config.toStoreConfig state.now jobId owner state.entries).1 = some value

/-- A plugin that refuses an enqueue says so with an integer code and a message, unless it
has delivered a result for the job before. -/
def Orderly (state : State) : Label → Prop
  | .call id (.answer (.ok value)) =>
    match state.calls id with
    | .submitting .enqueue _ jobId =>
      codeOf (ensureEnvelope value) ≠ some 0 →
        (codeOf (ensureEnvelope value)).isSome = true ∧
          (messageOf (ensureEnvelope value)).isSome = true ∨
        ∃ result, (jobId, result) ∈ state.fills
    | _ => True
  | _ => True

/-- What ties the slots to every reservation and every result there ever was. -/
structure Ledger (config : StoreConfig) (now : Nat) (entries : Entries) (reserved : List Ticket)
    (fills : List (String × Value)) : Prop where
  owned : (reserved.map Ticket.jobId).Nodup
  once : (fills.map Prod.fst).Nodup
  issued : ∀ jobId value, (jobId, value) ∈ fills → ∃ ticket ∈ reserved, ticket.jobId = jobId
  whitelisted : ∀ jobId value, (jobId, value) ∈ fills → Whitelisted value
  stored : ∀ entry ∈ entries, ∀ value, entry.result = some value → (entry.jobId, value) ∈ fills
  empty : ∀ entry ∈ entries, entry.result = none → ∀ value, (entry.jobId, value) ∉ fills
  tickets : (entries.map StoreEntry.toTicket).Sublist reserved
  ordered : reserved.Pairwise fun first second => first.issued ≤ second.issued
  past : ∀ ticket ∈ reserved, ticket.issued ≤ now
  kept : ∀ ticket newer, ticket :: newer <:+ reserved → newer.length < config.cap →
    young config.ttl now ticket = true → ticket :: newer <:+ entries.map StoreEntry.toTicket

variable {config : StoreConfig} {now : Nat} {entries : Entries} {reserved : List Ticket}
  {fills : List (String × Value)} {jobId : String} {owner : MailOwner} {value : Value}

theorem Ledger.distinct (ledger : Ledger config now entries reserved fills) :
    (entries.map fun entry => entry.jobId).Nodup := by
  have ids := ledger.owned.sublist (ledger.tickets.map Ticket.jobId)
  rwa [map_map] at ids

theorem Ledger.ticket_mem (ledger : Ledger config now entries reserved fills) {entry : StoreEntry}
    (mem : entry ∈ entries) : entry.toTicket ∈ reserved :=
  ledger.tickets.subset (mem_map.mpr ⟨entry, mem, rfl⟩)

theorem young_of_later {ttl later : Nat} {ticket : Ticket} (past : now ≤ later)
    (fresh : young ttl later ticket = true) : young ttl now ticket = true := by
  have bound := of_decide_eq_true fresh
  apply decide_eq_true
  omega

theorem young_suffix {ttl : Nat} {ticket : Ticket} {newer : List Ticket}
    (ordered : reserved.Pairwise fun first second => first.issued ≤ second.issued)
    (suffix : ticket :: newer <:+ reserved) (fresh : young ttl now ticket = true) :
    ∀ other ∈ ticket :: newer, young ttl now other = true := by
  obtain ⟨later, _⟩ := pairwise_cons.mp (ordered.sublist suffix.sublist)
  have bound := of_decide_eq_true fresh
  intro other mem
  rcases mem_cons.mp mem with rfl | mem
  · exact fresh
  · have after := later other mem
    apply decide_eq_true
    omega

section

variable (ledger : Ledger config now entries reserved fills)
include ledger

theorem ledger_elapse (duration : Nat) :
    Ledger config (now + duration) entries reserved fills :=
  { ledger with
    past := fun ticket mem => Nat.le_trans (ledger.past ticket mem) (Nat.le_add_right _ _)
    kept := fun ticket newer suffix room fresh =>
      ledger.kept ticket newer suffix room (young_of_later (Nat.le_add_right _ _) fresh) }

theorem ledger_purge :
    Ledger config now (purge config.ttl now entries) reserved fills :=
  { ledger with
    stored := fun entry mem => ledger.stored entry (purge_sublist.subset mem)
    empty := fun entry mem => ledger.empty entry (purge_sublist.subset mem)
    tickets := (purge_sublist.map StoreEntry.toTicket).trans ledger.tickets
    kept := by
      intro ticket newer suffix room fresh
      rw [purge_tickets]
      apply Retention.suffix_purge (ledger.kept ticket newer suffix room fresh)
      exact young_suffix ledger.ordered suffix fresh }

theorem ledger_fill (white : Whitelisted value)
    (vacant : ∃ entry ∈ entries, entry.jobId = jobId ∧ entry.result = none) :
    Ledger config now (fill jobId value entries) reserved ((jobId, value) :: fills) := by
  obtain ⟨slot, found, rfl, unset⟩ := vacant
  refine { ledger with
    once := ?_, issued := ?_, whitelisted := ?_, stored := ?_, empty := ?_, tickets := ?_
    kept := ?_ }
  · refine nodup_cons.mpr ⟨?_, ledger.once⟩
    intro listed
    obtain ⟨⟨job, old⟩, mem, same⟩ := mem_map.mp listed
    cases same
    exact ledger.empty slot found unset old mem
  · intro job result mem
    rcases mem_cons.mp mem with same | mem
    · cases same
      exact ⟨slot.toTicket, ledger.ticket_mem found, rfl⟩
    · exact ledger.issued job result mem
  · intro job result mem
    rcases mem_cons.mp mem with same | mem
    · cases same
      exact white
    · exact ledger.whitelisted job result mem
  · intro entry mem result present
    rcases mem_fill mem with old | ⟨same, new⟩
    · exact mem_cons_of_mem _ (ledger.stored entry old result present)
    · cases present.symm.trans new
      rw [same]
      exact mem_cons_self
  · intro entry mem absent result listed
    have other : entry.jobId ≠ slot.jobId := by
      intro same
      cases absent.symm.trans (fill_result ledger.distinct mem same)
    rcases mem_fill mem with old | ⟨same, _⟩
    · rcases mem_cons.mp listed with same | listed
      · exact other (Prod.mk.inj same).1
      · exact ledger.empty entry old absent result listed
    · exact other same
  · rw [fill_tickets]
    exact ledger.tickets
  · rw [fill_tickets]
    exact ledger.kept

theorem ledger_join (new : jobId ∉ reserved.map Ticket.jobId) :
    Ledger config now
      (Retention.join config.cap entries { jobId, owner, issued := now, result := none })
      (reserved ++ [{ jobId, owner, issued := now }]) fills := by
  have unfilled (result : Value) : (jobId, result) ∉ fills := by
    intro mem
    obtain ⟨ticket, listed, same⟩ := ledger.issued jobId result mem
    exact new (mem_map.mpr ⟨ticket, listed, same⟩)
  have inside {entry : StoreEntry} (mem : entry ∈ Retention.join config.cap entries
      { jobId, owner, issued := now, result := none }) :
      entry ∈ entries ∨ entry = { jobId, owner, issued := now, result := none } := by
    rcases mem_append.mp ((Retention.evict_sublist _ _).subset mem) with old | last
    · exact .inl old
    · exact .inr (mem_singleton.mp last)
  have mapped : (Retention.join config.cap entries
      { jobId, owner, issued := now, result := none }).map StoreEntry.toTicket =
        Retention.join config.cap (entries.map StoreEntry.toTicket)
          { jobId, owner, issued := now } := by
    simp only [Retention.join, Retention.evict, map_drop, map_append, length_append,
      length_map, map_cons, map_nil, length_cons, length_nil]
  refine { ledger with
    owned := ?_, issued := ?_, stored := ?_, empty := ?_, tickets := ?_, ordered := ?_
    past := ?_, kept := ?_ }
  · rw [map_append]
    refine List.Nodup.append ledger.owned (nodup_singleton _) ?_
    intro job listed last
    cases mem_singleton.mp last
    exact new listed
  · intro job result mem
    obtain ⟨ticket, listed, same⟩ := ledger.issued job result mem
    exact ⟨ticket, mem_append_left _ listed, same⟩
  · intro entry mem result present
    rcases inside mem with old | rfl
    · exact ledger.stored entry old result present
    · cases present
  · intro entry mem absent result
    rcases inside mem with old | rfl
    · exact ledger.empty entry old absent result
    · exact unfilled result
  · rw [mapped]
    exact (Retention.evict_sublist _ _).trans (ledger.tickets.append (List.Sublist.refl _))
  · refine pairwise_append.mpr ⟨ledger.ordered, pairwise_singleton _ _, ?_⟩
    intro ticket listed last mem
    cases mem_singleton.mp mem
    exact ledger.past ticket listed
  · intro ticket mem
    rcases mem_append.mp mem with old | last
    · exact ledger.past ticket old
    · cases mem_singleton.mp last
      exact Nat.le_refl _
  · intro ticket newer suffix room fresh
    rw [mapped]
    rcases Retention.suffix_snoc suffix with ⟨rfl, rfl⟩ | ⟨before, rfl, earlier⟩
    · exact Retention.suffix_join _ (nil_suffix : [] <:+ entries.map _) room
    · rw [length_append] at room
      have kept := ledger.kept ticket before earlier (Nat.lt_of_succ_lt room) fresh
      exact Retention.suffix_join _ kept room

end

theorem next_job_id_injective {config : Config} {first second : Nat}
    (same : nextJobId config first = nextJobId config second) : first = second := by
  have digits := congrArg String.toList same
  simp only [nextJobId, String.toList_append, append_cancel_left_eq] at digits
  have numbers : Nat.toDigits 10 first = Nat.toDigits 10 second := by
    simpa only [toString, Nat.toList_repr] using digits
  rw [← Nat.ofDigitChars_ten_toDigits (n := first), numbers, Nat.ofDigitChars_ten_toDigits]

/-- The slot of a job is reserved for the owner. -/
def Holds (reserved : List Ticket) (owner : MailOwner) (jobId : String) : Prop :=
  ∃ ticket ∈ reserved, ticket.jobId = jobId ∧ ticket.owner = owner

/-- No slot of the job is without a result. -/
def Filled (entries : Entries) (jobId : String) : Prop :=
  ∀ entry ∈ entries, entry.jobId = jobId → entry.result.isSome = true

/-- What holds of a call in a phase. -/
def Stands (reserved : List Ticket) (entries : Entries) : Phase → Prop
  | .numbered _ _ jobId => jobId ∉ reserved.map Ticket.jobId
  | .submitting mode owner jobId => mode = .enqueue → Holds reserved owner jobId
  | .settling owner jobId envelope flat => Holds reserved owner jobId ∧
      jobIdOf envelope = some jobId ∧ Whitelisted flat
  | .returned (some (owner, jobId)) envelope => Holds reserved owner jobId ∧
      jobIdOf envelope = some jobId ∧ (codeOf envelope ≠ some 0 → Filled entries jobId)
  | _ => True

def Phase.number : Phase → Option String
  | .numbered _ _ jobId => some jobId
  | _ => none

structure Invariant (config : Config) (state : State) : Prop where
  ledger : Ledger config.toStoreConfig state.now state.entries state.reserved state.fills
  numbers : ∀ ticket ∈ state.reserved, ∃ number < state.sequence,
    ticket.jobId = nextJobId config number
  pending : ∀ id jobId, (state.calls id).number = some jobId →
    ∃ number < state.sequence, jobId = nextJobId config number
  apart : ∀ id other jobId, (state.calls id).number = some jobId →
    (state.calls other).number = some jobId → id = other
  stands : ∀ id, Stands state.reserved state.entries (state.calls id)
  visible : ∀ jobId owner value, (jobId, owner, value) ∈ state.seen →
    Holds state.reserved owner jobId ∧ (jobId, value) ∈ state.fills
  published : ∀ value ∈ state.published, Whitelisted value

variable {config : Config} {state next : State}

theorem sound_of_invariant (invariant : Invariant config state) : Sound config state where
  owned := invariant.ledger.owned
  once := invariant.ledger.once
  issued := invariant.ledger.issued
  stored := invariant.ledger.stored
  visible := invariant.visible
  whitelisted := invariant.ledger.whitelisted
  published := invariant.published
  receipt := by
    intro id owner jobId envelope returned
    have stands := invariant.stands id
    rw [returned] at stands
    exact ⟨stands.2.1, stands.1⟩
  settled := by
    intro id owner jobId envelope returned refused ticket newer same suffix room fresh
    have stands := invariant.stands id
    rw [returned] at stands
    obtain ⟨⟨held, listed, equal, owned⟩, _, filled⟩ := stands
    have mine : held = ticket := inj_on_of_nodup_map invariant.ledger.owned listed
      (suffix.subset mem_cons_self) (equal.trans same.symm)
    have kept := (invariant.ledger.kept ticket newer suffix room fresh).subset mem_cons_self
    obtain ⟨entry, mem, slot⟩ := mem_map.mp kept
    have named : entry.jobId = jobId := by rw [← same, ← slot]
    obtain ⟨value, result⟩ := Option.isSome_iff_exists.mp (filled refused entry mem named)
    refine ⟨value, ?_⟩
    have read : (get config.toStoreConfig state.now entry.jobId entry.owner state.entries).1 =
        some value :=
      get_of_mem invariant.ledger.distinct mem (by rw [slot]; exact fresh) result
    rwa [named, show entry.owner = owner by rw [← owned, mine, ← slot]] at read

theorem filled_purge {ttl : Nat} (filled : Filled entries jobId) :
    Filled (purge ttl now entries) jobId :=
  fun entry mem => filled entry (purge_sublist.subset mem)

theorem filled_fill {job : String} (filled : Filled entries jobId) :
    Filled (fill job value entries) jobId := by
  intro entry mem same
  rcases mem_fill mem with old | ⟨_, result⟩
  · exact filled entry old same
  · rw [result]
    rfl

variable {phase : Phase}

theorem stands_quiet {later : Entries} (filled : ∀ jobId, Filled entries jobId → Filled later jobId)
    (stands : Stands reserved entries phase) : Stands reserved later phase := by
  cases phase with
  | returned job envelope =>
    cases job with
    | none => trivial
    | some job => exact ⟨stands.1, stands.2.1, fun refused => filled _ (stands.2.2 refused)⟩
  | _ => exact stands

section

variable (invariant : Invariant config state)
include invariant

theorem enter_invariant (id : Nat) (stands : Stands state.reserved state.entries phase)
    (unnumbered : phase.number = none) :
    Invariant config (Phase.enter state id phase) := by
  have before {other : Nat} {jobId : String}
      (number : ((Phase.enter state id phase).calls other).number = some jobId) :
      (state.calls other).number = some jobId := by
    by_cases same : other = id
    · subst same
      simp only [Phase.enter, update_self, unnumbered, reduceCtorEq] at number
    · simpa only [Phase.enter, update_of_ne same] using number
  refine { invariant with pending := ?_, apart := ?_, stands := ?_ }
  · exact fun other jobId number => invariant.pending other jobId (before number)
  · exact fun first second jobId number also =>
      invariant.apart first second jobId (before number) (before also)
  · intro other
    by_cases same : other = id
    · subst same
      simp only [Phase.enter, update_self]
      exact stands
    · simp only [Phase.enter, update_of_ne same]
      exact invariant.stands other

/-- Whatever `complete` answers, no slot of the job is left without a result. -/
theorem complete_invariant (jobId : String) {value : Value} (white : Whitelisted value) :
    Invariant config (completeSlot config state jobId value).2 ∧
      Filled (completeSlot config state jobId value).2.entries jobId ∧
      (completeSlot config state jobId value).2.reserved = state.reserved ∧
      (completeSlot config state jobId value).2.calls = state.calls := by
  have purged := ledger_purge invariant.ledger
  unfold completeSlot
  rcases complete_cases config.toStoreConfig state.now jobId value state.entries with
    ⟨refused, kept, why⟩ | ⟨accepted, changed, vacant⟩
  · simp only [kept, if_neg refused]
    refine ⟨{ invariant with ledger := purged, stands := ?_ }, ?_, trivial, trivial⟩
    · intro id
      exact stands_quiet (fun _ => filled_purge) (invariant.stands id)
    · rcases why with absent | ⟨slot, found, same, filled⟩
      · exact fun entry mem same => absurd same (absent entry mem)
      · intro entry mem named
        have equal : entry = slot :=
          inj_on_of_nodup_map purged.distinct mem found (named.trans same.symm)
        rwa [equal]
  · simp only [changed, if_pos accepted]
    refine ⟨{ invariant with
      ledger := ledger_fill purged white vacant
      stands := ?_
      visible := ?_ }, ?_, trivial, trivial⟩
    · intro id
      exact stands_quiet (fun _ filled => filled_fill (filled_purge filled))
        (invariant.stands id)
    · intro job owner shown mem
      obtain ⟨held, listed⟩ := invariant.visible job owner shown mem
      exact ⟨held, mem_cons_of_mem _ listed⟩
    · intro entry mem named
      rw [fill_result purged.distinct mem named]
      rfl

theorem route_invariant (payload : Option Value) :
    Invariant config (route config state payload) := by
  unfold route
  split
  · exact invariant
  · rename_i flat bound
    obtain ⟨envelope, _, flattened⟩ := Option.bind_eq_some_iff.mp bound
    obtain ⟨white, _⟩ := flatten_some flattened
    have completed := (complete_invariant invariant
      (((flat.get "jobId").bind Value.asStr).getD "") white).1
    dsimp only
    split
    · rename_i after done
      rw [done] at completed
      refine { completed with published := ?_ }
      intro value mem
      rcases mem_cons.mp mem with rfl | earlier
      · exact white
      · exact completed.published value earlier
    · rename_i after _ done
      rw [done] at completed
      exact completed

theorem look_invariant (jobId key : String) (ctx : CallCtx)
    (fired : step config state (.look jobId key ctx) = some next) : Invariant config next := by
  cases fired
  refine { invariant with ledger := ledger_purge invariant.ledger, stands := ?_, visible := ?_ }
  · intro id
    exact stands_quiet (fun _ => filled_purge) (invariant.stands id)
  · intro job owner value mem
    rcases mem_append.mp mem with shown | earlier
    · obtain ⟨found, observed, same⟩ := Option.map_eq_some_iff.mp (Option.mem_toList.mp shown)
      cases same
      obtain ⟨entry, inside, named, owned, result⟩ := get_some observed
      refine ⟨⟨entry.toTicket, invariant.ledger.ticket_mem inside, named, owned⟩, ?_⟩
      rw [← named]
      exact invariant.ledger.stored entry inside value result
    · exact invariant.visible job owner value earlier

end

theorem stands_joined {cap : Nat} (entry : StoreEntry)
    (new : entry.jobId ∉ reserved.map Ticket.jobId) (apart : phase.number ≠ some entry.jobId)
    (stands : Stands reserved entries phase) :
    Stands (reserved ++ [entry.toTicket]) (Retention.join cap entries entry) phase := by
  have grown {owner : MailOwner} {job : String} (held : Holds reserved owner job) :
      Holds (reserved ++ [entry.toTicket]) owner job := by
    obtain ⟨earlier, mem, named, owned⟩ := held
    exact ⟨earlier, mem_append_left _ mem, named, owned⟩
  cases phase with
  | idle => trivial
  | numbered mode owner job =>
    intro listed
    rw [map_append] at listed
    rcases mem_append.mp listed with old | last
    · exact stands old
    · exact apart (congrArg some (mem_singleton.mp last))
  | submitting mode owner job => exact fun enqueues => grown (stands enqueues)
  | settling owner job envelope flat => exact ⟨grown stands.1, stands.2⟩
  | returned job envelope =>
    cases job with
    | none => trivial
    | some job =>
      refine ⟨grown stands.1, stands.2.1, ?_⟩
      intro refused other mem named
      rcases mem_append.mp ((Retention.evict_sublist _ _).subset mem) with old | last
      · exact stands.2.2 refused other old named
      · obtain ⟨ticket, listed, same, _⟩ := stands.1
        rw [mem_singleton.mp last] at named
        exact absurd (mem_map.mpr ⟨ticket, listed, same.trans named.symm⟩) new

variable {id : Nat}

section

variable (invariant : Invariant config state)
include invariant

theorem reserve_invariant {owner : MailOwner} {jobId : String}
    (numbered : state.calls id = .numbered .enqueue owner jobId) :
    Invariant config
      (Phase.enter (reserveSlot config state owner jobId) id
        (.submitting .enqueue owner jobId)) := by
  have new := invariant.stands id
  rw [numbered] at new
  have mine : (state.calls id).number = some jobId := by rw [numbered, Phase.number]
  have purged := ledger_purge invariant.ledger
  have unused : ∀ entry ∈ state.entries, entry.jobId ≠ jobId := by
    intro entry mem same
    exact new (mem_map.mpr ⟨entry.toTicket, invariant.ledger.ticket_mem mem, same⟩)
  have stepped : reserveSlot config state owner jobId = { state with
      entries := Retention.join config.cap (purge config.ttl state.now state.entries)
        { jobId, owner, issued := state.now, result := none }
      reserved := state.reserved ++ [{ jobId, owner, issued := state.now }] } := by
    simp only [reserveSlot, reserve_cases _ _ _ _ _ unused, if_true]
  rw [stepped]
  have before {other : Nat} {job : String} (number : (Function.update state.calls id
      (.submitting .enqueue owner jobId) other).number = some job) :
      other ≠ id ∧ (state.calls other).number = some job := by
    by_cases same : other = id
    · subst same
      rw [update_self] at number
      cases number
    · rw [update_of_ne same] at number
      exact ⟨same, number⟩
  constructor
  · exact ledger_join purged new
  · intro ticket mem
    rcases mem_append.mp mem with old | last
    · exact invariant.numbers ticket old
    · cases mem_singleton.mp last
      exact invariant.pending id jobId mine
  · exact fun other job number => invariant.pending other job (before number).2
  · exact fun first second job number also =>
      invariant.apart first second job (before number).2 (before also).2
  · intro other
    by_cases same : other = id
    · subst same
      simp only [Phase.enter, update_self]
      exact fun _ => ⟨_, mem_append_right _ mem_cons_self, rfl, rfl⟩
    · simp only [Phase.enter, update_of_ne same]
      apply stands_joined { jobId, owner, issued := state.now, result := none } new
      · exact fun number => same (invariant.apart other id jobId number mine)
      · exact stands_quiet (fun _ => filled_purge) (invariant.stands other)
  · intro job holder value mem
    obtain ⟨⟨ticket, listed, named, owned⟩, filled⟩ := invariant.visible job holder value mem
    exact ⟨⟨ticket, mem_append_left _ listed, named, owned⟩, filled⟩
  · exact invariant.published

/-- A new number is nobody's. -/
theorem number_invariant (id : Nat) (mode : MailMode) (owner : MailOwner) :
    Invariant config (Phase.enter { state with sequence := state.sequence + 1 } id
      (.numbered mode owner (nextJobId config state.sequence))) := by
  have unissued {number : Nat} (bound : number < state.sequence) :
      nextJobId config number ≠ nextJobId config state.sequence := by
    intro same
    rw [next_job_id_injective same] at bound
    exact Nat.lt_irrefl _ bound
  have number_cases {other : Nat} {job : String} (number : (Function.update state.calls id
      (.numbered mode owner (nextJobId config state.sequence)) other).number = some job) :
      other = id ∧ job = nextJobId config state.sequence ∨
        other ≠ id ∧ (state.calls other).number = some job := by
    by_cases same : other = id
    · subst same
      rw [update_self] at number
      exact .inl ⟨rfl, (Option.some.inj number).symm⟩
    · rw [update_of_ne same] at number
      exact .inr ⟨same, number⟩
  have foreign {other : Nat} (number : (state.calls other).number =
      some (nextJobId config state.sequence)) : False := by
    obtain ⟨issued, bound, same⟩ := invariant.pending other _ number
    exact unissued bound same.symm
  refine { invariant with numbers := ?_, pending := ?_, apart := ?_, stands := ?_ }
  · intro ticket mem
    obtain ⟨number, bound, same⟩ := invariant.numbers ticket mem
    exact ⟨number, Nat.lt_succ_of_lt bound, same⟩
  · intro other job number
    rcases number_cases number with ⟨_, rfl⟩ | ⟨_, number⟩
    · exact ⟨state.sequence, Nat.lt_succ_self _, rfl⟩
    · obtain ⟨issued, bound, same⟩ := invariant.pending other job number
      exact ⟨issued, Nat.lt_succ_of_lt bound, same⟩
  · intro first second job number also
    rcases number_cases number with ⟨rfl, rfl⟩ | ⟨_, earlier⟩
    · rcases number_cases also with ⟨rfl, _⟩ | ⟨_, other⟩
      · rfl
      · exact (foreign other).elim
    · rcases number_cases also with ⟨rfl, rfl⟩ | ⟨_, other⟩
      · exact (foreign earlier).elim
      · exact invariant.apart first second job earlier other
  · intro other
    by_cases same : other = id
    · subst same
      simp only [Phase.enter, update_self]
      intro listed
      obtain ⟨ticket, mem, named⟩ := mem_map.mp listed
      obtain ⟨number, bound, issued⟩ := invariant.numbers ticket mem
      exact unissued bound (issued.symm.trans named)
    · simp only [Phase.enter, update_of_ne same]
      exact invariant.stands other

theorem begin_invariant {mode : MailMode} {key : String} {ctx : CallCtx} {invalid : Option String}
    (fired : step config state (.call id (.begin mode key ctx invalid)) = some next) :
    Invariant config next := by
  simp only [step, callStep] at fired
  cases phase : state.calls id <;> simp only [phase, reduceCtorEq] at fired
  cases invalid with
  | some message =>
    cases fired
    exact enter_invariant invariant id trivial rfl
  | none =>
    cases fired
    exact number_invariant invariant id mode _

theorem proceed_invariant (fired : step config state (.call id .proceed) = some next) :
    Invariant config next := by
  simp only [step, callStep] at fired
  cases phase : state.calls id <;> simp only [phase, reduceCtorEq] at fired
  case numbered mode owner jobId =>
    by_cases enqueues : mode = .enqueue
    · subst enqueues
      cases fired
      exact reserve_invariant invariant phase
    · rw [if_neg enqueues] at fired
      cases fired
      exact enter_invariant invariant id (fun same => absurd same enqueues) rfl
  case settling owner jobId envelope flat =>
    cases fired
    have stands := invariant.stands id
    rw [phase] at stands
    obtain ⟨held, pinned, white⟩ := stands
    obtain ⟨completed, filled, reserved, _⟩ := complete_invariant invariant jobId white
    apply enter_invariant completed id _ rfl
    exact ⟨held, pinned, fun _ => filled⟩

end

theorem submitted_object (answer : Except String Value) :
    ∃ fields, submitted answer = .object fields := by
  cases answer with
  | ok value => exact ensure_envelope_object value
  | error error => exact ⟨_, rfl⟩

theorem settle_number (mode : MailMode) (owner : MailOwner) (jobId : String)
    (answer : Except String Value) : (settle mode owner jobId answer).number = none := by
  unfold settle
  split
  · rfl
  · dsimp only
    split
    · rfl
    · split <;> rfl

variable {answer : Except String Value}

/-- Of what the plugin answers nothing is left open: a refusal is about to be stored, or a
result is there already. -/
theorem settle_stands {mode : MailMode} (held : mode = .enqueue → Holds reserved owner jobId)
    (well : ∀ value, answer = .ok value → mode = .enqueue → codeOf (ensureEnvelope value) ≠ some 0 →
      (codeOf (ensureEnvelope value)).isSome = true ∧
      (messageOf (ensureEnvelope value)).isSome = true ∨ Filled entries jobId) :
    Stands reserved entries (settle mode owner jobId answer) := by
  obtain ⟨fields, object⟩ := submitted_object answer
  unfold settle
  split
  · trivial
  · rename_i enqueues
    have enqueues : mode = .enqueue := not_not.mp enqueues
    rw [object]
    have pinned := pin_job_id fields jobId
    dsimp only
    split
    · rename_i accepted
      exact ⟨held enqueues, pinned, fun refused => absurd accepted refused⟩
    · rename_i refused
      split
      · rename_i flat flattened
        exact ⟨held enqueues, pinned, (flatten_some flattened).1⟩
      · rename_i unflattened
        refine ⟨held enqueues, pinned, fun _ => ?_⟩
        rw [pin_code] at refused
        have lacks : ¬ ((codeOf (.object fields)).isSome = true ∧
            (messageOf (.object fields)).isSome = true) := by
          intro expected
          have flattened : (flattenResult (pinJobId (.object fields) jobId)).isSome = true := by
            rw [flatten_iff, pinned, pin_code, pin_message]
            exact ⟨rfl, expected⟩
          rw [unflattened] at flattened
          cases flattened
        cases answer with
        | error error =>
          cases object
          exact absurd ⟨rfl, rfl⟩ lacks
        | ok value =>
          rw [submitted] at object
          have proviso := well value rfl enqueues
          rw [object] at proviso
          exact (proviso refused).resolve_left lacks

theorem answer_invariant (invariant : Invariant config state)
    (orderly : Orderly state (.call id (.answer answer)))
    (fired : step config state (.call id (.answer answer)) = some next) :
    Invariant config next := by
  simp only [step, callStep] at fired
  cases phase : state.calls id <;> simp only [phase, reduceCtorEq] at fired
  case submitting mode owner jobId =>
    cases fired
    have stands := invariant.stands id
    rw [phase] at stands
    apply enter_invariant invariant id _ (settle_number ..)
    apply settle_stands stands
    rintro value rfl rfl refused
    rw [Orderly, phase] at orderly
    rcases orderly refused with expected | ⟨result, listed⟩
    · exact .inl expected
    · right
      intro entry mem same
      rw [← Option.ne_none_iff_isSome]
      intro absent
      rw [← same] at listed
      exact invariant.ledger.empty entry mem absent result listed

theorem init_invariant : Invariant config init := by
  constructor
  · constructor
    · exact nodup_nil
    · exact nodup_nil
    · nofun
    · nofun
    · nofun
    · nofun
    · exact List.Sublist.refl _
    · exact List.Pairwise.nil
    · nofun
    · intro ticket newer suffix
      cases suffix_nil.mp suffix
  · nofun
  · nofun
  · nofun
  · intro id
    trivial
  · nofun
  · nofun

theorem step_invariant : Preserved (system config) Orderly (Invariant config) := by
  intro state label next invariant orderly fired
  cases label with
  | call id action =>
    cases action with
    | begin mode key ctx invalid => exact begin_invariant invariant fired
    | proceed => exact proceed_invariant invariant fired
    | answer answer => exact answer_invariant invariant orderly fired
  | deliver payload =>
    cases fired
    exact route_invariant invariant payload
  | look jobId key ctx => exact look_invariant invariant jobId key ctx fired
  | elapse duration =>
    cases fired
    exact { invariant with ledger := ledger_elapse invariant.ledger duration }

/-- Where every refusal of an enqueue has an integer code and a message, or comes after the
result was delivered, mail results are owned, written once and never missing, in every run. -/
theorem mail_results_sound (config : Config) (state : State)
    (reached : Reachable (system config) Orderly state) : Sound config state :=
  sound_of_invariant (invariant_of_step init_invariant step_invariant reached)

/-- The largest store of the source: 1024 slots for an hour. -/
def defaults : Config where
  cap := 1024
  ttl := 3600
  jobPrefix := "0123456789abcdef"

/-- A submission that does not reach the plugin, and a look at its result. -/
def undeliveredRun : List Label :=
  [.call 0 (.begin .enqueue "default" ⟨some "shop", none⟩ none), .call 0 .proceed,
    .call 0 (.answer (.error "queue full")), .call 0 .proceed,
    .look (nextJobId defaults 1) "default" ⟨some "shop", none⟩]

theorem mail_results_sound_undelivered :
    Sound defaults (((system defaults).run init undeliveredRun).getD init) :=
  mail_results_sound defaults _ ⟨undeliveredRun, trivial, _, rfl, trivial, _, rfl, trivial, _, rfl,
    trivial, _, rfl, trivial, _, rfl, rfl⟩

/-- The plugin refuses an enqueue with a code and no message. The call returns the code with
the job id, and the job has no result. -/
theorem refusal_without_result :
    ∃ labels finish, Path (system defaults) Unrestricted init labels finish ∧
      ¬ Sound defaults finish := by
  have ran := path_of_run init _
    [.call 0 (.begin .enqueue "default" ⟨none, none⟩ none), .call 0 .proceed,
      .call 0 (.answer (.ok (.object [("code", .int 5)])))]
    (rfl : (system defaults).run init _ = some _)
  refine ⟨_, _, ran, ?_⟩
  intro sound
  obtain ⟨value, read⟩ := sound.settled 0 ⟨"default", "", ""⟩ (nextJobId defaults 1) _ rfl nofun
    _ [] rfl (suffix_refl _) (by decide) rfl
  cases read

end OnlyJs.Bridge.Mail
