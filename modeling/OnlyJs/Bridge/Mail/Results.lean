import OnlyJs.Bridge.Value
import OnlyJs.Lib.Association
import OnlyJs.Lib.Retention

/-!
# Mail results

The envelopes of the mail plugin, the flat result made of one, and the store of results:
a slot is reserved for a caller, filled at most once, and read by its owner only. Slots
leave the store by age and, beyond a cap, by number.
-/

namespace OnlyJs.Bridge.Mail

open Lib List

/-- The integers that fit `i64`. -/
def asI64 : Value → Option Int
  | .int number => if -2 ^ 63 ≤ number ∧ number < 2 ^ 63 then some number else none
  | _ => none

def insert (value : Value) (key : String) (field : Value) : Value :=
  match value with
  | .object fields => .object (Association.put fields key field)
  | _ => value

def isObject : Value → Bool
  | .object _ => true
  | _ => false

/-- The answer of a plugin that does not keep to the envelope counts as accepted. -/
def ensureEnvelope (value : Value) : Value :=
  if (value.get "code").isSome then value
  else .object [("code", .int 0), ("msg", .string "ok"), ("data", value)]

def code5 (message : String) : Value :=
  .object [("code", .int 5), ("msg", .string message), ("data", .object [])]

def undelivered (error : String) : Value :=
  .object [("code", .int 1),
    ("msg", .string s!"mail: 投递未能送达插件（{error}）（下一步：确认 oj-mail 插件已装配、profile 名正确）"),
    ("data", .object [])]

/-- The receipt of an enqueue carries the host's job id, whatever the plugin sent. -/
def pinJobId (envelope : Value) (jobId : String) : Value :=
  match envelope with
  | .object fields =>
    let data := ((fields.lookup "data").filter isObject).getD (.object [])
    insert envelope "data" (insert data "jobId" (.string jobId))
  | _ => envelope

def jobIdOf (envelope : Value) : Option String :=
  ((envelope.get "data").bind (Value.get · "jobId")).bind Value.asStr

def codeOf (envelope : Value) : Option Int :=
  (envelope.get "code").bind asI64

def messageOf (envelope : Value) : Option String :=
  (envelope.get "msg").bind Value.asStr

def messageIdOf (envelope : Value) : Option String :=
  ((envelope.get "data").bind (Value.get · "messageId")).bind Value.asStr

/-- The flat result of an envelope: four fields, and nothing else the plugin sent. -/
def flattenResult (envelope : Value) : Option Value := do
  let jobId ← jobIdOf envelope
  let code ← codeOf envelope
  let message ← messageOf envelope
  let messageId := (messageIdOf envelope).map fun id => ("messageId", Value.string id)
  return .object
    ([("jobId", .string jobId), ("code", .int code), ("msg", .string message)] ++
      messageId.toList)

structure MailOwner where
  profile : String
  moduleName : String
  tenant : String
deriving DecidableEq

structure CallCtx where
  moduleName : Option String
  tenant : Option String

def MailOwner.new (profile : String) (ctx : CallCtx) : MailOwner where
  profile := profile
  moduleName := ctx.moduleName.getD ""
  tenant := ctx.tenant.getD ""

structure Ticket where
  jobId : String
  owner : MailOwner
  issued : Nat

structure StoreEntry extends Ticket where
  result : Option Value

structure StoreConfig where
  cap : Nat
  ttl : Nat

inductive CompleteOutcome where
  | filled
  | unknownJob
  | duplicate
deriving DecidableEq

abbrev Entries := List StoreEntry

def young (ttl now : Nat) (ticket : Ticket) : Bool := now - ticket.issued < ttl

def purge (ttl now : Nat) (entries : Entries) : Entries :=
  entries.filter fun entry => young ttl now entry.toTicket

section Store

variable (config : StoreConfig) (now : Nat)

def reserve (jobId : String) (owner : MailOwner) (entries : Entries) : Bool × Entries :=
  let entries := purge config.ttl now entries
  if entries.any (·.jobId = jobId) then (false, entries)
  else (true, Retention.join config.cap entries { jobId, owner, issued := now, result := none })

def fill (jobId : String) (value : Value) : Entries → Entries
  | [] => []
  | entry :: rest =>
    if rest.any (·.jobId = jobId) then entry :: fill jobId value rest
    else if entry.jobId = jobId then { entry with result := some value } :: rest
    else entry :: rest

def complete (jobId : String) (value : Value) (entries : Entries) : CompleteOutcome × Entries :=
  let entries := purge config.ttl now entries
  match entries.reverse.find? (·.jobId = jobId) with
  | none => (.unknownJob, entries)
  | some entry =>
    if entry.result.isSome then (.duplicate, entries)
    else (.filled, fill jobId value entries)

def get (jobId : String) (owner : MailOwner) (entries : Entries) : Option Value × Entries :=
  let entries := purge config.ttl now entries
  ((entries.reverse.find? fun entry => entry.jobId = jobId ∧ entry.owner = owner).bind
    StoreEntry.result, entries)

end Store

variable (fields : List (String × Value))

theorem get_insert (key other : String) (field : Value) :
    (insert (.object fields) key field).get other =
      if other = key then some field else (Value.object fields).get other :=
  Association.lookup_put fields key other field

theorem ensure_envelope_object (value : Value) :
    ∃ fields, ensureEnvelope value = .object fields := by
  unfold ensureEnvelope
  split
  · rename_i coded
    cases value with
    | object fields => exact ⟨fields, rfl⟩
    | _ => cases coded
  · exact ⟨_, rfl⟩

theorem pin_job_id (jobId : String) :
    jobIdOf (pinJobId (.object fields) jobId) = some jobId := by
  have data : ∃ inner, ((fields.lookup "data").filter isObject).getD (.object []) =
      Value.object inner := by
    cases found : (fields.lookup "data").filter isObject with
    | none => exact ⟨[], rfl⟩
    | some value =>
      have kind := (Option.filter_eq_some_iff.mp found).2
      cases value with
      | object inner => exact ⟨inner, rfl⟩
      | _ => cases kind
  obtain ⟨inner, data⟩ := data
  simp only [jobIdOf, pinJobId, data, get_insert]
  rfl

theorem pin_other (jobId : String) {key : String} (other : key ≠ "data") :
    (pinJobId (.object fields) jobId).get key = (Value.object fields).get key := by
  simp only [pinJobId, get_insert, if_neg other]

theorem pin_code (jobId : String) :
    codeOf (pinJobId (.object fields) jobId) = codeOf (.object fields) := by
  rw [codeOf, pin_other fields jobId (by decide), codeOf]

theorem pin_message (jobId : String) :
    messageOf (pinJobId (.object fields) jobId) = messageOf (.object fields) := by
  rw [messageOf, pin_other fields jobId (by decide), messageOf]

def resultFields : List String := ["jobId", "code", "msg", "messageId"]

/-- An object of the four fields of a result. -/
def Whitelisted (value : Value) : Prop :=
  ∃ fields, value = .object fields ∧ ∀ field ∈ fields, field.1 ∈ resultFields

theorem flatten_iff {envelope : Value} :
    (flattenResult envelope).isSome = true ↔ (jobIdOf envelope).isSome = true ∧
      (codeOf envelope).isSome = true ∧ (messageOf envelope).isSome = true := by
  unfold flattenResult
  cases jobIdOf envelope <;> cases codeOf envelope <;> cases messageOf envelope <;> simp

theorem flatten_some {envelope flat : Value} (flattened : flattenResult envelope = some flat) :
    Whitelisted flat ∧ ∃ jobId, jobIdOf envelope = some jobId ∧
      (flat.get "jobId").bind Value.asStr = some jobId := by
  unfold flattenResult at flattened
  cases id : jobIdOf envelope with
  | none =>
    rw [id] at flattened
    cases flattened
  | some jobId =>
    cases code : codeOf envelope with
    | none =>
      rw [id, code] at flattened
      cases flattened
    | some number =>
      cases message : messageOf envelope with
      | none =>
        rw [id, code, message] at flattened
        cases flattened
      | some text =>
        rw [id, code, message] at flattened
        cases flattened
        refine ⟨⟨_, rfl, ?_⟩, jobId, rfl, rfl⟩
        intro field mem
        cases messageIdOf envelope <;> simp [resultFields] at mem ⊢ <;> aesop

variable {config : StoreConfig} {now ttl : Nat} {jobId : String} {owner : MailOwner}
  {value : Value} {entries : Entries}

theorem purge_sublist : (purge ttl now entries).Sublist entries := filter_sublist

theorem purge_tickets : (purge ttl now entries).map StoreEntry.toTicket =
    (entries.map StoreEntry.toTicket).filter (young ttl now) := by
  rw [filter_map]
  rfl

theorem fill_tickets : (fill jobId value entries).map StoreEntry.toTicket =
    entries.map StoreEntry.toTicket := by
  induction entries with
  | nil => rfl
  | cons entry rest ih =>
    unfold fill
    split
    · rw [map_cons, ih, map_cons]
    · split <;> rfl

variable {entry : StoreEntry}

theorem mem_fill (mem : entry ∈ fill jobId value entries) :
    entry ∈ entries ∨ entry.jobId = jobId ∧ entry.result = some value := by
  induction entries with
  | nil => cases mem
  | cons first rest ih =>
    unfold fill at mem
    split at mem
    · rcases mem_cons.mp mem with rfl | later
      · exact .inl mem_cons_self
      · exact (ih later).imp (mem_cons_of_mem _) id
    · split at mem
      · rename_i same
        rcases mem_cons.mp mem with rfl | later
        · exact .inr ⟨same, rfl⟩
        · exact .inl (mem_cons_of_mem _ later)
      · exact .inl mem

theorem fill_result (distinct : (entries.map fun entry => entry.jobId).Nodup)
    (mem : entry ∈ fill jobId value entries) (same : entry.jobId = jobId) :
    entry.result = some value := by
  induction entries with
  | nil => cases mem
  | cons first rest ih =>
    obtain ⟨new, distinct⟩ := nodup_cons.mp distinct
    unfold fill at mem
    split at mem
    · rename_i later
      rcases mem_cons.mp mem with rfl | inside
      · obtain ⟨other, found, equal⟩ := any_eq_true.mp later
        refine absurd (mem_map.mpr ⟨other, found, ?_⟩) new
        exact (of_decide_eq_true equal).trans same.symm
      · exact ih distinct inside
    · rename_i alone
      have missing : entry ∉ rest := by
        intro inside
        exact alone (any_eq_true.mpr ⟨entry, inside, decide_eq_true same⟩)
      split at mem
      · rcases mem_cons.mp mem with rfl | inside
        · rfl
        · exact absurd inside missing
      · rename_i different
        rcases mem_cons.mp mem with rfl | inside
        · exact absurd same different
        · exact absurd inside missing

theorem complete_cases (config : StoreConfig) (now : Nat) (jobId : String) (value : Value)
    (entries : Entries) :
    ((complete config now jobId value entries).1 ≠ .filled ∧
      (complete config now jobId value entries).2 = purge config.ttl now entries ∧
      ((∀ entry ∈ purge config.ttl now entries, entry.jobId ≠ jobId) ∨
        ∃ entry ∈ purge config.ttl now entries, entry.jobId = jobId ∧
          entry.result.isSome = true)) ∨
    (complete config now jobId value entries).1 = .filled ∧
      (complete config now jobId value entries).2 =
        fill jobId value (purge config.ttl now entries) ∧
      ∃ entry ∈ purge config.ttl now entries, entry.jobId = jobId ∧ entry.result = none := by
  unfold complete
  dsimp only
  cases found : (purge config.ttl now entries).reverse.find? (·.jobId = jobId) with
  | none =>
    refine .inl ⟨nofun, rfl, .inl ?_⟩
    intro entry mem same
    have unlike := find?_eq_none.mp found entry (mem_reverse.mpr mem)
    exact unlike (decide_eq_true same)
  | some entry =>
    have mem := mem_reverse.mp (mem_of_find?_eq_some found)
    have same : entry.jobId = jobId := of_decide_eq_true (find?_some found :)
    by_cases filled : entry.result.isSome = true
    · simp only [if_pos filled]
      exact .inl ⟨nofun, trivial, .inr ⟨entry, mem, same, filled⟩⟩
    · simp only [if_neg filled]
      exact .inr ⟨trivial, trivial, entry, mem, same, Option.not_isSome_iff_eq_none.mp filled⟩

theorem get_some {found : Value} (observed : (get config now jobId owner entries).1 = some found) :
    ∃ entry ∈ entries, entry.jobId = jobId ∧ entry.owner = owner ∧ entry.result = some found := by
  obtain ⟨entry, present, result⟩ := Option.bind_eq_some_iff.mp observed
  have mem := mem_reverse.mp (mem_of_find?_eq_some present)
  obtain ⟨same, owned⟩ := of_decide_eq_true (find?_some present :)
  exact ⟨entry, purge_sublist.subset mem, same, owned, result⟩

theorem get_of_mem {found : Value} (distinct : (entries.map fun entry => entry.jobId).Nodup)
    (mem : entry ∈ entries) (fresh : young config.ttl now entry.toTicket = true)
    (result : entry.result = some found) :
    (get config now entry.jobId entry.owner entries).1 = some found := by
  have kept : entry ∈ purge config.ttl now entries := mem_filter.mpr ⟨mem, fresh⟩
  cases present : (purge config.ttl now entries).reverse.find?
      fun other => other.jobId = entry.jobId ∧ other.owner = entry.owner with
  | none =>
    have unlike := find?_eq_none.mp present entry (mem_reverse.mpr kept)
    exact absurd (decide_eq_true ⟨rfl, rfl⟩) unlike
  | some other =>
    have inside := purge_sublist.subset
      (mem_reverse.mp (mem_of_find?_eq_some present))
    obtain ⟨same, _⟩ := of_decide_eq_true (find?_some present :)
    have equal : other = entry := inj_on_of_nodup_map distinct inside mem same
    simp only [get, present, Option.bind_some, equal, result]

theorem reserve_cases (config : StoreConfig) (now : Nat) (jobId : String) (owner : MailOwner)
    (entries : Entries) (new : ∀ entry ∈ entries, entry.jobId ≠ jobId) :
    reserve config now jobId owner entries = (true, Retention.join config.cap
      (purge config.ttl now entries) { jobId, owner, issued := now, result := none }) := by
  unfold reserve
  rw [if_neg]
  intro taken
  obtain ⟨entry, mem, same⟩ := any_eq_true.mp taken
  exact new entry (purge_sublist.subset mem) (of_decide_eq_true same)

end OnlyJs.Bridge.Mail
