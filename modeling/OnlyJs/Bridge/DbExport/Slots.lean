import OnlyJs.Bridge.DbExport.Consumer
import OnlyJs.Bridge.Placeholder.Normalize
import OnlyJs.Lib.StepSystem

/-!
# The slots of the export registry

A call of `db.export` takes a slot when it registers its task. Only then it
rewrites the placeholders, opens the stream and the upload, and hands over to the
consumer. Calls, consumers, cancellations and sweeps interleave. The future of a
call or of its consumer may be dropped where it waits.
-/

namespace OnlyJs.Bridge.DbExport

open Finmap Option Bridge.HandleCore Bridge.Placeholder Lib.FiniteMap Lib.StepSystem

structure DbExportSection where
  globalConcurrency : Nat
  perSubjectConcurrency : Nat
  maxBytes : Nat
  fallbackBufferCap : Nat

structure ExportRequest where
  owner : Owner
  aliasName : String
  sql : List Char
  params : List Value
  format : String
  maxBytes : Option Nat
  placeholder : PlaceholderStyle
  gates : Except String (Option Nat)
  blobConfigured : Bool
  inTransaction : Bool

def formatUnsupported (format : String) : String :=
  s!"export format \"{format}\" is not supported (use \"csv\" or \"jsonl\")"

def encoderOf (format : String) : Except String Encoder :=
  if format = "csv" then .ok (.csv false)
  else if format = "jsonl" then .ok .jsonl
  else .error (formatUnsupported format)

def Encoder.ext : Encoder → String
  | csv _ => "csv"
  | jsonl => "jsonl"

inductive Phase where
  | normalizing
  | opening
  | uploading
  | consuming
  | mismatched (error : String)
  | unopened (error : String)
  | ended
  | dropped
deriving DecidableEq

structure ExportCall where
  request : ExportRequest
  encoder : Encoder
  rowCap : Option Nat
  phase : Phase

def openCall (request : ExportRequest) : Except String ExportCall :=
  match request.gates with
  | .error error => .error error
  | .ok rowCap =>
    match encoderOf request.format with
    | .error error => .error error
    | .ok encoder =>
      if ¬ request.blobConfigured then
        .error "blob not configured (db.export writes to blob)"
      else if request.inTransaction then
        .error <| "db.export within an active transaction is not supported " ++
          "(export runs on the connection pool only)"
      else .ok { request, encoder, rowCap, phase := .normalizing }

def ExportCall.task (limits : DbExportSection) (id : String) (call : ExportCall) :
    ExportTask where
  encoder := call.encoder
  rowCap := call.rowCap
  maxBytes := min (call.request.maxBytes.getD limits.maxBytes) limits.maxBytes
  fallbackCap := limits.fallbackBufferCap
  blobKey := blobKey id call.encoder.ext

structure SlotState where
  registry : ExportRegistry
  calls : Finmap fun _ : String => ExportCall

inductive SlotStep where
  | call (request : ExportRequest) (random : Except String RandomBytes) (now : Nat)
  | normalize (id : String)
  | openStream (id : String) (opened : Except String Unit) (now : Nat)
  | spawn (id : String)
  | consume (id : String) (blob : BlobBehaviour) (cancelAt : Option Nat)
      (stream : List (Except String Value)) (now : Nat)
  | cancel (id : String) (owner : Owner)
  | sweep (nowMs ttlMs : Nat)
  | drop (id : String)

def SlotState.callAt (state : SlotState) (id : String) (phase : Phase) : Option ExportCall :=
  (state.calls.lookup id).filter fun call => call.phase = phase

def SlotState.enter (state : SlotState) (id : String) (call : ExportCall) (phase : Phase) :
    SlotState :=
  { state with calls := state.calls.insert id { call with phase } }

def Phase.waits : Phase → Bool
  | opening | uploading | consuming => true
  | _ => false

def report (registry : ExportRegistry) (id : String) : Finish → ExportRegistry
  | .done rows bytes _ _ _ _ => progress registry id rows bytes
  | _ => registry

section System

variable (jsonText : Value → String) (limits : DbExportSection)

def slotStep (state : SlotState) : SlotStep → Option SlotState
  | .call request random now =>
    match openCall request with
    | .error _ => some state
    | .ok call =>
      match register state.registry request.owner request.aliasName random now with
      | .error _ => some state
      | .ok (id, registry) => some { registry, calls := state.calls.insert id call }
  | .normalize id =>
    (state.callAt id .normalizing).map fun call =>
      match normalizeSql call.request.placeholder call.request.sql call.request.params with
      | .error error => state.enter id call (.mismatched error)
      | .ok _ => state.enter id call .opening
  | .openStream id opened now =>
    (state.callAt id .opening).map fun call =>
      match opened with
      | .error error =>
        { state.enter id call (.unopened error) with
          registry := finish state.registry id (.failed 0 0 error) now }
      | .ok () => state.enter id call .uploading
  | .spawn id => (state.callAt id .uploading).map fun call => state.enter id call .consuming
  | .consume id blob cancelAt stream now =>
    (state.callAt id .consuming).bind fun call =>
      let requested := (state.registry.inner.lookup id).any ExportEntry.cancelRequested
      if cancelAt = none ∨ requested then
        let fin := (consume jsonText (call.task limits id) blob cancelAt stream).1
        some { state.enter id call .ended with
          registry := finish (report state.registry id fin) id fin now }
      else none
  | .cancel id owner => some { state with registry := (cancel state.registry id owner).2 }
  | .sweep nowMs ttlMs => some { state with registry := (sweep state.registry nowMs ttlMs).2 }
  | .drop id =>
    ((state.calls.lookup id).filter fun call => call.phase.waits).map fun call =>
      state.enter id call .dropped

def SlotState.initial (boot : BootTag) : SlotState where
  registry :=
    { inner := ∅
      boot
      globalConcurrency := limits.globalConcurrency
      perSubjectConcurrency := limits.perSubjectConcurrency
      ledger := ∅ }
  calls := ∅

def slotSystem (boot : BootTag) : System SlotState SlotStep where
  init := .initial limits boot
  step := slotStep jsonText limits

end System

/-- The random source repeats no task id. -/
def freshTask (state : SlotState) : SlotStep → Bool
  | .call _ random _ => state.registry.drawsFresh random
  | _ => true

def FreshTask (state : SlotState) (label : SlotStep) : Prop := freshTask state label = true

def settling (state : SlotState) : SlotStep → Bool
  | .normalize id =>
    (state.calls.lookup id).all fun call =>
      (normalizeSql call.request.placeholder call.request.sql call.request.params).isOk
  | .drop _ => false
  | _ => true

def Settling (state : SlotState) (label : SlotStep) : Prop :=
  freshTask state label = true ∧ settling state label = true

def Phase.inProgress : Phase → Bool
  | normalizing | opening | uploading | consuming => true
  | _ => false

def Phase.over : Phase → Bool
  | mismatched _ | unopened _ | ended => true
  | _ => false

def inProgressWhere (counts : Owner → Bool) (_ : String) (call : ExportCall) : Nat :=
  if call.phase.inProgress = true ∧ counts call.request.owner = true then 1 else 0

def SlotState.inProgress (state : SlotState) : Nat :=
  weight (inProgressWhere fun _ => true) state.calls

def SlotState.subjectInProgress (state : SlotState) (owner : Owner) : Nat :=
  weight (inProgressWhere fun other => other.sameSubject owner) state.calls

/-- No slot is held by a call that is over, the slots taken are at most the exports
in progress, and exports are turned away only for exports in progress. -/
structure SlotsReleased (state : SlotState) : Prop where
  released : ∀ id call entry, state.calls.lookup id = some call → call.phase.over = true →
    state.registry.inner.lookup id = some entry → entry.state ≠ .running
  running_le : state.registry.running ≤ state.inProgress
  subject_le : ∀ owner, state.registry.subjectRunning owner ≤ state.subjectInProgress owner
  admitted : ∀ owner aliasName random now id,
    newId exportPrefix state.registry.boot random = .ok id →
    state.inProgress < state.registry.globalConcurrency →
    state.subjectInProgress owner < state.registry.perSubjectConcurrency →
    ∃ next, register state.registry owner aliasName random now = .ok (id, next)

def Phase.leaks : Phase → Bool
  | mismatched _ | dropped => true
  | _ => false

def Phase.holds (phase : Phase) : Bool := phase.inProgress || phase.leaks

def leakingWhere (counts : Owner → Bool) (_ : String) (call : ExportCall) : Nat :=
  if call.phase.leaks = true ∧ counts call.request.owner = true then 1 else 0

def holdingWhere (counts : Owner → Bool) (_ : String) (call : ExportCall) : Nat :=
  if call.phase.holds = true ∧ counts call.request.owner = true then 1 else 0

variable (phase : Phase)

theorem leaks_not_inProgress (leaks : phase.leaks = true) :
    phase.inProgress = false := by
  cases phase <;> first | rfl | cases leaks

theorem over_not_holds (isOver : phase.over = true) (free : phase.leaks = false) :
    phase.holds = false := by
  cases phase with
  | normalizing | opening | uploading | consuming => cases isOver
  | mismatched => cases free
  | unopened => rfl
  | ended => rfl
  | dropped => cases isOver

variable (counts : Owner → Bool)

theorem holdingWhere_eq :
    holdingWhere counts = fun id call => inProgressWhere counts id call + leakingWhere counts
      id call := by
  funext id call
  cases leaks : call.phase.leaks with
  | false => simp [holdingWhere, inProgressWhere, leakingWhere, Phase.holds, leaks]
  | true =>
    have idle := leaks_not_inProgress call.phase leaks
    simp [holdingWhere, inProgressWhere, leakingWhere, Phase.holds, idle]

/-- The entry of a call is its own, and running as long as the call holds a slot. -/
structure Backs (entry : ExportEntry) (call : ExportCall) : Prop where
  own : entry.owner = call.request.owner
  running : entry.state = .running ↔ call.phase.holds = true

/-- Every call has its entry, and there are no running entries but those of calls. -/
structure Accounted (state : SlotState) : Prop where
  backed : ∀ id call, state.calls.lookup id = some call →
    ∃ entry, state.registry.inner.lookup id = some entry ∧ Backs entry call
  counted : ∀ counts, weight (runningWhere counts) state.registry.inner =
    weight (holdingWhere counts) state.calls

theorem backs_counted (id : String) (entry : ExportEntry) (call : ExportCall)
    (backs : Backs entry call) :
    runningWhere counts id entry = holdingWhere counts id call := by
  simp only [runningWhere, holdingWhere, backs.running, backs.own]

theorem accounted_replace (state next : SlotState) (id : String) (call call' : ExportCall)
    (entry entry' : ExportEntry) (found : state.calls.lookup id = some call)
    (held : state.registry.inner.lookup id = some entry)
    (table : next.registry.inner = state.registry.inner.insert id entry')
    (calls : next.calls = state.calls.insert id call') (backs : Backs entry' call')
    (accounted : Accounted state) : Accounted next := by
  constructor
  · intro other callOther foundOther
    rw [calls] at foundOther
    rw [table]
    by_cases same : other = id
    · subst same
      rw [lookup_insert] at foundOther
      cases foundOther
      exact ⟨entry', lookup_insert _, backs⟩
    · rw [lookup_insert_of_ne _ same] at foundOther ⊢
      exact accounted.backed other callOther foundOther
  · intro counts
    obtain ⟨before, there, backsBefore⟩ := accounted.backed id call found
    cases held.symm.trans there
    have whole := accounted.counted counts
    have entries := weight_replace (runningWhere counts) id entry entry' state.registry.inner held
    have others := weight_replace (holdingWhere counts) id call call' state.calls found
    have old := backs_counted counts id entry call backsBefore
    have new := backs_counted counts id entry' call' backs
    rw [table, calls]
    omega

theorem accounted_enter (state : SlotState) (id : String) (call : ExportCall) (phase : Phase)
    (found : state.calls.lookup id = some call) (keeps : phase.holds = call.phase.holds)
    (accounted : Accounted state) : Accounted (state.enter id call phase) := by
  obtain ⟨entry, held, backs⟩ := accounted.backed id call found
  apply accounted_replace state _ id call { call with phase } entry entry found held ?_ rfl ?_
    accounted
  · exact (insert_of_lookup id entry state.registry.inner held).symm
  · exact ⟨backs.own, keeps ▸ backs.running⟩

theorem accounted_touches (state : SlotState) (registry : ExportRegistry) (id : String)
    (change : ExportEntry → ExportEntry) (touches : Touches state.registry registry id change)
    (own : ∀ entry, (change entry).owner = entry.owner)
    (kept : ∀ entry, (change entry).state = entry.state) (accounted : Accounted state) :
    Accounted { state with registry } := by
  cases touches with
  | unchanged same => exact same ▸ accounted
  | changed entry held running table =>
    constructor
    · intro other call found
      obtain ⟨before, there, backs⟩ := accounted.backed other call found
      by_cases same : other = id
      · subst same
        cases held.symm.trans there
        refine ⟨change entry, ?_, ?_, ?_⟩
        · rw [table, lookup_insert]
        · rw [own, backs.own]
        · rw [kept, backs.running]
      · refine ⟨before, ?_, backs⟩
        rw [table, lookup_insert_of_ne _ same]
        exact there
    · intro counts
      have replaced :=
        weight_replace (runningWhere counts) id entry (change entry) state.registry.inner held
      have whole := accounted.counted counts
      have same : runningWhere counts id (change entry) = runningWhere counts id entry := by
        simp only [runningWhere, own, kept]
      simp only [table]
      omega

theorem report_touches (registry : ExportRegistry) (id : String) (fin : Finish) :
    ∃ rows bytes, Touches registry (report registry id fin) id
      fun entry => { entry with rows, bytes } := by
  cases fin with
  | done rows bytes => exact ⟨rows, bytes, progress_touches registry id rows bytes⟩
  | failed | cancelled => exact ⟨0, 0, .unchanged rfl⟩

section

variable (state : SlotState)
include state

variable (id : String)

theorem accounted_report (fin : Finish) (accounted : Accounted state) :
    Accounted { state with registry := report state.registry id fin } := by
  obtain ⟨rows, bytes, touches⟩ := report_touches state.registry id fin
  exact accounted_touches state _ id _ touches (fun _ => rfl) (fun _ => rfl) accounted

theorem accounted_finish (call : ExportCall) (phase : Phase) (fin : Finish) (now : Nat)
    (found : state.calls.lookup id = some call) (held : call.phase.holds = true)
    (free : phase.holds = false) (accounted : Accounted state) :
    Accounted { state.enter id call phase with registry := finish state.registry id fin now } := by
  obtain ⟨entry, there, backs⟩ := accounted.backed id call found
  have running : entry.state = .running := backs.running.mpr held
  apply accounted_replace state _ id call { call with phase } entry (entry.settled now fin) found
    there ?_ rfl ?_ accounted
  · rw [finish_settles state.registry id fin now entry there running]
  · constructor
    · rw [settled_owner, backs.own]
    · rw [settled_state, free]
      exact iff_of_false (finish_not_running fin) Bool.false_ne_true

theorem uncalled_of_fresh (fresh : id ∉ state.registry.inner) (accounted : Accounted state) :
    id ∉ state.calls := by
  intro present
  obtain ⟨call, found⟩ := mem_iff.mp present
  obtain ⟨entry, held, -⟩ := accounted.backed id call found
  exact fresh (mem_of_lookup_eq_some held)

theorem accounted_register (registry : ExportRegistry) (owner : Owner) (id : String)
    (entry : ExportEntry) (call : ExportCall)
    (registers : Registers state.registry registry owner id entry)
    (fresh : id ∉ state.registry.inner) (own : call.request.owner = owner)
    (phase : call.phase = .normalizing) (accounted : Accounted state) :
    Accounted { registry, calls := state.calls.insert id call } := by
  have backs : Backs entry call := by
    refine ⟨registers.own.trans own.symm, ?_⟩
    rw [phase]
    exact iff_of_true registers.running rfl
  have uncalled := uncalled_of_fresh state id fresh accounted
  constructor
  · intro other callOther found
    rw [registers.table]
    by_cases same : other = id
    · subst same
      rw [lookup_insert] at found
      cases found
      exact ⟨entry, lookup_insert _, backs⟩
    · rw [lookup_insert_of_ne _ same] at found ⊢
      exact accounted.backed other callOther found
  · intro counts
    rw [registers.table]
    rw [weight_insert_fresh _ id entry _ fresh, weight_insert_fresh _ id call _ uncalled,
      accounted.counted counts, backs_counted counts id entry call backs]

theorem callAt_eq_some (phase : Phase) (call : ExportCall)
    (found : state.callAt id phase = some call) :
    state.calls.lookup id = some call ∧ call.phase = phase := by
  rw [SlotState.callAt, filter_eq_some_iff, decide_eq_true_eq] at found
  exact found

end

theorem open_call_request (request : ExportRequest) (call : ExportCall)
    (admitted : openCall request = .ok call) :
    call.request = request ∧ call.phase = .normalizing := by
  unfold openCall at admitted
  split at admitted
  · cases admitted
  split at admitted
  · cases admitted
  split at admitted
  · cases admitted
  split at admitted
  · cases admitted
  · cases admitted
    exact ⟨rfl, rfl⟩

section Steps

variable (jsonText : Value → String) (limits : DbExportSection)

/-- What a step does to the calls: it takes one on, moves one to another phase, or
none. A call leaks in the steps that are not settling, and in no others. -/
inductive Moves (state next : SlotState) (settles : Bool) : Prop where
  | registered (id : String) (call : ExportCall) (fresh : id ∉ state.calls)
      (phase : call.phase = .normalizing) (calls : next.calls = state.calls.insert id call)
      (kept : settles = true)
  | entered (id : String) (call : ExportCall) (phase : Phase)
      (found : state.calls.lookup id = some call) (going : call.phase.inProgress = true)
      (calls : next.calls = state.calls.insert id { call with phase })
      (leaks : phase.leaks = !settles)
  | idle (calls : next.calls = state.calls) (kept : settles = true)

theorem moves_enter (state : SlotState) (id : String) (call : ExportCall) (phase : Phase)
    (settles : Bool) (found : state.calls.lookup id = some call)
    (going : call.phase.inProgress = true) (holds : phase.holds = true)
    (leaks : phase.leaks = !settles) (accounted : Accounted state) :
    Accounted (state.enter id call phase) ∧ Moves state (state.enter id call phase) settles := by
  refine ⟨accounted_enter state id call phase found ?_ accounted,
    .entered id call phase found going rfl leaks⟩
  rw [holds, Phase.holds, going, Bool.true_or]

theorem moves_finish (state : SlotState) (id : String) (call : ExportCall) (phase : Phase)
    (fin : Finish) (now : Nat) (found : state.calls.lookup id = some call)
    (going : call.phase.inProgress = true) (free : phase.holds = false)
    (accounted : Accounted state) :
    Accounted { state.enter id call phase with registry := finish state.registry id fin now } ∧
      Moves state
        { state.enter id call phase with registry := finish state.registry id fin now } true := by
  refine ⟨accounted_finish state id call phase fin now found ?_ free accounted,
    .entered id call phase found going rfl ?_⟩
  · rw [Phase.holds, going, Bool.true_or]
  · exact (Bool.or_eq_false_iff.mp free).2

theorem step_moves (state next : SlotState) (label : SlotStep) (accounted : Accounted state)
    (fresh : FreshTask state label) (fired : slotStep jsonText limits state label = some next) :
    Accounted next ∧ Moves state next (settling state label) := by
  cases label with
  | call request random now =>
    simp only [slotStep] at fired
    split at fired
    · cases fired
      exact ⟨accounted, .idle rfl rfl⟩
    · rename_i call admitted
      obtain ⟨asked, phase⟩ := open_call_request request call admitted
      split at fired
      · cases fired
        exact ⟨accounted, .idle rfl rfl⟩
      · rename_i id registry registered
        cases fired
        obtain ⟨made, registers⟩ :=
          register_registers state.registry registry _ _ random now id registered
        have unused := fresh_of_drawsFresh state.registry random id fresh made
        have uncalled := uncalled_of_fresh state id unused accounted
        refine ⟨?_, .registered id call uncalled phase rfl rfl⟩
        exact accounted_register state registry request.owner id _ call registers unused
          (congrArg ExportRequest.owner asked) phase accounted
  | normalize id =>
    obtain ⟨call, standing, rfl⟩ := map_eq_some_iff.mp fired
    obtain ⟨found, phase⟩ := callAt_eq_some state id _ call standing
    have going : call.phase.inProgress = true := by
      rw [phase]
      rfl
    split
    · rename_i error failed
      apply moves_enter state id call _ _ found going rfl ?_ accounted
      simp only [settling, found, all_some, failed]
      rfl
    · rename_i sql rewritten
      apply moves_enter state id call _ _ found going rfl ?_ accounted
      simp only [settling, found, all_some, rewritten]
      rfl
  | openStream id opened now =>
    obtain ⟨call, standing, rfl⟩ := map_eq_some_iff.mp fired
    obtain ⟨found, phase⟩ := callAt_eq_some state id _ call standing
    have going : call.phase.inProgress = true := by
      rw [phase]
      rfl
    cases opened with
    | error error => exact moves_finish state id call _ _ now found going rfl accounted
    | ok _ => exact moves_enter state id call _ _ found going rfl rfl accounted
  | spawn id =>
    obtain ⟨call, standing, rfl⟩ := map_eq_some_iff.mp fired
    obtain ⟨found, phase⟩ := callAt_eq_some state id _ call standing
    have going : call.phase.inProgress = true := by
      rw [phase]
      rfl
    exact moves_enter state id call _ _ found going rfl rfl accounted
  | consume id blob cancelAt stream now =>
    obtain ⟨call, standing, fired⟩ := bind_eq_some_iff.mp fired
    obtain ⟨-, fired⟩ := ite_none_right_eq_some.mp fired
    cases fired
    obtain ⟨found, phase⟩ := callAt_eq_some state id _ call standing
    have going : call.phase.inProgress = true := by
      rw [phase]
      rfl
    have reported := accounted_report state id
      (consume jsonText (call.task limits id) blob cancelAt stream).1 accounted
    obtain ⟨kept, -⟩ := moves_finish { state with registry := report state.registry id _ } id call
      .ended _ now found going rfl reported
    exact ⟨kept, .entered id call .ended found going rfl rfl⟩
  | cancel id owner =>
    cases fired
    refine ⟨?_, .idle rfl rfl⟩
    exact accounted_touches state _ id _ (cancel_touches state.registry id owner)
      (fun _ => rfl) (fun _ => rfl) accounted
  | sweep nowMs ttlMs =>
    cases fired
    exact ⟨⟨accounted.backed, accounted.counted⟩, .idle rfl rfl⟩
  | drop id =>
    obtain ⟨call, standing, rfl⟩ := map_eq_some_iff.mp fired
    obtain ⟨found, waits⟩ := filter_eq_some_iff.mp standing
    have going : call.phase.inProgress = true := by
      cases phase : call.phase <;> first | rfl | (rw [phase] at waits; cases waits)
    exact moves_enter state id call _ _ found going rfl rfl accounted

/-- No call has left its slot taken. -/
def SlotState.Clean (state : SlotState) : Prop :=
  ∀ id call, state.calls.lookup id = some call → call.phase.leaks = false

theorem clean_insert (state next : SlotState) (id : String) (call : ExportCall)
    (calls : next.calls = state.calls.insert id call) (clean : state.Clean)
    (free : call.phase.leaks = false) : next.Clean := by
  intro other callOther found
  rw [calls] at found
  by_cases same : other = id
  · subst same
    rw [lookup_insert] at found
    cases found
    exact free
  · rw [lookup_insert_of_ne _ same] at found
    exact clean other callOther found

theorem clean_moves (state next : SlotState) (moves : Moves state next true)
    (clean : state.Clean) : next.Clean := by
  cases moves with
  | registered id call fresh phase calls kept =>
    apply clean_insert state next id call calls clean
    rw [phase]
    rfl
  | entered id call phase found going calls leaks =>
    exact clean_insert state next id _ calls clean leaks
  | idle calls kept =>
    intro id call found
    rw [calls] at found
    exact clean id call found

theorem leak_moves (state next : SlotState) (moves : Moves state next false) : ¬ next.Clean := by
  intro clean
  cases moves with
  | registered id call fresh phase calls kept => cases kept
  | entered id call phase found going calls leaks =>
    have free := clean id { call with phase } (by rw [calls, lookup_insert])
    rw [leaks] at free
    cases free
  | idle calls kept => cases kept

theorem leaks_moves (state next : SlotState) (settles : Bool) (moves : Moves state next settles)
    (id : String) (call : ExportCall) (found : state.calls.lookup id = some call)
    (leaks : call.phase.leaks = true) : next.calls.lookup id = some call := by
  cases moves with
  | registered other callOther fresh phase calls kept =>
    have differs : id ≠ other := by
      rintro rfl
      exact fresh (mem_of_lookup_eq_some found)
    rw [calls, lookup_insert_of_ne _ differs]
    exact found
  | entered other callOther phase there going calls =>
    have differs : id ≠ other := by
      rintro rfl
      cases found.symm.trans there
      rw [leaks_not_inProgress call.phase leaks] at going
      cases going
    rw [calls, lookup_insert_of_ne _ differs]
    exact found
  | idle calls kept =>
    rw [calls]
    exact found

variable {jsonText : Value → String} {limits : DbExportSection} {boot : BootTag}

variable (start finish : SlotState) (labels : List SlotStep)

section

variable (path : Path (slotSystem jsonText limits boot) FreshTask start labels finish)
  (accounted : Accounted start)
include path accounted

theorem unclean_path (clean : finish.Clean) : start.Clean := by
  induction labels generalizing start with
  | nil =>
    cases path
    exact clean
  | cons label rest ih =>
    obtain ⟨fresh, next, fired, path⟩ := path
    obtain ⟨kept, moves⟩ := step_moves jsonText limits start next label accounted fresh fired
    have later := ih next path kept
    intro id call found
    rw [← Bool.not_eq_true]
    intro leaks
    have still := leaks_moves start next _ moves id call found leaks
    rw [later id call still] at leaks
    cases leaks

theorem clean_iff_settling (clean : start.Clean) :
    finish.Clean ↔ Path (slotSystem jsonText limits boot) Settling start labels finish := by
  induction labels generalizing start with
  | nil =>
    cases path
    exact iff_of_true clean rfl
  | cons label rest ih =>
    obtain ⟨fresh, next, fired, path⟩ := path
    obtain ⟨kept, moves⟩ := step_moves jsonText limits start next label accounted fresh fired
    constructor
    · intro cleanEnd
      have cleanNext := unclean_path next finish rest path kept cleanEnd
      have settles : settling start label = true := by
        by_contra leaks
        rw [Bool.not_eq_true] at leaks
        rw [leaks] at moves
        exact leak_moves start next moves cleanNext
      exact ⟨⟨fresh, settles⟩, next, fired, (ih next path kept cleanNext).mp cleanEnd⟩
    · rintro ⟨⟨-, settles⟩, other, fired', settled⟩
      cases fired.symm.trans fired'
      rw [settles] at moves
      exact (ih next path kept (clean_moves start next moves clean)).mpr settled

theorem accounted_path : Accounted finish := by
  apply path_preserves ?_ path accounted
  intro state label next kept fresh fired
  exact (step_moves jsonText limits state next label kept fresh fired).1

end

section

variable (state : SlotState)
include state

theorem running_eq (counts : Owner → Bool) (accounted : Accounted state) :
    weight (runningWhere counts) state.registry.inner =
      weight (inProgressWhere counts) state.calls + weight (leakingWhere counts) state.calls := by
  rw [accounted.counted counts, holdingWhere_eq]
  exact weight_add _ _ _

theorem leaking_none (counts : Owner → Bool) (clean : state.Clean) :
    weight (leakingWhere counts) state.calls = 0 := by
  rw [weight_eq_zero_iff]
  intro id call found
  simp [leakingWhere, clean id call found]

theorem released_of_clean (accounted : Accounted state) (clean : state.Clean) :
    SlotsReleased state := by
  have exact_ : ∀ counts, weight (runningWhere counts) state.registry.inner =
      weight (inProgressWhere counts) state.calls := by
    intro counts
    rw [running_eq state counts accounted, leaking_none state counts clean, Nat.add_zero]
  constructor
  · intro id call entry found isOver held running
    obtain ⟨before, there, backs⟩ := accounted.backed id call found
    cases held.symm.trans there
    have holds := backs.running.mp running
    rw [over_not_holds call.phase isOver (clean id call found)] at holds
    cases holds
  · exact (exact_ _).le
  · intro owner
    exact (exact_ _).le
  · intro owner aliasName random now id made room subjectRoom
    have global : ¬ state.registry.globalConcurrency ≤ state.registry.running := by
      rw [ExportRegistry.running, exact_]
      exact Nat.not_le_of_lt room
    have subject : ¬ state.registry.perSubjectConcurrency ≤
      state.registry.subjectRunning owner := by
      rw [ExportRegistry.subjectRunning, exact_]
      exact Nat.not_le_of_lt subjectRoom
    simp only [register, made, if_neg global, if_neg subject]
    exact ⟨_, rfl⟩

theorem clean_of_released (accounted : Accounted state) (released : SlotsReleased state) :
    state.Clean := by
  have none : weight (leakingWhere fun _ => true) state.calls = 0 := by
    have whole := running_eq state (fun _ => true) accounted
    have bound := released.running_le
    rw [ExportRegistry.running, SlotState.inProgress] at bound
    omega
  intro id call found
  have free := (weight_eq_zero_iff _ _).mp none id call found
  simpa [leakingWhere] using free

end

theorem accounted_initial : Accounted (.initial limits boot) := by
  constructor
  · intro id call found
    cases found
  · intro counts
    rfl

/-- In every run, slots are released exactly when no rewriting of placeholders fails
for a registered task and no future is dropped. -/
theorem slots_released_iff (labels : List SlotStep) (state : SlotState)
    (path : Path (slotSystem jsonText limits boot) FreshTask (.initial limits boot) labels state) :
    SlotsReleased state ↔
      Path (slotSystem jsonText limits boot) Settling (.initial limits boot) labels state := by
  have accounted := accounted_path _ state labels path accounted_initial
  rw [← clean_iff_settling _ state labels path accounted_initial fun _ _ found => nomatch found]
  constructor
  · exact clean_of_released state accounted
  · exact released_of_clean state accounted

end Steps

def sampleLimits : DbExportSection where
  globalConcurrency := 1
  perSubjectConcurrency := 1
  maxBytes := 1000
  fallbackBufferCap := 100

def sampleRequest (params : List Value) : ExportRequest where
  owner := sampleOwner
  aliasName := "main"
  sql := "select ?".toList
  params := params
  format := "csv"
  maxBytes := none
  placeholder := .dollar
  gates := .ok none
  blobConfigured := true
  inTransaction := false

def sampleSlotTask : String := "export_0000_00000000000000000000000000000000"

def mismatchedCall : List SlotStep :=
  [.call (sampleRequest [.null, .null]) (.ok (sampleBytes 0)) 0, .normalize sampleSlotTask]

def finishedCall : List SlotStep :=
  [.call (sampleRequest [.null]) (.ok (sampleBytes 0)) 0, .normalize sampleSlotTask,
    .openStream sampleSlotTask (.ok ()) 0, .spawn sampleSlotTask,
    .consume sampleSlotTask
      { opens := true, chunk := .ok (), finishes := true, puts := true, leftover := none }
      none [] 1]

/-- After the call has returned, its task still holds the only slot. -/
theorem mismatch_keeps_slot :
    ∃ state, Path (slotSystem (fun _ => "") sampleLimits sampleBoot) FreshTask
      (.initial sampleLimits sampleBoot) mismatchedCall state ∧ ¬ SlotsReleased state := by
  have ran : ((slotSystem (fun _ => "") sampleLimits sampleBoot).runWhere freshTask
      (.initial sampleLimits sampleBoot) mismatchedCall).map
        (fun state => (state.registry.running, state.inProgress)) = some (1, 0) := by
    decide +kernel
  obtain ⟨state, ran, counts⟩ := map_eq_some_iff.mp ran
  refine ⟨state, path_of_run_where freshTask (fun _ _ passed => passed) _ _ _ ran, ?_⟩
  intro released
  obtain ⟨taken, going⟩ := Prod.mk.inj counts
  have bound := released.running_le
  rw [taken, going] at bound
  exact absurd bound (by decide)

theorem slots_released_iff_finished :
    ∃ state : SlotState, SlotsReleased state ↔
      Path (slotSystem (fun _ => "") sampleLimits sampleBoot) Settling
        (.initial sampleLimits sampleBoot) finishedCall state := by
  have ran : ((slotSystem (fun _ => "") sampleLimits sampleBoot).runWhere freshTask
      (.initial sampleLimits sampleBoot) finishedCall).isSome = true := by
    decide +kernel
  obtain ⟨state, ran⟩ := isSome_iff_exists.mp ran
  exact ⟨state, slots_released_iff finishedCall state
    (path_of_run_where freshTask (fun _ _ passed => passed) _ _ _ ran)⟩

end OnlyJs.Bridge.DbExport
