import OnlyJs.Serve.CompressCache

/-!
# Single flight

A call leads once it finds in the table the channel it has in hand. A call that found the
channel of another has it in hand as well, so whether one call or several lead depends on
the order of the two lock sections. Where no call leads on a found channel, and no guard is
dropped between a follower's look and its subscription, there is one leader, every stored
body is whole and every follower is woken.
-/

namespace OnlyJs.Serve.CompressCache

open Lib List Option Function

/-- The second look of a call does not find the channel of another call still there, and no
guard is dropped while a follower is about to subscribe to its channel. -/
def Orderly (state : State) : Label → Prop
  | .call id .proceed =>
    match state.calls id with
    | .deciding wait created => created = true ∨ state.inflight ≠ some wait
    | .dropping _ =>
      ∀ follower wait current, state.calls follower = .resubscribing wait current →
        state.inflight ≠ some current
    | _ => True
  | _ => True

/-- A step of a call that leaves the table alone. -/
structure Inward (state : State) (before after : Phase) : Prop where
  leads : after.leads = true → before.leads = true ∨
    ∃ wait, before = .deciding wait false ∧ state.inflight = some wait
  entered : ∀ wait, after ≠ .deciding wait true
  found : ∀ wait, after = .deciding wait false → state.inflight = some wait
  follows : ∀ wait, after.follows = some wait → before.follows = some wait ∨
    ∃ created, before = .deciding wait created ∧ state.inflight ≠ some wait
  current : ∀ wait current, after = .resubscribing wait current → state.inflight = some current
  awaits : ∀ wait receiver seen, after = .awaiting wait receiver seen →
    before.follows = some wait ∧ state.inflight = some wait ∨
      before = .resubscribing wait receiver ∧ seen = state.versions receiver

variable {config : Config} {state : State} {before after : Phase} {action : Action}
  {effect : Effect}

theorem next_cases (fired : next config state before action = some (after, effect)) :
    (Inward state before after ∧ (apply state effect).inflight = state.inflight ∧
      (apply state effect).nextSender = state.nextSender ∧
      (apply state effect).versions = state.versions) ∨
    (before = .registering ∧ state.inflight = none ∧
      after = .deciding state.nextSender true ∧ effect = .register) ∨
    ∃ result, action = .proceed ∧ before = .dropping result ∧ after = .returned result ∧
      effect = .announce := by
  cases before <;> cases action <;> simp only [next, reduceCtorEq] at fired
  case registering.proceed =>
    split at fired
    · rename_i sender present
      cases fired
      left
      refine ⟨⟨?_, ?_, ?_, ?_, ?_, ?_⟩, rfl, rfl, rfl⟩ <;> simp [Phase.leads, Phase.follows]
      exact present
    · rename_i missing
      cases fired
      exact .inr (.inl ⟨rfl, missing, rfl, rfl⟩)
  case dropping.proceed result =>
    cases fired
    exact .inr (.inr ⟨result, rfl, rfl, rfl, rfl⟩)
  all_goals left
  case looking.proceed wait receiver seen =>
    split at fired
    · cases fired
      refine ⟨⟨?_, ?_, ?_, ?_, ?_, ?_⟩, rfl, rfl, rfl⟩ <;> simp [Phase.leads, Phase.follows]
    · rename_i current present
      split at fired
      · rename_i same
        rw [same] at present
        cases fired
        refine ⟨⟨?_, ?_, ?_, ?_, ?_, ?_⟩, rfl, rfl, rfl⟩ <;>
          simp [Phase.leads, Phase.follows, present]
      · cases fired
        refine ⟨⟨?_, ?_, ?_, ?_, ?_, ?_⟩, rfl, rfl, rfl⟩ <;>
          simp [Phase.leads, Phase.follows, present]
  case compressing.proceed body =>
    split at fired
    · split at fired <;> cases fired <;>
        refine ⟨⟨?_, ?_, ?_, ?_, ?_, ?_⟩, rfl, rfl, rfl⟩ <;> simp [Phase.leads, Phase.follows]
    · cases fired
      refine ⟨⟨?_, ?_, ?_, ?_, ?_, ?_⟩, rfl, rfl, rfl⟩ <;> simp [Phase.leads, Phase.follows]
  -- every other step has one outcome or two, and neither looks at the table again
  all_goals first
    | cases fired
      refine ⟨⟨?_, ?_, ?_, ?_, ?_, ?_⟩, rfl, rfl, rfl⟩ <;> simp [Phase.leads, Phase.follows]
    | split at fired <;> cases fired <;>
        refine ⟨⟨?_, ?_, ?_, ?_, ?_, ?_⟩, rfl, rfl, rfl⟩ <;>
        simp_all [Phase.leads, Phase.follows]

/-- One call leads, and its channel is in the table. -/
structure Leadership (state : State) : Prop where
  entered : ∀ id wait, state.calls id = .deciding wait true → state.inflight = some wait
  held : ∀ id, (state.calls id).leads = true → state.inflight ≠ none
  single : SingleFlight state

/-- Whose channel has left the table has heard of it or is about to. -/
structure Channels (state : State) : Prop where
  issued : ∀ sender, state.inflight = some sender → sender < state.nextSender
  found : ∀ id wait, state.calls id = .deciding wait false → wait < state.nextSender
  past : ∀ id wait, (state.calls id).follows = some wait →
    wait < state.nextSender ∧ state.inflight ≠ some wait
  current : ∀ id wait current, state.calls id = .resubscribing wait current →
    state.inflight = some current
  heard : ∀ id wait receiver seen, state.calls id = .awaiting wait receiver seen →
    seen ≤ state.versions receiver ∧
      (state.inflight ≠ some receiver → seen < state.versions receiver)

def moved (state : State) (id : Nat) (after : Phase) (effect : Effect) : State :=
  { apply state effect with calls := Function.update state.calls id after }

theorem moved_self (state : State) (id : Nat) (after : Phase) (effect : Effect) :
    (moved state id after effect).calls id = after := update_self ..

theorem moved_other (state : State) {id other : Nat} (after : Phase) (effect : Effect)
    (differs : other ≠ id) : (moved state id after effect).calls other = state.calls other :=
  update_of_ne differs ..

theorem moved_forall (effect : Effect) (property : Phase → Prop) {id : Nat} (self : property after)
    (others : ∀ other, other ≠ id → property (state.calls other)) (other : Nat) :
    property ((moved state id after effect).calls other) := by
  by_cases same : other = id
  · rw [same, moved_self]
    exact self
  · rw [moved_other _ _ _ same]
    exact others other same

theorem leadership_moved {id : Nat} (leadership : Leadership state)
    (permitted : Orderly state (.call id action))
    (fired : next config state (state.calls id) action = some (after, effect)) :
    Leadership (moved state id after effect) := by
  rcases next_cases fired with ⟨inward, table, _⟩ | ⟨stood, empty, rfl, rfl⟩ |
    ⟨result, rfl, stood, rfl, rfl⟩
  · have table : (moved state id after effect).inflight = state.inflight := table
    -- a call that leads now led before, or decides on a channel that is not its own
    have led : after.leads = true → (state.calls id).leads = true := by
      intro leads
      rcases inward.leads leads with before | ⟨wait, stood, present⟩
      · exact before
      · rw [stood] at fired
        cases action with
        | proceed =>
          rw [Orderly, stood] at permitted
          rcases permitted with absurd | elsewhere
          · cases absurd
          · exact absurd present elsewhere
        | _ => cases fired
    have before : ∀ other, ((moved state id after effect).calls other).leads = true →
        (state.calls other).leads = true := by
      intro other leads
      by_cases same : other = id
      · rw [same, moved_self] at leads
        rw [same]
        exact led leads
      · rwa [moved_other _ _ _ same] at leads
    refine ⟨?_, ?_, ?_⟩
    · rw [table]
      exact moved_forall _ (fun phase => ∀ wait, phase = .deciding wait true →
        state.inflight = some wait) (fun wait absurd => (inward.entered wait absurd).elim)
        fun other _ wait stood => leadership.entered other wait stood
    · intro other leads
      rw [table]
      exact leadership.held other (before other leads)
    · intro first second leadsFirst leadsSecond
      exact leadership.single first second (before first leadsFirst) (before second leadsSecond)
  · -- nobody leads while the table is empty
    have idle : ∀ other, (state.calls other).leads ≠ true := fun other leads =>
      leadership.held other leads empty
    have only : ∀ other, ((moved state id (.deciding state.nextSender true) .register).calls
        other).leads = true → other = id := by
      intro other leads
      by_contra differs
      rw [moved_other _ _ _ differs] at leads
      exact idle other leads
    refine ⟨?_, fun _ _ => some_ne_none _, ?_⟩
    · refine moved_forall _ (fun phase => ∀ wait, phase = .deciding wait true →
        some state.nextSender = some wait) ?_ ?_
      · rintro wait ⟨⟩
        rfl
      · intro other _ wait stood
        exact absurd (by rw [stood]; rfl) (idle other)
    · intro first second leadsFirst leadsSecond
      rw [only first leadsFirst, only second leadsSecond]
  · have leads : (state.calls id).leads = true := by
      rw [stood]
      rfl
    have none_left : ∀ other, ((moved state id (.returned result) .announce).calls
        other).leads ≠ true := by
      intro other still
      by_cases same : other = id
      · rw [same, moved_self] at still
        cases still
      · rw [moved_other _ _ _ same] at still
        exact same (leadership.single other id still leads)
    refine ⟨?_, fun other still => absurd still (none_left other), ?_⟩
    · intro other wait stood
      exact absurd (by rw [stood]; rfl) (none_left other)
    · intro first _ still
      exact absurd still (none_left first)

theorem channels_moved {id : Nat} (leadership : Leadership state) (channels : Channels state)
    (permitted : Orderly state (.call id action))
    (fired : next config state (state.calls id) action = some (after, effect)) :
    Channels (moved state id after effect) := by
  rcases next_cases fired with ⟨inward, table, counter, versions⟩ |
    ⟨stood, empty, rfl, rfl⟩ | ⟨result, rfl, stood, rfl, rfl⟩
  · have table : (moved state id after effect).inflight = state.inflight := table
    have counter : (moved state id after effect).nextSender = state.nextSender := counter
    have versions : (moved state id after effect).versions = state.versions := versions
    refine ⟨?_, ?_, ?_, ?_, ?_⟩
    · rw [table, counter]
      exact channels.issued
    · rw [counter]
      refine moved_forall _ (fun phase => ∀ wait, phase = .deciding wait false →
        wait < state.nextSender) ?_ fun other _ => channels.found other
      intro wait found
      exact channels.issued wait (inward.found wait found)
    · rw [table, counter]
      refine moved_forall _ (fun phase => ∀ wait, phase.follows = some wait →
        wait < state.nextSender ∧ state.inflight ≠ some wait) ?_ fun other _ => channels.past other
      intro wait follows
      rcases inward.follows wait follows with before | ⟨created, stood, gone⟩
      · exact channels.past id wait before
      · cases created with
        | true => exact absurd (leadership.entered id wait stood) gone
        | false => exact ⟨channels.found id wait stood, gone⟩
    · rw [table]
      exact moved_forall _ (fun phase => ∀ wait current,
        phase = .resubscribing wait current → state.inflight = some current)
        inward.current fun other _ => channels.current other
    · rw [table, versions]
      refine moved_forall _ (fun phase => ∀ wait receiver seen,
        phase = .awaiting wait receiver seen → seen ≤ state.versions receiver ∧
          (state.inflight ≠ some receiver → seen < state.versions receiver)) ?_
        fun other _ => channels.heard other
      intro wait receiver seen awaits
      rcases inward.awaits wait receiver seen awaits with ⟨follows, present⟩ | ⟨stood, rfl⟩
      · exact absurd present (channels.past id wait follows).2
      · exact ⟨Nat.le_refl _, fun gone => absurd (channels.current id wait receiver stood) gone⟩
  · -- the channel that enters is a new one, so nobody waits on it
    have old : ∀ {sender}, sender < state.nextSender → some state.nextSender ≠ some sender :=
      fun smaller same => (Nat.ne_of_lt smaller) (Option.some.inj same).symm
    refine ⟨?_, ?_, ?_, ?_, ?_⟩
    · rintro sender ⟨⟩
      exact Nat.lt_succ_self _
    · refine moved_forall _ (fun phase => ∀ wait, phase = .deciding wait false →
        wait < state.nextSender + 1) nofun ?_
      intro other _ wait found
      exact Nat.lt_succ_of_lt (channels.found other wait found)
    · refine moved_forall _ (fun phase => ∀ wait, phase.follows = some wait →
        wait < state.nextSender + 1 ∧ some state.nextSender ≠ some wait) nofun ?_
      intro other _ wait follows
      have smaller := (channels.past other wait follows).1
      exact ⟨Nat.lt_succ_of_lt smaller, old smaller⟩
    · refine moved_forall _ (fun phase => ∀ wait current,
        phase = .resubscribing wait current → some state.nextSender = some current) nofun ?_
      intro other _ wait current stands
      have present := channels.current other wait current stands
      rw [empty] at present
      cases present
    · refine moved_forall _ (fun phase => ∀ wait receiver seen,
        phase = .awaiting wait receiver seen → seen ≤ state.versions receiver ∧
          (some state.nextSender ≠ some receiver → seen < state.versions receiver)) nofun ?_
      intro other _ wait receiver seen stands
      have heard := channels.heard other wait receiver seen stands
      refine ⟨heard.1, fun _ => heard.2 ?_⟩
      rw [empty]
      exact (some_ne_none _).symm
  · cases present : state.inflight with
    | none =>
      have leads : (state.calls id).leads = true := by
        rw [stood]
        rfl
      exact absurd present (leadership.held id leads)
    | some sender =>
      have shared : apply state .announce = { state with
          inflight := none
          versions := Function.update state.versions sender (state.versions sender + 1) } := by
        rw [apply, announce, present]
      refine ⟨?_, ?_, ?_, ?_, ?_⟩ <;> simp only [moved, shared]
      · exact nofun
      · refine moved_forall .announce (fun phase => ∀ wait, phase = .deciding wait false →
          wait < state.nextSender) nofun fun other _ => channels.found other
      · refine moved_forall .announce (fun phase => ∀ wait, phase.follows = some wait →
          wait < state.nextSender ∧ none ≠ some wait) nofun ?_
        intro other _ wait follows
        exact ⟨(channels.past other wait follows).1, (some_ne_none _).symm⟩
      · rw [Orderly, stood] at permitted
        refine moved_forall .announce (fun phase => ∀ wait current,
          phase = .resubscribing wait current → none = some current) nofun ?_
        intro other _ wait current stands
        exact absurd (channels.current other wait current stands)
          (permitted other wait current stands)
      · refine moved_forall .announce (fun phase => ∀ wait receiver seen,
          phase = .awaiting wait receiver seen →
            seen ≤ Function.update state.versions sender (state.versions sender + 1) receiver ∧
              (none ≠ some receiver →
                seen < Function.update state.versions sender (state.versions sender + 1)
                  receiver)) nofun ?_
        intro other _ wait receiver seen stands
        have heard := channels.heard other wait receiver seen stands
        by_cases same : receiver = sender
        · rw [same, update_self]
          rw [same] at heard
          exact ⟨Nat.le_succ_of_le heard.1, fun _ => Nat.lt_succ_of_le heard.1⟩
        · rw [update_of_ne same]
          refine ⟨heard.1, fun _ => heard.2 ?_⟩
          rw [present]
          exact fun equal => same (Option.some.inj equal).symm

def Phase.out : Phase → Option Bytes
  | preparing out | creating out | writing out _ _ | moving out => some out
  | releasing result | dropping result | returned result => result
  | _ => none

/-- Everything behind the key's name is whole; a leader that writes is alone with the file it
writes, and what it has written so far is the beginning of its body. -/
structure Storage (config : Config) (state : State) : Prop where
  whole : ∀ inode, state.files.cache = some inode → Complete config (state.files.content inode)
  distinct : ∀ inode, state.files.tmp = some inode → state.files.cache ≠ some inode
  known : ∀ inode, state.files.tmp = some inode ∨ state.files.cache = some inode →
    inode < state.files.next
  bodies : ∀ id out, (state.calls id).out = some out → Complete config out
  writing : ∀ id out inode written, state.calls id = .writing out inode written →
    (∀ other, state.files.tmp = some other → other = inode) ∧
      state.files.content inode = out.take written ∧
      state.files.cache ≠ some inode ∧ inode < state.files.next
  moving : ∀ id out inode, state.calls id = .moving out → state.files.tmp = some inode →
    state.files.content inode = out

/-- A step of a call that leaves the files alone. -/
structure Hands (config : Config) (state : State) (before after : Phase) : Prop where
  writing : ∀ out inode written, after ≠ .writing out inode written
  moving : ∀ out, after = .moving out → ∃ inode, before = .writing out inode out.length
  out : ∀ out, after.out = some out → before.out = some out ∨ cached config state = some out ∨
    Complete config out

theorem file_cases (fired : next config state before action = some (after, effect)) :
    (Hands config state before after ∧ (apply state effect).files = state.files) ∨
    (∃ out, before = .creating out ∧ after = .writing out state.files.create.2 0 ∧
      effect = .create) ∨
    (∃ out inode written count, before = .writing out inode written ∧
      written + count ≤ out.length ∧ after = .writing out inode (written + count) ∧
      effect = .write inode written ((out.drop written).take count)) ∨
    ∃ out inode, before = .moving out ∧ state.files.tmp = some inode ∧
      after = .releasing (some out) ∧ effect = .rename inode := by
  cases before <;> cases action <;> simp only [next, reduceCtorEq] at fired
  case creating.proceed out =>
    cases fired
    exact .inr (.inl ⟨out, rfl, rfl, rfl⟩)
  case writing.write out inode written count =>
    obtain ⟨⟨_, fits⟩, fired⟩ := ite_none_right_eq_some.mp fired
    cases fired
    exact .inr (.inr (.inl ⟨out, inode, written, count, rfl, fits, rfl, rfl⟩))
  case moving.proceed out =>
    split at fired
    · rename_i inode present
      cases fired
      exact .inr (.inr (.inr ⟨out, inode, rfl, present, rfl, rfl⟩))
    · cases fired
      exact .inl ⟨⟨nofun, nofun, fun _ carried => .inl carried⟩, rfl⟩
  all_goals left
  case writing.proceed out inode written =>
    obtain ⟨full, fired⟩ := ite_none_right_eq_some.mp fired
    cases fired
    refine ⟨⟨nofun, ?_, fun _ carried => .inl carried⟩, rfl⟩
    rintro out ⟨⟩
    exact ⟨inode, by rw [full]⟩
  case compressing.proceed body =>
    split at fired
    · rename_i out compressed
      split at fired <;> cases fired <;> refine ⟨⟨nofun, nofun, ?_⟩, rfl⟩ <;> rintro out ⟨⟩ <;>
        exact .inr (.inr ⟨body, compressed⟩)
    · cases fired
      exact ⟨⟨nofun, nofun, nofun⟩, rfl⟩
  case dropping.proceed result =>
    cases fired
    refine ⟨⟨nofun, nofun, fun _ carried => .inl carried⟩, ?_⟩
    rw [apply, announce]
    split <;> rfl
  case looking.proceed wait receiver seen =>
    split at fired
    · cases fired
      exact ⟨⟨nofun, nofun, nofun⟩, rfl⟩
    · split at fired <;> cases fired <;> exact ⟨⟨nofun, nofun, nofun⟩, rfl⟩
  -- every other step hands on the body it has, or one it has just read
  all_goals first
    | cases fired
      exact ⟨⟨nofun, nofun, fun _ carried => .inl carried⟩, rfl⟩
    | split at fired <;> cases fired <;> refine ⟨⟨nofun, nofun, ?_⟩, rfl⟩ <;>
        simp_all [Phase.out]

theorem create_spec {files : Files}
    (distinct : ∀ inode, files.tmp = some inode → files.cache ≠ some inode)
    (known : ∀ inode, files.tmp = some inode ∨ files.cache = some inode → inode < files.next) :
    files.create.1.tmp = some files.create.2 ∧ files.create.1.cache = files.cache ∧
      files.create.1.content = Function.update files.content files.create.2 [] ∧
      files.cache ≠ some files.create.2 ∧ files.create.2 < files.create.1.next ∧
      files.next ≤ files.create.1.next := by
  rw [Files.create]
  split
  · rename_i inode present
    exact ⟨present, rfl, rfl, distinct inode present, known inode (.inl present), Nat.le_refl _⟩
  · refine ⟨rfl, rfl, rfl, fun same => ?_, Nat.lt_succ_self _, Nat.le_succ _⟩
    exact Nat.lt_irrefl _ (known files.next (.inr same))

theorem writeAt_take {out : Bytes} {written count : Nat} (fits : written + count ≤ out.length) :
    writeAt (out.take written) written ((out.drop written).take count) =
      out.take (written + count) := by
  have short : (out.take written).length = written := by
    rw [length_take]
    omega
  have taken : ((out.drop written).take count).length = count := by
    rw [length_take, length_drop]
    omega
  have past : (out.take written).drop (written + count) = [] := by
    apply drop_eq_nil_of_le
    rw [short]
    exact Nat.le_add_right _ _
  rw [writeAt, taken, short, Nat.sub_self, replicate_zero, append_nil, past,
    take_take, Nat.min_self, append_nil, take_add]

theorem storage_moved {id : Nat} (leadership : Leadership state) (storage : Storage config state)
    (permitted : Orderly state (.call id action))
    (fired : next config state (state.calls id) action = some (after, effect)) :
    Storage config (moved state id after effect) := by
  have single := (leadership_moved leadership permitted fired).single
  -- a call that writes or is about to rename leads, so it is the call that moved
  have lone : after.leads = true → ∀ other phase, (moved state id after effect).calls other =
      phase → phase.leads = true → other = id := by
    rintro leads other _ rfl still
    refine single other id still ?_
    rwa [moved_self]
  have carried : (∀ out, after.out = some out → Complete config out) →
      ∀ other out, ((moved state id after effect).calls other).out = some out →
        Complete config out := fun self =>
    moved_forall _ (fun phase => ∀ out, phase.out = some out → Complete config out)
      self fun other _ => storage.bodies other
  rcases file_cases fired with ⟨hands, files⟩ | ⟨out, stood, rfl, rfl⟩ |
    ⟨out, inode, written, count, stood, fits, rfl, rfl⟩ | ⟨out, inode, stood, present, rfl, rfl⟩
  · have files : (moved state id after effect).files = state.files := files
    refine ⟨?_, ?_, ?_, carried ?_, ?_, ?_⟩
    · rw [files]
      exact storage.whole
    · rw [files]
      exact storage.distinct
    · rw [files]
      exact storage.known
    · intro out carries
      rcases hands.out out carries with before | found | complete
      · exact storage.bodies id out before
      · rw [cached] at found
        split at found
        · obtain ⟨inode, present, rfl⟩ := map_eq_some_iff.mp found
          exact storage.whole inode present
        · cases found
      · exact complete
    · rw [files]
      exact moved_forall _ (fun phase => ∀ out inode written,
        phase = .writing out inode written →
          (∀ other, state.files.tmp = some other → other = inode) ∧
            state.files.content inode = out.take written ∧
            state.files.cache ≠ some inode ∧ inode < state.files.next)
        (fun out inode written absurd => (hands.writing out inode written absurd).elim)
        fun other _ => storage.writing other
    · rw [files]
      refine moved_forall _ (fun phase => ∀ out inode, phase = .moving out →
        state.files.tmp = some inode → state.files.content inode = out) ?_
        fun other _ => storage.moving other
      intro out inode moves present
      obtain ⟨written, stood⟩ := hands.moving out moves
      obtain ⟨alone, content, _⟩ := storage.writing id out written out.length stood
      rw [alone inode present, content, take_length]
  · obtain ⟨tmp, cache, content, apart, smaller, grown⟩ :=
      create_spec storage.distinct storage.known
    have files : (moved state id (.writing out state.files.create.2 0) .create).files =
        state.files.create.1 := rfl
    have complete : Complete config out := storage.bodies id out (by rw [stood]; rfl)
    have kept : ∀ inode, state.files.cache = some inode →
        Function.update state.files.content state.files.create.2 [] inode =
          state.files.content inode := by
      intro inode stored
      apply update_of_ne
      rintro rfl
      exact apart stored
    refine ⟨?_, ?_, ?_, carried ?_, ?_, ?_⟩
    · intro inode stored
      rw [files, cache] at stored
      rw [files, content, kept inode stored]
      exact storage.whole inode stored
    · intro inode named
      rw [files, tmp] at named
      rw [files, cache, ← Option.some.inj named]
      exact apart
    · rintro inode (named | stored)
      · rw [files, tmp] at named
        rw [← Option.some.inj named]
        exact smaller
      · rw [files, cache] at stored
        exact Nat.lt_of_lt_of_le (storage.known inode (.inr stored)) grown
    · rintro body ⟨⟩
      exact complete
    · intro other body inode written stands
      rw [lone rfl other _ stands rfl, moved_self] at stands
      cases stands
      rw [files, content, cache, update_self]
      refine ⟨fun other named => ?_, rfl, apart, smaller⟩
      rw [tmp] at named
      exact (Option.some.inj named).symm
    · intro other body inode stands
      rw [lone rfl other _ stands rfl, moved_self] at stands
      cases stands
  · obtain ⟨alone, content, apart, smaller⟩ := storage.writing id out inode written stood
    have complete : Complete config out := storage.bodies id out (by rw [stood]; rfl)
    have files : (moved state id (.writing out inode (written + count))
        (.write inode written ((out.drop written).take count))).files =
        { state.files with
          content := Function.update state.files.content inode (out.take (written + count)) } := by
      simp only [moved, apply, Files.write, content, writeAt_take fits]
    refine ⟨?_, ?_, ?_, carried ?_, ?_, ?_⟩
    · intro other stored
      rw [files] at stored ⊢
      have differs : other ≠ inode := by
        rintro rfl
        exact apart stored
      dsimp only
      rw [update_of_ne differs]
      exact storage.whole other stored
    · rw [files]
      exact storage.distinct
    · rw [files]
      exact storage.known
    · rintro body ⟨⟩
      exact complete
    · intro other body target reached stands
      rw [lone rfl other _ stands rfl, moved_self] at stands
      cases stands
      rw [files]
      exact ⟨alone, update_self .., apart, smaller⟩
    · intro other body target stands
      rw [lone rfl other _ stands rfl, moved_self] at stands
      cases stands
  · have complete : Complete config out := storage.bodies id out (by rw [stood]; rfl)
    have files : (moved state id (.releasing (some out)) (.rename inode)).files =
        { state.files with tmp := none, cache := some inode } := rfl
    refine ⟨?_, ?_, ?_, carried ?_, ?_, ?_⟩
    · intro other stored
      rw [files] at stored ⊢
      cases stored
      rw [storage.moving id out inode stood present]
      exact complete
    · rw [files]
      exact nofun
    · rintro other (absurd | stored)
      · cases absurd
      · rw [files] at stored ⊢
        cases stored
        exact storage.known inode (.inl present)
    · rintro body ⟨⟩
      exact complete
    · intro other body target reached stands
      rw [lone rfl other _ stands rfl, moved_self] at stands
      cases stands
    · intro other body target stands
      rw [lone rfl other _ stands rfl, moved_self] at stands
      cases stands

/-- What holds in every state of an orderly run. -/
structure Sound (config : Config) (state : State) : Prop where
  leadership : Leadership state
  channels : Channels state
  storage : Storage config state

variable {left : LeftBehind config}

theorem sound_initial : Sound config (system config left).init where
  leadership := ⟨nofun, nofun, nofun⟩
  channels := ⟨nofun, nofun, nofun, nofun, nofun⟩
  storage := ⟨left.whole, left.distinct, left.known, nofun, nofun, nofun⟩

theorem storage_unlink (storage : Storage config state) :
    Storage config { state with files := { state.files with tmp := none } } ∧
      Storage config { state with files := { state.files with cache := none } } := by
  constructor
  · refine ⟨storage.whole, nofun, ?_, storage.bodies, ?_, nofun⟩
    · rintro inode (absurd | stored)
      · cases absurd
      · exact storage.known inode (.inr stored)
    · intro id out inode written stands
      exact ⟨nofun, (storage.writing id out inode written stands).2⟩
  · refine ⟨nofun, nofun, ?_, storage.bodies, ?_, storage.moving⟩
    · rintro inode (named | absurd)
      · exact storage.known inode (.inl named)
      · cases absurd
    · intro id out inode written stands
      obtain ⟨alone, content, _, smaller⟩ := storage.writing id out inode written stands
      exact ⟨alone, content, nofun, smaller⟩

theorem sound_preserved :
    StepSystem.Preserved (system config left) Orderly (Sound config) := by
  intro state label following sound permitted stepped
  cases label with
  | call id action =>
    obtain ⟨⟨after, effect⟩, fired, rfl⟩ := map_eq_some_iff.mp stepped
    exact {
      leadership := leadership_moved sound.leadership permitted fired
      channels := channels_moved sound.leadership sound.channels permitted fired
      storage := storage_moved sound.leadership sound.storage permitted fired }
  | unlinkTmp =>
    cases stepped
    exact ⟨⟨sound.leadership.entered, sound.leadership.held, sound.leadership.single⟩,
      ⟨sound.channels.issued, sound.channels.found, sound.channels.past,
        sound.channels.current, sound.channels.heard⟩, (storage_unlink sound.storage).1⟩
  | unlinkCache =>
    cases stepped
    exact ⟨⟨sound.leadership.entered, sound.leadership.held, sound.leadership.single⟩,
      ⟨sound.channels.issued, sound.channels.found, sound.channels.past,
        sound.channels.current, sound.channels.heard⟩, (storage_unlink sound.storage).2⟩

section Returning

variable {id : Nat} {wait receiver : Sender} {seen : Nat}

theorem returns_after (fired : next config state (state.calls id) action = some (after, effect))
    (returns : CanReturn config left (moved state id after effect) id) :
    CanReturn config left state id := by
  obtain ⟨actions, finish, result, path, returned⟩ := returns
  refine ⟨action :: actions, finish, result, ⟨trivial, _, ?_, path⟩, returned⟩
  exact map_eq_some_iff.mpr ⟨_, fired, rfl⟩

theorem returns_returned {result : Option Bytes} (stood : state.calls id = .returned result) :
    CanReturn config left state id :=
  ⟨[], state, result, rfl, stood⟩

section

variable (empty : state.inflight = none)
include empty

theorem returns_looking (stood : state.calls id = .looking wait receiver seen) :
    CanReturn config left state id := by
  have fired : next config state (state.calls id) .proceed = some (.returned none, .quiet) := by
    rw [stood]
    simp only [next, empty]
  exact returns_after fired (returns_returned (moved_self ..))

theorem returns_polling (stood : state.calls id = .polling wait receiver seen) :
    CanReturn config left state id := by
  cases found : cached config state with
  | some body =>
    have fired : next config state (state.calls id) .proceed =
        some (.returned (some body), .quiet) := by
      rw [stood]
      simp only [next, found]
    exact returns_after fired (returns_returned (moved_self ..))
  | none =>
    have fired : next config state (state.calls id) .proceed =
        some (.looking wait receiver seen, .quiet) := by
      rw [stood]
      simp only [next, found]
    exact returns_after fired (returns_looking empty (moved_self ..))

theorem returns_subscribing (stood : state.calls id = .subscribing wait) :
    CanReturn config left state id := by
  have fired : next config state (state.calls id) .proceed =
      some (.polling wait wait (state.versions wait), .quiet) := by
    rw [stood]
    rfl
  exact returns_after fired (returns_polling empty (moved_self ..))

theorem returns_awaiting (stood : state.calls id = .awaiting wait receiver seen)
    (news : seen < state.versions receiver) : CanReturn config left state id := by
  have fired : next config state (state.calls id) .proceed =
      some (.polling wait receiver (state.versions receiver), .quiet) := by
    rw [stood]
    exact if_pos news
  exact returns_after fired (returns_polling empty (moved_self ..))

end

theorem no_lost_wakeup (sound : Sound config state) : NoLostWakeup config left state := by
  refine ⟨fun id wait receiver seen stood =>
    (sound.channels.heard id wait receiver seen stood).2, ?_⟩
  intro empty id following
  cases stood : state.calls id with
  | subscribing wait => exact returns_subscribing empty stood
  | polling wait receiver seen => exact returns_polling empty stood
  | looking wait receiver seen => exact returns_looking empty stood
  | resubscribing wait current =>
    have present := sound.channels.current id wait current stood
    rw [empty] at present
    cases present
  | awaiting wait receiver seen =>
    refine returns_awaiting empty stood ((sound.channels.heard id wait receiver seen stood).2 ?_)
    rw [empty]
    exact (some_ne_none _).symm
  | _ =>
    rw [stood] at following
    exact absurd rfl following

end Returning

/-- In every orderly run one call leads, stored bodies are whole and no wake-up is lost. -/
theorem single_flight (reached : StepSystem.Reachable (system config left) Orderly state) :
    SingleFlight state ∧ WholeFiles config state ∧ NoLostWakeup config left state := by
  have sound : Sound config state :=
    StepSystem.invariant_of_step sound_initial sound_preserved reached
  refine ⟨sound.leadership.single, ⟨?_, ?_⟩, no_lost_wakeup sound⟩
  · intro body found
    rw [cached] at found
    split at found
    · obtain ⟨inode, stored, rfl⟩ := map_eq_some_iff.mp found
      exact sound.storage.whole inode stored
    · cases found
  · intro id body returned
    exact sound.storage.bodies id body (by rw [returned]; rfl)

def pairConfig : Config :=
  { cacheDir := true
    compress := fun body => if body = [] then none else some [1, 2]
    permits := 2 }

def emptyCache : LeftBehind pairConfig where
  files := { tmp := none, cache := none, content := fun _ => [], next := 0 }
  whole := nofun
  distinct := nofun
  known := by
    rintro inode (absurd | absurd) <;> cases absurd

def go (id : Nat) : Label := .call id .proceed

def twoLeaders : List Label := [go 0, go 0, go 0, go 1, go 1, go 1, go 0, go 1]

def tornFile : List Label :=
  twoLeaders ++ [go 0, go 1, go 0, go 1, .call 0 (.source [7]), .call 1 (.source [7]),
    go 0, go 1, go 0, go 1, go 0, .call 0 (.write 2), go 0, go 1, go 0, go 2, go 2]

def lostWakeup : List Label :=
  [go 0, go 0, go 0, go 1, go 1, go 1, go 0, go 0, go 0, .call 0 .fail, go 0, go 0,
    go 2, go 2, go 2, go 1, go 1, go 1, go 1, go 2, go 2, go 2, .call 2 .fail, go 2, go 2, go 1]

def ranState (labels : List Label) : State :=
  ((system pairConfig emptyCache).run (system pairConfig emptyCache).init labels).getD
    (system pairConfig emptyCache).init

theorem single_flight_first_leader :
    SingleFlight (ranState [go 0, go 0, go 0, go 0]) ∧
      WholeFiles pairConfig (ranState [go 0, go 0, go 0, go 0]) ∧
      NoLostWakeup pairConfig emptyCache (ranState [go 0, go 0, go 0, go 0]) :=
  single_flight ⟨[go 0, go 0, go 0, go 0], trivial, _, rfl, trivial, _, rfl, trivial, _, rfl,
    .inl rfl, _, rfl, rfl⟩

theorem interleavings_break :
    (∃ state, StepSystem.Reachable (system pairConfig emptyCache) StepSystem.Unrestricted state ∧
        ¬ SingleFlight state) ∧
      (∃ state, StepSystem.Reachable (system pairConfig emptyCache) StepSystem.Unrestricted state ∧
        ¬ WholeFiles pairConfig state) ∧
      ∃ state, StepSystem.Reachable (system pairConfig emptyCache) StepSystem.Unrestricted state ∧
        ¬ NoLostWakeup pairConfig emptyCache state := by
  refine ⟨⟨ranState twoLeaders, ⟨twoLeaders, StepSystem.path_of_run _ _ _ rfl⟩, ?_⟩,
    ⟨ranState tornFile, ⟨tornFile, StepSystem.path_of_run _ _ _ rfl⟩, ?_⟩,
    ⟨ranState lostWakeup, ⟨lostWakeup, StepSystem.path_of_run _ _ _ rfl⟩, ?_⟩⟩
  · intro single
    exact absurd (single 0 1 rfl rfl) (by decide)
  · intro whole
    obtain ⟨source, compressed⟩ := whole.2 2 [] rfl
    simp [pairConfig] at compressed
  · intro woken
    exact absurd (woken.1 1 0 1 1 rfl (by decide)) (Nat.lt_irrefl 1)

end OnlyJs.Serve.CompressCache
