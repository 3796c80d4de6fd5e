import OnlyJs.Lib.Decimal

/-!
# The key-value store in memory

An entry may have a deadline, and only a read removes an entry whose deadline has passed. The
other operations meet such entries, while in the reference store they do not exist.
-/

namespace OnlyJs.Bridge.Kv

open Lib.Decimal List Option Function

abbrev Text := List Char

structure Entry where
  value : Text
  expires : Option Nat

abbrev InMemoryKV := Text → Option Entry

def InMemoryKV.empty : InMemoryKV := fun _ => none

inductive Answer where
  | text (value : Option Text)
  | done
  | flag (set : Bool)
  | number (n : Int)
  | error (message : Text)
deriving DecidableEq

inductive Op where
  | get (key : Text)
  | set (key value : Text)
  | del (key : Text)
  | expire (key : Text) (ttlMs : Int)
  | incr (key : Text)

def Entry.due (now : Nat) (entry : Entry) : Bool :=
  match entry.expires with
  | some expires => expires ≤ now
  | none => false

def maxI64 : Int := 2 ^ 63 - 1

def wrapI64 (n : Int) : Int := (n + 2 ^ 63) % 2 ^ 64 - 2 ^ 63

def notANumber (key value : Text) : Text :=
  "kv.incr: ".toList ++ key ++ " is not a number (".toList ++ value ++ ")".toList

variable (now : Nat) (kv : InMemoryKV)

def get (key : Text) : Answer × InMemoryKV :=
  match kv key with
  | some entry =>
    if entry.due now then (.text none, Function.update kv key none)
    else (.text (some entry.value), kv)
  | none => (.text none, kv)

def set (key value : Text) : Answer × InMemoryKV :=
  (.done, Function.update kv key (some ⟨value, none⟩))

def del (key : Text) : Answer × InMemoryKV := (.done, Function.update kv key none)

def expire (key : Text) (ttl : Nat) : Answer × InMemoryKV :=
  match kv key with
  | some entry => (.flag true, Function.update kv key (some { entry with expires := now + ttl }))
  | none => (.flag false, kv)

def incr (key : Text) : Answer × InMemoryKV :=
  let entry := (kv key).getD ⟨['0'], none⟩
  match parseInt64 entry.value with
  | none => (.error (notANumber key entry.value), Function.update kv key (some entry))
  | some n =>
    let n := wrapI64 (n + 1)
    (.number n, Function.update kv key (some { entry with value := (toString n).toList }))

def step : Op → Answer × InMemoryKV
  | .get key => get now kv key
  | .set key value => set kv key value
  | .del key => del kv key
  | .expire key ttlMs => expire now kv key ttlMs.toNat
  | .incr key => incr kv key

def live : InMemoryKV := fun key => (kv key).filter fun entry => !entry.due now

def overflow (key : Text) : Text := "kv.incr: ".toList ++ key ++ " is at its limit".toList

def countUp (store : InMemoryKV) (key : Text) : Answer × InMemoryKV :=
  match store key with
  | none => (.number 1, Function.update store key (some ⟨['1'], none⟩))
  | some entry =>
    match parseInt64 entry.value with
    | none => (.error (notANumber key entry.value), store)
    | some n =>
      if n = maxI64 then (.error (overflow key), store)
      else (.number (n + 1),
        Function.update store key (some { entry with value := (toString (n + 1)).toList }))

/-- The reference store drops what has expired before each operation. -/
def reference : Op → Answer × InMemoryKV
  | .get key => (.text ((live now kv key).map Entry.value), live now kv)
  | .set key value => set (live now kv) key value
  | .del key => del (live now kv) key
  | .expire key ttlMs => expire now (live now kv) key ttlMs.toNat
  | .incr key => countUp (live now kv) key

abbrev Event := Nat × Op

@[grind =]
def run (perform : Nat → InMemoryKV → Op → Answer × InMemoryKV) :
    InMemoryKV → List Event → List Answer × InMemoryKV
  | kv, [] => ([], kv)
  | kv, (now, op) :: rest =>
    let (answer, next) := perform now kv op
    let (answers, last) := run perform next rest
    (answer :: answers, last)

def Ordered (events : List Event) : Prop := events.Pairwise fun first second => first.1 ≤ second.1

/-- The operation does not meet an expired entry, nor a number that cannot be counted up. -/
def Safe : Op → Prop
  | .expire key _ => ∀ entry, kv key = some entry → entry.due now = false
  | .incr key => ∀ entry, kv key = some entry →
      entry.due now = false ∧ parseInt64 entry.value ≠ some maxI64
  | _ => True

@[grind =]
def SafeRun : InMemoryKV → List Event → Prop
  | _, [] => True
  | kv, (now, op) :: rest => Safe now kv op ∧ SafeRun (step now kv op).2 rest

variable {now kv}

variable {entry : Entry}

theorem due_later {earlier later : Nat} (order : earlier ≤ later) (due : entry.due earlier = true) :
    entry.due later = true := by
  unfold Entry.due at due ⊢
  split at due
  · rw [decide_eq_true_eq] at due ⊢
    exact Nat.le_trans due order
  · cases due

theorem live_live {earlier later : Nat} (order : earlier ≤ later) (kv : InMemoryKV) :
    live later (live earlier kv) = live later kv := by
  funext key
  unfold live
  rw [Option.filter_filter]
  congr 1
  funext entry
  cases due : entry.due earlier with
  | false => rw [Bool.not_false, Bool.true_and]
  | true => rw [due_later order due, Bool.and_self]

theorem live_update (key : Text) (entry : Option Entry) :
    live now (Function.update kv key entry) =
      Function.update (live now kv) key (entry.filter fun entry => !entry.due now) := by
  funext other
  unfold live
  by_cases same : other = key
  · rw [same, update_self, update_self]
  · rw [update_of_ne same, update_of_ne same]

variable {key : Text}

theorem live_due (found : kv key = some entry) (due : entry.due now = true) :
    live now kv key = none := by
  rw [live, found, filter_some, due]
  rfl

theorem live_kept (safe : ∀ entry, kv key = some entry → entry.due now = false) :
    live now kv key = kv key := by
  cases found : kv key with
  | none => rw [live, found, filter_none]
  | some entry => rw [live, found, filter_some, safe entry found, Bool.not_false, if_pos rfl]

theorem wrap_small {n : Int} (low : -(2 : Int) ^ 63 ≤ n) (high : n < 2 ^ 63) (other : n ≠ maxI64) :
    wrapI64 (n + 1) = n + 1 := by
  unfold maxI64 at other
  unfold wrapI64
  omega

theorem parse_range {text : Text} {n : Int} (read : parseInt64 text = some n) :
    -(2 : Int) ^ 63 ≤ n ∧ n < 2 ^ 63 := by
  exact of_decide_eq_true (filter_eq_some_iff.mp read).2

theorem kept_update (found : kv key = some entry) :
    Function.update kv key (some entry) = kv := by
  rw [← found, update_eq_self]

theorem incr_agrees (safe : Safe now kv (.incr key)) :
    (incr kv key).1 = (countUp (live now kv) key).1 ∧
      live now (incr kv key).2 = live now (countUp (live now kv) key).2 := by
  have kept := live_kept fun entry found => (safe entry found).1
  unfold incr countUp
  rw [kept]
  cases found : kv key with
  | none =>
    have zero : parseInt64 ['0'] = some 0 := by decide +kernel
    dsimp only [getD_none]
    rw [zero]
    refine ⟨rfl, ?_⟩
    rw [live_update, live_update, live_live (Nat.le_refl now)]
    rfl
  | some entry =>
    dsimp only [getD_some]
    cases read : parseInt64 entry.value with
    | none =>
      refine ⟨rfl, ?_⟩
      rw [kept_update found, live_live (Nat.le_refl now)]
    | some n =>
      have other : n ≠ maxI64 := by
        rintro rfl
        exact (safe entry found).2 read
      obtain ⟨low, high⟩ := parse_range read
      dsimp only
      rw [wrap_small low high other, if_neg other]
      refine ⟨rfl, ?_⟩
      rw [live_update, live_update, live_live (Nat.le_refl now)]

/-- An operation answers like the reference and leaves what the reference leaves. -/
theorem step_agrees {op : Op} (safe : Safe now kv op) :
    (step now kv op).1 = (reference now kv op).1 ∧
      live now (step now kv op).2 = live now (reference now kv op).2 := by
  cases op with
  | get key =>
    rw [reference, step, get]
    cases found : kv key with
    | none =>
      refine ⟨?_, (live_live (Nat.le_refl now) kv).symm⟩
      rw [live, found]
      rfl
    | some entry =>
      dsimp only
      cases due : entry.due now with
      | true =>
        have gone := live_due found due
        rw [if_pos rfl, gone]
        refine ⟨rfl, ?_⟩
        rw [live_update, live_live (Nat.le_refl now), filter_none, ← gone,
          update_eq_self]
      | false =>
        rw [live, found, filter_some, due]
        exact ⟨rfl, (live_live (Nat.le_refl now) kv).symm⟩
  | set key value | del key =>
    refine ⟨rfl, ?_⟩
    change live now (Function.update kv key _) = live now (Function.update (live now kv) key _)
    rw [live_update, live_update, live_live (Nat.le_refl now)]
  | expire key ttlMs =>
    rw [step, reference, expire, expire, live_kept safe]
    cases found : kv key with
    | none => exact ⟨rfl, (live_live (Nat.le_refl now) kv).symm⟩
    | some entry =>
      refine ⟨rfl, ?_⟩
      rw [live_update, live_update, live_live (Nat.le_refl now)]
  | incr key => exact incr_agrees safe

variable {store : InMemoryKV}

/-- The reference sees only what is live. -/
theorem reference_live (same : live now kv = live now store) (op : Op) :
    reference now kv op = reference now store op := by
  cases op <;> simp only [reference, same]

variable (perform : Nat → InMemoryKV → Op → Answer × InMemoryKV)

theorem run_cons (kv : InMemoryKV) (now : Nat) (op : Op) (rest : List Event) :
    (run perform kv ((now, op) :: rest)).1 =
      (perform now kv op).1 :: (run perform (perform now kv op).2 rest).1 := rfl

theorem ordered_cons {event : Event} {rest : List Event} (ordered : Ordered (event :: rest)) :
    (∀ later ∈ rest, event.1 ≤ later.1) ∧ Ordered rest :=
  pairwise_cons.mp ordered

theorem run_agrees {events : List Event} {kv : InMemoryKV} {since : Nat} (ordered : Ordered events)
    (later : ∀ event ∈ events, since ≤ event.1) (safe : SafeRun kv events)
    (same : live since kv = live since store) :
    (run step kv events).1 = (run reference store events).1 := by
  induction events generalizing kv store since with
  | nil => rfl
  | cons event rest ih =>
    obtain ⟨now, op⟩ := event
    obtain ⟨behind, restOrdered⟩ := ordered_cons ordered
    have order : since ≤ now := later (now, op) mem_cons_self
    have sameNow : live now kv = live now store := by
      rw [← live_live order kv, same, live_live order store]
    obtain ⟨answer, left⟩ := step_agrees safe.1
    rw [reference_live sameNow] at answer left
    have others := ih restOrdered behind safe.2 left
    rw [run_cons, run_cons, answer, others]

theorem run_append (kv : InMemoryKV) (front back : List Event) :
    (run perform kv (front ++ back)).1 =
      (run perform kv front).1 ++ (run perform (run perform kv front).2 back).1 := by
  induction front generalizing kv with
  | nil => rfl
  | cons event front ih =>
    rw [cons_append, run_cons, ih]
    rfl

theorem run_length (kv : InMemoryKV) (events : List Event) :
    (run perform kv events).1.length = events.length := by
  induction events generalizing kv with
  | nil => rfl
  | cons event events ih =>
    change (_ :: _).length = _
    rw [length_cons, ih, length_cons]

/-- To the reference, a read makes no difference. -/
theorem reference_read {back : List Event} (key : Text) (later : ∀ event ∈ back, now ≤ event.1) :
    (run reference store ((now, .get key) :: back)).1 =
      .text ((live now store key).map Entry.value) :: (run reference store back).1 := by
  rw [run_cons]
  congr 1
  cases back with
  | nil => rfl
  | cons event rest =>
    obtain ⟨next, op⟩ := event
    have order : now ≤ next := later (next, op) mem_cons_self
    have seen : reference next (reference now store (.get key)).2 op = reference next store op :=
      reference_live (live_live order store) op
    rw [run_cons, run_cons, seen]

/-- What the claim about reads says: with a read more, the other answers are the same. -/
def ReadsAside (front back : List Event) (now : Nat) (key : Text) : Prop :=
  ((run step .empty (front ++ (now, .get key) :: back)).1).eraseIdx front.length =
    (run step .empty (front ++ back)).1

end OnlyJs.Bridge.Kv
