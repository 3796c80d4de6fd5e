import Mathlib.Algebra.Order.Ring.Int
import Mathlib.Data.Finmap
import Mathlib.Tactic.Ring

/-!
# Firing times of a cron expression

An expression has five bit fields. The next firing time is found by stepping through the
minutes after a moment, for four years at most, and matching each against the fields in
the civil calendar. Moments are nanoseconds since the epoch.
-/

namespace OnlyJs.Bridge.TaskPool

def nanosPerSecond : Nat := 10 ^ 9

structure Field where
  bits : Nat
deriving DecidableEq

def Field.matches (field : Field) (value : Nat) : Bool :=
  value < 64 && field.bits.testBit value

structure CronExpr where
  min : Field
  hour : Field
  dom : Field
  mon : Field
  dow : Field
deriving DecidableEq

structure Civil where
  min : Nat
  hour : Nat
  dom : Nat
  mon : Nat
  dow : Nat
deriving DecidableEq

def civil (t : Nat) : Civil :=
  let days := t / 86400
  let secsOfDay := t % 86400
  let z := days + 719468
  let era := z / 146097
  let doe := z - era * 146097
  let yoe := (doe - doe / 1460 + doe / 36524 - doe / 146096) / 365
  let doy := doe - (365 * yoe + yoe / 4 - yoe / 100)
  let mp := (5 * doy + 2) / 153
  { min := secsOfDay / 60 % 60
    hour := secsOfDay / 3600
    dom := doy - (153 * mp + 2) / 5 + 1
    mon := if mp < 10 then mp + 3 else mp - 9
    dow := (days + 4) % 7 }

namespace CronExpr

def fires (expr : CronExpr) (t : Nat) : Bool :=
  let moment := civil t
  expr.min.matches moment.min && expr.hour.matches moment.hour && expr.mon.matches moment.mon &&
    (expr.dom.matches moment.dom || expr.dow.matches moment.dow)

def scan (expr : CronExpr) : Nat → Nat → Option Nat
  | 0, _ => none
  | minutes + 1, t => if expr.fires t then some t else expr.scan minutes (t + 60)

/-- The first firing time after a moment, none within four years. -/
def nextAfter (expr : CronExpr) (start : Nat) : Option Nat :=
  let secs := start / nanosPerSecond
  let t := (secs / 60 + 1) * 60
  let cap := secs + 4 * 366 * 24 * 3600
  (expr.scan ((cap + 60 - t) / 60) t).map fun t => t * nanosPerSecond

/-- The moment is the start of a minute that the expression fires at. -/
def FiresAt (expr : CronExpr) (moment : Nat) : Prop :=
  ∃ minute, moment = minute * 60 * nanosPerSecond ∧ expr.fires (minute * 60) = true

theorem scan_some {expr : CronExpr} {minutes t found : Nat}
    (scanned : expr.scan minutes t = some found) :
    ∃ count, found = t + 60 * count ∧ expr.fires found = true ∧
      ∀ earlier < count, expr.fires (t + 60 * earlier) = false := by
  induction minutes generalizing t with
  | zero => cases scanned
  | succ minutes ih =>
    unfold scan at scanned
    split at scanned
    · rename_i fired
      cases scanned
      exact ⟨0, rfl, fired, nofun⟩
    · rename_i quiet
      obtain ⟨count, rfl, fired, before⟩ := ih scanned
      refine ⟨count + 1, by omega, fired, fun earlier bound => ?_⟩
      cases earlier with
      | zero => simpa using quiet
      | succ earlier =>
        have silent := before earlier (by omega)
        rwa [show t + 60 * (earlier + 1) = t + 60 + 60 * earlier by omega]

/-- The next firing time is one, comes strictly later, and none lies in between. -/
theorem next_after_some {expr : CronExpr} {start next : Nat}
    (found : expr.nextAfter start = some next) :
    start < next ∧ expr.FiresAt next ∧
      ∀ other, expr.FiresAt other → start < other → next ≤ other := by
  obtain ⟨second, scanned, rfl⟩ := Option.map_eq_some_iff.mp found
  obtain ⟨count, rfl, fired, before⟩ := scan_some scanned
  have lower : start / nanosPerSecond * nanosPerSecond ≤ start := Nat.div_mul_le_self _ _
  have upper : start < (start / nanosPerSecond + 1) * nanosPerSecond :=
    (Nat.div_lt_iff_lt_mul (by decide)).mp (Nat.lt_succ_self _)
  generalize start / nanosPerSecond = secs at *
  refine ⟨?_, ⟨secs / 60 + 1 + count, ?_, ?_⟩, ?_⟩
  · have above : secs + 1 ≤ (secs / 60 + 1) * 60 + 60 * count := by omega
    exact upper.trans_le (Nat.mul_le_mul_right nanosPerSecond above)
  · ring
  · rwa [show (secs / 60 + 1 + count) * 60 = (secs / 60 + 1) * 60 + 60 * count by ring]
  · rintro other ⟨minute, rfl, fires⟩ later
    apply Nat.mul_le_mul_right
    -- a minute before the one found is either not after the start or has been scanned
    by_contra less
    have reached : secs / 60 + 1 ≤ minute := by
      by_contra early
      have above : minute * 60 ≤ secs := by omega
      have scaled := Nat.mul_le_mul_right nanosPerSecond above
      exact absurd later (scaled.trans lower).not_gt
    have silent := before (minute - (secs / 60 + 1)) (by omega)
    rw [show (secs / 60 + 1) * 60 + 60 * (minute - (secs / 60 + 1)) = minute * 60 by omega]
      at silent
    rw [silent] at fires
    cases fires

end CronExpr

end OnlyJs.Bridge.TaskPool
