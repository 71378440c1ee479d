/-!
# Periodic ticks

A ticker is due once per period. A tick that is taken late is not made up for by shorter periods:
after a delay of more than the tolerance the next tick is a whole period away.

Results:

* `start?_eq_none_iff`: only an empty period makes no ticker.
* `le_due_tick`: the next tick is due at least one period after the one that was taken was due.
-/

namespace Wiretap

/-- A ticker and the time at which its next tick is due, in milliseconds. `Pinger::serve` and
`ProcessWatcher::serve` have one each, which is delayed by a missed tick. -/
structure Ticker where
  period : Nat
  due : Nat
  deriving DecidableEq, Repr

namespace Ticker

/-- A tick that is taken at most this late counts as taken in time. -/
def tolerance : Nat := 5

/-- Model of `interval_at`: a ticker whose first tick is due after one period. There is none with an
empty period. -/
def start? (now period : Nat) : Option Ticker :=
  if period = 0 then none else some ⟨period, now + period⟩

theorem start?_eq_none_iff (now period : Nat) : start? now period = none ↔ period = 0 := by
  unfold start?
  split <;> simp_all

/-- What follows a tick that is taken now, under `MissedTickBehavior::Delay`. -/
def tick (now : Nat) (t : Ticker) : Ticker :=
  if t.due + tolerance < now then { t with due := now + t.period }
  else { t with due := t.due + t.period }

theorem le_due_tick (now : Nat) (t : Ticker) : t.due + t.period ≤ (t.tick now).due := by
  unfold tick
  split
  · show _ ≤ now + t.period
    omega
  · exact Nat.le_refl _

theorem period_tick (now : Nat) (t : Ticker) : (t.tick now).period = t.period := by
  unfold tick
  split <;> rfl

end Ticker
end Wiretap
