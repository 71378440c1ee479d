/-!
# Worlds with a clock

A world is made of tasks that move at no cost of time and of timers. It settles when no task can
move; time passes only then, from one timer to the next.

Results:

* `settleIn_of_still`: a world that cannot move stays as it is.
-/

namespace Wiretap.Scenario

/-- A world: one move of some task at this time, if there is one, and the earliest timer that goes
off after this time. -/
structure World (σ : Type) where
  move? : Nat → σ → Option σ
  alarm? : Nat → σ → Option Nat

namespace World

variable {σ : Type}

/-- A bound on moves that no scenario comes near. -/
def patience : Nat := 1099511627776

/-- Lets the tasks move until none can, with at most that many moves. -/
def settleIn (w : World σ) (now : Nat) : Nat → σ → σ
  | 0, s => s
  | fuel + 1, s =>
    match w.move? now s with
    | some s' => settleIn w now fuel s'
    | none => s

/-- Lets the tasks move until none can. -/
def settle (w : World σ) (now : Nat) (s : σ) : σ := w.settleIn now patience s

theorem settleIn_of_still {w : World σ} {now : Nat} {s : σ} (h : w.move? now s = none)
    (fuel : Nat) : w.settleIn now fuel s = s := by
  cases fuel <;> simp [settleIn, h]

/-- Lets time pass until `done` holds, but not beyond `limit`: the time then, and the world. -/
def passIn (w : World σ) (limit : Option Nat) (done : σ → Bool) : Nat → Nat → σ → Nat × σ
  | 0, now, s => (now, s)
  | fuel + 1, now, s =>
    let s := w.settle now s
    if done s then (now, s)
    else
      match w.alarm? now s with
      | some alarm =>
        if limit.all (alarm ≤ ·) then passIn w limit done fuel (max alarm (now + 1)) s
        else (limit.getD now, s)
      | none => (limit.getD now, s)

/-- Lets time pass for that long. -/
def advance (w : World σ) (now duration : Nat) (s : σ) : Nat × σ :=
  let (now, s) := w.passIn (some (now + duration)) (fun _ => false) patience now s
  (now, w.settle now s)

/-- Lets time pass until `done` holds, or no timer is left. -/
def waitUntil (w : World σ) (now : Nat) (done : σ → Bool) (s : σ) : Nat × σ :=
  w.passIn none done patience now s

/-- Lets time pass until `done` holds, but at most for that long. -/
def waitAtMost (w : World σ) (now duration : Nat) (done : σ → Bool) (s : σ) : Nat × σ :=
  w.passIn (some (now + duration)) done patience now s

end World
end Wiretap.Scenario
