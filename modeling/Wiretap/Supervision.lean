import Wiretap.Config.Basic

/-!
# Restarting services

A supervisor runs each of its services until it stops or completes. One that fails is run again
after a rest, up to a number of failures, unless it has been cancelled.

Results:

* `Life.ended_of_not_failed`: a service that did not fail is not run again.
* `Life.ended_of_cancelled`: nor is one that was cancelled.
-/

namespace Wiretap

/-- Model of `ServiceExit`: how one run of a service ended. A panic is a failure, whose reason
`panic_message` makes. -/
inductive Exit where
  /-- It was cancelled. -/
  | stopped
  /-- It was done. -/
  | complete
  | failed (reason : String)
  deriving DecidableEq, Repr

/-- Where `supervise` stands with a service. -/
inductive Life where
  | running (failures : Nat)
  /-- It has failed and is run again at that time. -/
  | resting (failures : Nat) (due : Nat)
  | finished
  deriving DecidableEq, Repr

namespace Life

/-- A service that has just been added. -/
def fresh : Life := running 0

def isOver : Life → Bool
  | finished => true
  | _ => false

/-- Model of `supervise`, where a run has ended now: what follows it. The number of failures is the
one before. -/
def ended (policy : RestartPolicy) (now : Nat) (cancelled : Bool) (failures : Nat) : Exit → Life
  | .failed _ =>
    if cancelled ∨ policy.failureThreshold.toNat ≤ failures then finished
    else resting (failures + 1) (now + policy.failureBackoff.toNat)
  | _ => finished

/-- Model of `supervise`, where it waits for the end of a rest. Being cancelled ends the rest at
once and for good, and otherwise the service is run again when the rest is over. -/
def awake? (now : Nat) (cancelled : Bool) : Life → Option Life
  | resting failures due =>
    if cancelled then some finished else if due ≤ now then some (running failures) else none
  | _ => none

theorem ended_of_not_failed {policy : RestartPolicy} {now failures : Nat} {cancelled : Bool}
    {e : Exit} (h : ∀ reason, e ≠ .failed reason) :
    ended policy now cancelled failures e = finished := by
  cases e with
  | failed reason => exact absurd rfl (h reason)
  | stopped => rfl
  | complete => rfl

theorem ended_of_cancelled {policy : RestartPolicy} {now failures : Nat} {e : Exit} :
    ended policy now true failures e = finished := by
  cases e <;> simp [ended]

end Life

/-- The set of services that one supervisor runs. A token names a service of the set. Tokens count
up. The `next_token` of a supervisor has 64 bits and wraps: `tokenWord` says which word is given out
for a token. Words are not used again before `2 ^ 64` services have been added. -/
structure Supervisor (α : Type) where
  cancelled : Bool := false
  /-- How many tokens have been given out. -/
  nextToken : Nat := 0
  /-- Tokens and services, newest first. -/
  members : List (Nat × α) := []
  deriving Repr

namespace Supervisor

variable {α : Type}

/-- Model of `Supervisor::len`. -/
def size (s : Supervisor α) : Nat := s.members.length

/-- Model of `Supervisor::add_boxed`: adds a service under the next token. -/
def add (s : Supervisor α) (a : α) : Supervisor α :=
  { s with nextToken := s.nextToken + 1, members := (s.nextToken, a) :: s.members }

def member? (s : Supervisor α) (token : Nat) : Option α := s.members.lookup token

/-- Drops the service of that token, as `Supervisor::remove` and `Reaper::reap` do. -/
def drop (s : Supervisor α) (token : Nat) : Supervisor α :=
  { s with members := s.members.filter (·.1 != token) }

/-- Model of `Supervisor::stop` up to where it waits: cancels every service, and gives up the
set. -/
def stop (s : Supervisor α) : Supervisor α := { s with cancelled := true, members := [] }

/-- The 64 bits of a token. -/
def tokenWord (token : Nat) : UInt64 := .ofNat token

/-- The counter of the words wraps as it counts up. -/
@[simp] theorem tokenWord_succ (token : Nat) : tokenWord (token + 1) = tokenWord token + 1 :=
  UInt64.ofNat_add token 1

/-- Words name tokens below `2 ^ 64`. -/
theorem tokenWord_inj {token token' : Nat} (h : token < UInt64.size) (h' : token' < UInt64.size) :
    tokenWord token = tokenWord token' ↔ token = token' := by
  constructor
  · intro hword
    have hvalue := congrArg UInt64.toNat hword
    rwa [tokenWord, tokenWord, UInt64.toNat_ofNat_of_lt' h, UInt64.toNat_ofNat_of_lt' h'] at hvalue
  · rintro rfl
    rfl

/-- The name of a token in answers. -/
def tokenText (token : Nat) : String := "ServiceToken(" ++ toString token ++ ")"

/-- What the removal of a service that is not there reports. -/
def unknownText (token : Nat) : String := "Service " ++ tokenText token ++ " is not supervised"

end Supervisor
end Wiretap
