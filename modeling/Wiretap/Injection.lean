import Wiretap.Config.Basic
import Wiretap.Connection
import Wiretap.Text.Shown

/-!
# Bringing up an agent

To reach an agent in a process, its payload is loaded into the process and the channel that it
serves is opened. A payload that was loaded before is good enough, but then the agent is not ours.
The channel may take some attempts, with a rest between them.

Results:

* `step?_done`: an attempt that is done makes no move.
* `attempts_pos`: the channel is tried at least once.
-/

namespace Wiretap

/-- Model of `InjectError`: why a payload could not be loaded into a process. -/
inductive InjectionFault where
  | alreadyInjected
  | unsupported
  | failed (reason : String)
  | io (f : Fault)
  deriving DecidableEq, Repr

def InjectionFault.message : InjectionFault → String
  | alreadyInjected => "Payload is already injected"
  | unsupported => "Injection is not supported on this platform"
  | failed reason => "Injection failed: " ++ reason
  | io f => "Injection failed: " ++ f.text

/-- The errors of `AgentInjector::initialize`: why an agent could not be brought up. -/
inductive InjectionError where
  | payloadMissing (path : String) (cause : Fault)
  | inject (pid : UInt32) (cause : InjectionFault)
  | dial (name : String) (attempts : Nat) (cause : Fault)
  deriving DecidableEq, Repr

def InjectionError.message : InjectionError → String
  | payloadMissing path cause => "Payload not found at " ++ Text.shown path ++ ": " ++ cause.text
  | inject pid cause =>
    "Failed to inject payload into process " ++ toString pid.toNat ++ ": " ++ cause.message
  | dial name attempts cause =>
    "Failed to open channel " ++ name ++ " after " ++ toString attempts ++ " attempts: "
      ++ cause.text

namespace Injection

/-- Where a call of `AgentInjector::initialize` stands. Attempts to open the channel count
from 1. -/
inductive Phase where
  /-- It looks for the payload. -/
  | checking
  | injecting
  | dialing (owner : Bool) (attempt : Nat)
  /-- The last attempt failed, and the next is made at that time. -/
  | resting (owner : Bool) (attempt : Nat) (due : Nat)
  | done (result : Except InjectionError Connection)

/-- A call of `AgentInjector::initialize`: the bringing up of the agent in one process. -/
structure State where
  pid : UInt32
  payloadPath : String
  channelName : String
  attempts : Nat
  retryInterval : Nat
  dialTimeout : Nat
  phase : Phase := .checking

/-- The channel is tried at least once. -/
def attempts (hook : HookConfig) : Nat := max hook.dialAttempts.toNat 1

/-- `AgentInjector::initialize` is called. -/
def start (hook : HookConfig) (pid : UInt32) : State where
  pid := pid
  payloadPath := hook.payloadPath
  channelName := hook.channelName pid
  attempts := attempts hook
  retryInterval := hook.dialRetryInterval.toNat
  dialTimeout := hook.dialTimeout.toNat

/-- A move, with the answer that it waited for. -/
inductive Move where
  /-- The payload was looked for: what is wrong with it, if anything is. -/
  | checked (f : Option Fault)
  | injected (r : Except InjectionFault Unit)
  /-- An attempt to open the channel has ended: what is wrong, if it failed. -/
  | dialed (f : Option Fault)
  | resumes

namespace State

/-- Model of the loop of `AgentInjector::initialize`, where an attempt to open failed. -/
def afterFailure (s : State) (now : Nat) (owner : Bool) (attempt : Nat) (f : Fault) : State :=
  if s.attempts ≤ attempt then
    { s with phase := .done (.error (.dial s.channelName s.attempts f)) }
  else { s with phase := .resting owner (attempt + 1) (now + s.retryInterval) }

/-- Model of `AgentInjector::initialize`: the state after a move, if the move can be made now. -/
def step? (now : Nat) (m : Move) (s : State) : Option State :=
  match m, s.phase with
  | .checked none, .checking => some { s with phase := .injecting }
  | .checked (some f), .checking =>
    some { s with phase := .done (.error (.payloadMissing s.payloadPath f)) }
  | .injected (.ok _), .injecting => some { s with phase := .dialing true 1 }
  | .injected (.error .alreadyInjected), .injecting => some { s with phase := .dialing false 1 }
  | .injected (.error f), .injecting => some { s with phase := .done (.error (.inject s.pid f)) }
  | .dialed none, .dialing owner _ => some { s with phase := .done (.ok { owner }) }
  | .dialed (some f), .dialing owner attempt => some (s.afterFailure now owner attempt f)
  | .resumes, .resting owner attempt due =>
    if due ≤ now then some { s with phase := .dialing owner attempt } else none
  | _, _ => none

theorem step?_done {now : Nat} {m : Move} {s : State} {r : Except InjectionError Connection}
    (h : s.phase = .done r) : s.step? now m = none := by
  unfold step?
  rw [h]
  split <;> simp_all

end State

theorem attempts_pos (hook : HookConfig) : 0 < attempts hook :=
  Nat.lt_of_lt_of_le Nat.zero_lt_one (Nat.le_max_right _ _)

end Injection
end Wiretap
