import Wiretap.Injection
import Wiretap.Scenario.Channel
import Wiretap.Scenario.Clock

/-!
# Processes that follow a script

A scripted remote knows for each process how loading a payload into it ends and what the attempts to
open its channel come to. It keeps the calls that were made and the channels that were opened.
-/

namespace Wiretap.Scenario

/-- One attempt to open a channel: how long it takes, and what is wrong, if it fails. -/
structure Dial where
  delay : Nat := 0
  fault : Option Fault := none
  deriving Repr

/-- The script of a process. -/
structure Host where
  injection : Except InjectionFault Unit := .ok ()
  /-- Past the list the last attempt repeats. Without a list every attempt succeeds at once. -/
  dials : List Dial := []
  channel : Channel := {}

/-- A call that was made to the remote. -/
inductive Call where
  | inject (time : Nat) (pid : UInt32) (path : String)
  | dial (time : Nat) (name : String) (timeout : Nat)
  deriving Repr

structure Remote where
  /-- Scripts of single processes. -/
  hosts : List (UInt32 × Host) := []
  /-- The script of the others. -/
  other : Host := {}
  /-- How often each channel was dialed. -/
  dialed : List (UInt32 × Nat) := []
  /-- In reverse order. -/
  calls : List Call := []

/-- What a file system without any files but its directories says of a path: what is wrong, if
anything is. Only the path of its working directory and that of its root lead anywhere. -/
def lookUp (path : String) : Option Fault :=
  let parts := (path.splitOn "/").filter fun part => part != "" && part != "."
  if path.toList.contains '\x00' then
    some ⟨.invalidInput, "file name contained an unexpected NUL byte"⟩
  else if path.isEmpty then some .noSuchFile
  else if 4096 ≤ path.utf8ByteSize ∨ parts.head?.any (255 < ·.utf8ByteSize) then
    some ⟨.invalidFilename, "File name too long (os error 36)"⟩
  else if parts.isEmpty then none
  else some .noSuchFile

namespace Remote

def host (r : Remote) (pid : UInt32) : Host := (r.hosts.lookup pid).getD r.other

/-- Begins an attempt to open the channel of a process: what it comes to. -/
def dial (r : Remote) (now : Nat) (pid : UInt32) (name : String) (timeout : Nat) : Remote × Dial :=
  let before := (r.dialed.lookup pid).getD 0
  let dials := (r.host pid).dials
  let outcome := dials[before]?.getD (dials.getLast?.getD {})
  ({ r with
      dialed := (pid, before + 1) :: r.dialed.filter (·.1 != pid)
      calls := .dial now name timeout :: r.calls },
    outcome)

/-- An attempt to open a channel that is under way: when it ends, and what is wrong, if it fails. -/
abbrev Dialing := Option (Nat × Option Fault)

/-- What the remote does next for a job: it begins an attempt, or it gives the answer that the job
waits for. -/
def answer? (r : Remote) (now : Nat) (job : Injection.State) (dialing : Dialing) :
    Option (Remote × Dialing × Option Injection.Move) :=
  match job.phase with
  | .checking => some (r, none, some (.checked (lookUp job.payloadPath)))
  | .injecting =>
    some ({ r with calls := .inject now job.pid job.payloadPath :: r.calls }, none,
      some (.injected (r.host job.pid).injection))
  | .dialing _ _ =>
    match dialing with
    | none =>
      let (r, outcome) := r.dial now job.pid job.channelName job.dialTimeout
      some (r, some (now + outcome.delay, outcome.fault), none)
    | some (due, f) => if due ≤ now then some (r, none, some (.dialed f)) else none
  | .resting _ _ due => if due ≤ now then some (r, none, some .resumes) else none
  | .done _ => none

/-- The timers that a job waits for. -/
def alarms (job : Injection.State) (dialing : Dialing) : List Nat :=
  match job.phase, dialing with
  | .dialing _ _, some (due, _) => [due]
  | .resting _ _ due, _ => [due]
  | _, _ => []

end Remote

/-- The bringing up of an agent by a scripted remote. -/
structure Bringing where
  remote : Remote
  job : Injection.State
  dialing : Remote.Dialing := none

namespace Bringing

def move? (now : Nat) (b : Bringing) : Option Bringing :=
  match b.remote.answer? now b.job b.dialing with
  | some (remote, dialing, none) => some { b with remote, dialing }
  | some (remote, dialing, some m) => (b.job.step? now m).map fun job => { remote, job, dialing }
  | none => none

def result? (b : Bringing) : Option (Except InjectionError Connection) :=
  match b.job.phase with
  | .done r => some r
  | _ => none

def world : World Bringing where
  move? := move?
  alarm? now b := ((Remote.alarms b.job b.dialing).filter (now < ·)).min?

/-- Brings up the agent in a process, and lets the time pass that it takes. -/
def run (hook : HookConfig) (now : Nat) (remote : Remote) (pid : UInt32) :
    Nat × Remote × Option (Except InjectionError Connection) :=
  let (now, b) :=
    world.waitUntil now (·.result?.isSome) { remote, job := Injection.start hook pid }
  (now, b.remote, b.result?)

end Bringing
end Wiretap.Scenario

