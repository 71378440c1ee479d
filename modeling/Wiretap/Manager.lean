import Wiretap.Injection
import Wiretap.Session.Step
import Wiretap.Watcher

/-!
# Managing sessions

The manager takes one event at a time off the queues of the watcher. For a process that has appeared
it brings up an agent, starts a session, enters it in the table and announces it; a process that has
a session already is left alone. For a process that has gone it takes the session out of the table,
stops it, waits until it is over, and announces that.

Sessions are numbered in the order in which they were started. Requests of callers find the session
of a process through the table.

Results:

* `session?_register`: a session that has just been registered is the one that requests find.
-/

namespace Wiretap.Manager

/-- Model of `Entry`, what the `SessionTable` says of a process: the token of its session among the
supervised ones, and the number of the session. -/
structure Entry where
  token : Nat
  session : Nat
  deriving DecidableEq, Repr

/-- Where `Manager::serve` stands. -/
inductive Service where
  | idle
  /-- It brings up an agent. -/
  | building (job : Injection.State)
  /-- It waits until the start of that session can be announced. -/
  | announcing (session : Nat)
  /-- It waits until the session of that process is over. -/
  | removing (pid : UInt32) (session : Nat)
  /-- It waits until the end of that session can be announced. -/
  | reporting (pid : UInt32)
  | finished (e : Exit)

/-- Model of `Manager`, with its `SessionTable` and the `Supervisor` of the sessions. -/
structure State where
  hook : HookConfig
  policy : RestartPolicy
  registry : Block.Registry
  events : ProcessEvents
  /-- Announces sessions that have started, by their numbers. -/
  up : Queue Nat
  /-- Announces processes whose session is over. -/
  down : Queue UInt32
  table : List (UInt32 × Entry) := []
  /-- The supervisor of the sessions. -/
  roster : Supervisor Nat := {}
  /-- Every session that was ever started. -/
  sessions : List Session.State := []
  service : Service := .idle

/-- Model of `Manager::new`: a manager that takes the events from these queues. -/
def new? (config : Config) (events : ProcessEvents) : Option State := do
  let up ← Queue.new? config.hook.eventBuffer.toNat
  let down ← Queue.new? config.hook.eventBuffer.toNat
  return {
    hook := config.hook
    policy := config.supervisor
    registry := .ofOpcodes config.opcodes
    events, up, down }

inductive Move where
  | takesAdded
  | takesRemoved
  /-- One of the queues has ended, and the manager is done. -/
  | completes
  /-- A move of the job that brings up an agent. -/
  | builds (m : Injection.Move)
  | announces
  /-- The session that is being removed is over. -/
  | released
  | reports
  /-- The service sees that it is cancelled. -/
  | stops
  /-- A move of a session. -/
  | session (i : Nat) (m : Session.Move)

/-- Why a request of a caller was not accepted. -/
inductive CallError where
  | sessionNotFound (pid : UInt32)
  | request (e : RequestError)
  | senderClosed (pid : UInt32)
  /-- It would have to wait for room in the queue of its session. -/
  | waits
  deriving DecidableEq, Repr

/-- What the lack of a session reports (`Error::SessionNotFound`). -/
def notFoundText (pid : UInt32) : String := "Stream " ++ toString pid.toNat ++ " not found"

namespace State

/-- Model of `SessionTable::ids`: the processes that have a session, in ascending order. -/
def ids (s : State) : List UInt32 := (s.table.map (·.1)).mergeSort fun a b => a ≤ b

/-- The record text of the table. -/
def describe (s : State) : String :=
  "SessionTable \x7b ids: [" ++ ", ".intercalate (s.ids.map fun pid => toString pid.toNat)
    ++ "] \x7d"

/-- Model of `SessionTable::get`: the session of a process. -/
def session? (s : State) (pid : UInt32) : Option Nat := (s.table.lookup pid).map (·.session)

def isSessionOver (s : State) (i : Nat) : Bool := s.sessions[i]?.all (·.isOver)

/-- Cancels a session. -/
def cancelSession (s : State) (i : Nat) : State :=
  { s with sessions := s.sessions.modify i ({ · with cancelled := true }) }

/-- A session goes over to another state. One that is over leaves its supervisor. -/
def setSession (s : State) (i : Nat) (session : Session.State) : State :=
  { s with
    sessions := s.sessions.set i session
    roster :=
      if session.isOver then { s.roster with members := s.roster.members.filter (·.2 != i) }
      else s.roster }

/-- Model of `Manager::on_added`, where the session is there: starts it and enters it in the table.
Under a stopped supervisor it is cancelled from the start. -/
def register (s : State) (pid : UInt32) (session : Session.State) : State :=
  let i := s.sessions.length
  { s with
    sessions := s.sessions ++ [{ session with cancelled := s.roster.cancelled }]
    roster := s.roster.add i
    table := (pid, ⟨s.roster.nextToken, i⟩) :: s.table.filter (·.1 != pid)
    service := .announcing i }

/-- Model of `Manager::on_added`, where `SessionBuilder::build` has made a move. A failed job is
dropped. -/
def afterBuild (s : State) (job : Injection.State) : State :=
  match job.phase with
  | .done (.ok conn) =>
    match Session.new? job.pid conn s.hook s.registry s.policy with
    | some session => s.register job.pid session
    | none => { s with service := .finished (.failed "a queue must have room for an item") }
  | .done (.error _) => { s with service := .idle }
  | _ => { s with service := .building job }

/-- Model of `Manager::on_removed`, up to where it waits: takes the session of a process out of the
table and, with `Supervisor::remove`, cancels it. A session that is not supervised any more needs no
waiting. -/
def detach (s : State) (pid : UInt32) : State :=
  match s.table.lookup pid with
  | none => s
  | some entry =>
    let s := { s with table := s.table.filter (·.1 != pid) }
    match s.roster.member? entry.token with
    | some i =>
      { s.cancelSession i with roster := s.roster.drop entry.token, service := .removing pid i }
    | none => { s with service := .reporting pid }

/-- `Manager::serve` returns, and has emptied the table. -/
def finish (s : State) (e : Exit) : State := { s with table := [], service := .finished e }

/-- The service is run again. -/
def restart (s : State) : State := { s with service := .idle }

/-- The manager is gone: it takes no events and announces nothing. -/
def release (s : State) : State :=
  { s with events := s.events.close, up := s.up.finish, down := s.down.finish }

/-- Model of `Supervisor::stop` on the supervisor of the sessions: the sessions are those that the
caller waits for. -/
def stopSessions (s : State) : State × List Nat :=
  let members := s.roster.members.map (·.2)
  ({ members.foldl cancelSession s with roster := s.roster.stop }, members)

/-- The service is at work or waits. -/
def isRunning (s : State) : Bool :=
  match s.service with
  | .finished _ => false
  | _ => true

/-- Model of `Manager::serve`, with `Manager::on_added` and `Manager::on_removed`: the state after a
move, if the move can be made now. Where it is cancelled while it waits in one of the two, the call
is given up. -/
def step? (now : Nat) (cancelled : Bool) (m : Move) (s : State) : Option State :=
  match m, s.service with
  | .takesAdded, .idle =>
    match s.events.added.take? with
    | some (pid, added) =>
      let s := { s with events.added := added }
      some (if (s.session? pid).isSome then s
        else { s with service := .building (Injection.start s.hook pid) })
    | none => none
  | .takesRemoved, .idle =>
    match s.events.removed.take? with
    | some (pid, removed) => some ({ s with events.removed := removed }.detach pid)
    | none => none
  | .completes, .idle =>
    if s.events.added.ended || s.events.removed.ended then some (s.finish .complete) else none
  | .builds m, .building job => (job.step? now m).map s.afterBuild
  | .announces, .announcing i =>
    match s.up.offer i with
    | .accepted up => some { s with up, service := .idle }
    | .refused => some { s with service := .idle }
    | .full => none
  | .released, .removing pid i =>
    if s.isSessionOver i then some { s with service := .reporting pid } else none
  | .reports, .reporting pid =>
    match s.down.offer pid with
    | .accepted down => some { s with down, service := .idle }
    | .refused => some { s with service := .idle }
    | .full => none
  | .stops, service =>
    match service with
    | .finished _ => none
    | _ => if cancelled then some (s.finish .stopped) else none
  | .session i m, _ => (s.sessions[i]?.bind (·.step? now m)).map (s.setSession i)
  | _, _ => none

/-- Model of `SessionHandle::send`: queues a message for the agent of a session. -/
def send (s : State) (i : Nat) (m : Message) : Except CallError State :=
  match s.sessions[i]? with
  | none => .ok s
  | some session =>
    match session.send m with
    | .accepted outgoing => .ok { s with sessions := s.sessions.set i { session with outgoing } }
    | .refused => .error (.senderClosed session.id)
    | .full => .error .waits

/-- Model of `SessionTable::send_request`: queues a request for the agent of a process. -/
def request (s : State) (pid : UInt32) (bytes : Bytes) : Except CallError State :=
  match s.session? pid with
  | none => .error (.sessionNotFound pid)
  | some i =>
    match Request.decode bytes with
    | .error e => .error (.request e)
    | .ok m => s.send i m

theorem session?_register (s : State) (pid : UInt32) (session : Session.State) :
    (s.register pid session).session? pid = some s.sessions.length := by
  simp [session?, register]

end State
end Wiretap.Manager
