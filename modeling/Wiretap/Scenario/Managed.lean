import Wiretap.Manager
import Wiretap.Scenario.Live
import Wiretap.Scenario.Remote

/-!
# Managed sessions on scripted channels

A manager, the scripted remote from which it gets its agents, and the channels of its sessions.
Sessions and channels are numbered alike.
-/

namespace Wiretap.Scenario

/-- A channel that was opened for a process. -/
structure Opened where
  pid : UInt32
  channel : Channel

structure Managed where
  manager : Manager.State
  remote : Remote
  dialing : Remote.Dialing := none
  opened : List Opened := []
  cancelled : Bool := false

namespace Managed

/-- A move of the manager itself. An attempt that was under way belongs to the job before it. -/
def make? (now : Nat) (m : Managed) (move : Manager.Move) : Option Managed :=
  (m.manager.step? now m.cancelled move).map fun manager => { m with manager, dialing := none }

/-- The channel that a successful attempt opens. -/
def openFor (m : Managed) (pid : UInt32) : Injection.Move → Managed
  | .dialed none => { m with opened := m.opened ++ [⟨pid, (m.remote.host pid).channel⟩] }
  | _ => m

/-- The next step of the remote, while an agent is brought up. -/
def build? (now : Nat) (m : Managed) : Option Managed :=
  match m.manager.service with
  | .building job =>
    match m.remote.answer? now job m.dialing with
    | some (remote, dialing, none) => some { m with remote, dialing }
    | some (remote, _, some move) =>
      ({ m with remote }.openFor job.pid move).make? now (.builds move)
    | none => none
  | _ => none

/-- The session of that number with its channel. -/
def live? (m : Managed) (i : Nat) : Option Live :=
  match m.manager.sessions[i]?, m.opened[i]? with
  | some session, some o => some ⟨session, o.channel⟩
  | _, _ => none

def setChannel (m : Managed) (i : Nat) (channel : Channel) : Managed :=
  { m with opened := m.opened.modify i ({ · with channel }) }

def setLive (m : Managed) (i : Nat) (l : Live) : Managed :=
  { m with manager := m.manager.setSession i l.session }.setChannel i l.channel

/-- A move of a session. It starts as soon as it can. -/
def sessionMove? (now : Nat) (m : Managed) (i : Nat) : Option Managed :=
  match m.live? i with
  | some l =>
    if l.session.isOver then none
    else (l.make? now (.stage .start) <|> l.move? now).map (m.setLive i)
  | none => none

def move? (now : Nat) (m : Managed) : Option Managed :=
  [.stops, .announces, .released, .reports, .takesAdded, .takesRemoved, .completes].findSome?
    (m.make? now)
  <|> m.build? now
  <|> (List.range m.manager.sessions.length).findSome? (m.sessionMove? now)

def alarms (m : Managed) : List Nat :=
  (match m.manager.service with
    | .building job => Remote.alarms job m.dialing
    | _ => [])
  ++ m.manager.sessions.flatMap Live.alarms

def alarm? (now : Nat) (m : Managed) : Option Nat := (m.alarms.filter (now < ·)).min?

/-- The number of the channel that was opened last for a process. -/
def lastOpened? (m : Managed) (pid : UInt32) : Option Nat :=
  ((m.opened.zipIdx.filter (·.1.pid = pid)).getLast?).map (·.2)

end Managed

/-- The world of a manager that runs by itself. Once it has ended it is gone. -/
def managerWorld : World Managed where
  move? now m :=
    match m.move? now with
    | some m' =>
      some (if m.manager.isRunning && !m'.manager.isRunning then
        { m' with manager := m'.manager.release } else m')
    | none => none
  alarm? := Managed.alarm?

end Wiretap.Scenario
