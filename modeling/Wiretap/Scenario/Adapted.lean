import Wiretap.Adapter
import Wiretap.Scenario.Managed

/-!
# An adapter over scripted processes

An adapter with a list of processes that the scenario sets, the scripted remote from which it gets
its agents, and the channels of its sessions.
-/

namespace Wiretap.Scenario

structure Adapted where
  adapter : Adapter.State
  remote : Remote
  dialing : Remote.Dialing := none
  opened : List Opened := []
  /-- The running processes. Without them snapshots fail. -/
  processes : Option (List ProcessEntry)

namespace Adapted

/-- The manager and its sessions. -/
def managed (a : Adapted) : Managed :=
  { manager := a.adapter.manager, remote := a.remote, dialing := a.dialing, opened := a.opened
    cancelled := a.adapter.cancelled }

/-- What became of the manager and its sessions. -/
def setManaged (a : Adapted) (now : Nat) (m : Managed) : Adapted :=
  { a with
    adapter := a.adapter.setManager now m.manager
    remote := m.remote
    dialing := m.dialing
    opened := m.opened }

def make? (now : Nat) (a : Adapted) (m : Adapter.Move) : Option Adapted :=
  (a.adapter.step? now m).map fun adapter => { a with adapter }

def move? (now : Nat) (a : Adapted) : Option Adapted :=
  [.watcherAwakes, .managerAwakes, .watcher .stops, .watcher .starts, .watcher .reports,
    .watcher (.scanned a.processes), .watcher .ticks, .gathers, .releases].findSome? (a.make? now)
  <|> (a.managed.move? now).map (a.setManaged now)

def restAlarms : Life → List Nat
  | .resting _ due => [due]
  | _ => []

def alarms (a : Adapted) : List Nat :=
  restAlarms a.adapter.watcherLife ++ restAlarms a.adapter.managerLife
  ++ (match a.adapter.watcher.service with
    | .ticking t => [t.due]
    | _ => [])
  ++ a.managed.alarms

def alarm? (now : Nat) (a : Adapted) : Option Nat := (a.alarms.filter (now < ·)).min?

def world : World Adapted := ⟨move?, alarm?⟩

/-- Stops the adapter, and lets time pass until everything in it is over. -/
def stop (now : Nat) (a : Adapted) : Nat × Adapted :=
  world.waitUntil now (·.adapter.isStopped) { a with adapter.cancelled := true }

end Adapted
end Wiretap.Scenario
