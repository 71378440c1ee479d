import Wiretap.Scenario.Clock
import Wiretap.Watcher

/-!
# Watching a scripted list of processes

A watcher with a list of processes that the scenario sets. Snapshots take no time.
-/

namespace Wiretap.Scenario

open Watcher

/-- The processes of a list. A later entry replaces an earlier one of the same number. -/
def processTable (entries : List ProcessEntry) : List ProcessEntry :=
  entries.foldl (fun table p => table.filter (·.pid != p.pid) ++ [p]) []

structure Watch where
  watcher : Watcher.State
  /-- The running processes. Without them snapshots fail. -/
  processes : Option (List ProcessEntry) := some []
  cancelled : Bool := false

namespace Watch

def make? (now : Nat) (w : Watch) (m : Move) : Option Watch :=
  (w.watcher.step? now w.cancelled m).map fun watcher => { w with watcher }

def move? (now : Nat) (w : Watch) : Option Watch :=
  [.stops, .reports, .scanned w.processes, .ticks].findSome? (w.make? now)

def alarm? (now : Nat) (w : Watch) : Option Nat :=
  match w.watcher.service with
  | .ticking t => if now < t.due then some t.due else none
  | _ => none

def world : World Watch := ⟨move?, alarm?⟩

/-- How long a poll may wait for room in the queues. -/
def pollLimit : Nat := 1000

/-- One poll without the service. It is given up when it takes too long: the time then, whether it
was done, and the watcher. -/
def poll (w : Watch) (now : Nat) : Nat × Bool × Watch :=
  let (now, w) := world.waitAtMost now pollLimit (·.watcher.poll = .idle)
    { w with watcher := w.watcher.beginPoll }
  (now, w.watcher.poll = .idle, { w with watcher := w.watcher.dropPoll })

/-- Starts the service. -/
def serve (now : Nat) (w : Watch) : Watch := (w.make? now .starts).getD w

/-- Takes all queued events: the additions and the removals. -/
def drain (w : Watch) : List UInt32 × List UInt32 × Watch :=
  let events := w.watcher.events
  (events.added.items, events.removed.items,
    { w with
      watcher.events := ⟨{ events.added with items := [] }, { events.removed with items := [] }⟩ })

/-- The listeners go away. -/
def dropListeners (w : Watch) : Watch :=
  { w with watcher.events := w.watcher.events.close }

inductive Step where
  | setProcesses (ps : Option (List ProcessEntry))
  | poll
  | drain
  | dropListeners
  | serve
  | stop
  | advance (duration : Nat)

inductive Answer where
  | nothing
  | polled (done : Bool) (known : List UInt32)
  | drained (added removed : List UInt32)
  | ended (e : Option Exit)

/-- A step, after which the world settles: the time then, and the answer. -/
def step (now : Nat) (w : Watch) (s : Step) : Nat × Watch × Answer :=
  let settled (w : Watch) (a : Answer) := (now, world.settle now w, a)
  match s with
  | .setProcesses processes => (now, { w with processes }, .nothing)
  | .poll =>
    let (now, done, w) := w.poll now
    (now, world.settle now w, .polled done w.watcher.known)
  | .drain =>
    let (added, removed, w) := w.drain
    settled w (.drained added removed)
  | .dropListeners => settled w.dropListeners .nothing
  | .serve => settled (w.serve now) .nothing
  | .stop =>
    let w := world.settle now { w with cancelled := true }
    (now, w, .ended (match w.watcher.service with
      | .finished e => some e
      | _ => none))
  | .advance duration =>
    let (now, w) := world.advance now duration w
    (now, w, .nothing)

end Watch
end Wiretap.Scenario
