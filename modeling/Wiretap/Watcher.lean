import Wiretap.Config.Basic
import Wiretap.Queue
import Wiretap.Supervision
import Wiretap.Text.Lowercase
import Wiretap.Ticker

/-!
# Watching for processes

The watcher takes a snapshot of the running processes once per interval and reports which processes
with a matching name have appeared since the last one and which have gone. A name matches when it
contains the configured one, whatever the case of either. A snapshot that fails changes nothing.

Results:

* `mem_appeared_iff`, `mem_vanished_iff`: what a snapshot reports.
-/

namespace Wiretap

/-- A running process. -/
structure ProcessEntry where
  pid : UInt32
  name : String
  deriving DecidableEq, Repr

/-- Model of `ProcessEvents`: the queues on which processes are reported that have appeared and that
have gone. -/
structure ProcessEvents where
  added : Queue UInt32
  removed : Queue UInt32

namespace ProcessEvents

/-- Empty queues. There are none without room for an event. -/
def new? (capacity : Nat) : Option ProcessEvents :=
  (Queue.new? capacity).map fun q => ⟨q, q⟩

/-- No more events come. -/
def finish (e : ProcessEvents) : ProcessEvents := ⟨e.added.finish, e.removed.finish⟩

/-- Nobody takes the events any more. -/
def close (e : ProcessEvents) : ProcessEvents := ⟨e.added.close, e.removed.close⟩

end ProcessEvents

namespace Watcher

/-- Model of the filter of `ProcessWatcher::poll`: whether a process of that name is watched for. -/
def isWatched (configured name : String) : Bool :=
  Text.occursIn (Text.lower configured.toList) (Text.lower name.toList)

/-- The watched processes of a snapshot. -/
def matching (configured : String) (snapshot : List ProcessEntry) : List UInt32 :=
  ((snapshot.filter fun p => isWatched configured p.name).map (·.pid)).eraseDups

/-- Where `ProcessWatcher::poll` stands. -/
inductive Poll where
  | idle
  /-- It waits for a snapshot. -/
  | scanning
  /-- It waits until the first of these events can be queued. -/
  | reporting (added removed : List UInt32) (snapshot : List UInt32)
  deriving DecidableEq, Repr

/-- Where `ProcessWatcher::serve` stands. -/
inductive Service where
  | idle
  | polling (t : Ticker)
  | ticking (t : Ticker)
  | finished (e : Exit)
  deriving DecidableEq, Repr

/-- Model of `ProcessWatcher`. -/
structure State where
  processName : String
  interval : Nat
  /-- The watched processes of the last snapshot. -/
  known : List UInt32 := []
  events : ProcessEvents
  poll : Poll := .idle
  service : Service := .idle

/-- Model of `ProcessWatcher::new`. There is no watcher without room for an event. -/
def new? (hook : HookConfig) : Option State := do
  let events ← ProcessEvents.new? hook.eventBuffer.toNat
  return { processName := hook.processName, interval := hook.scanInterval.toNat, events }

inductive Move where
  /-- The service starts, now. -/
  | starts
  /-- A snapshot was taken, or failed. -/
  | scanned (snapshot : Option (List ProcessEntry))
  /-- The next event is queued. -/
  | reports
  /-- The time for the next poll has come. -/
  | ticks
  /-- The service sees that it is cancelled. -/
  | stops
  deriving Repr

namespace State

/-- A poll begins. -/
def beginPoll (s : State) : State := { s with poll := .scanning }

/-- A poll is given up. What it has reported stays reported. -/
def dropPoll (s : State) : State := { s with poll := .idle }

/-- The processes of a snapshot that were not known. -/
def appeared (s : State) (snapshot : List UInt32) : List UInt32 :=
  snapshot.filter fun pid => pid ∉ s.known

/-- The known processes that a snapshot does not have. -/
def vanished (s : State) (snapshot : List UInt32) : List UInt32 :=
  s.known.filter fun pid => pid ∉ snapshot

/-- A poll ends. The service then waits for its next tick. -/
def endPoll (s : State) : State :=
  { s with
    poll := .idle
    service := match s.service with
      | .polling t => .ticking t
      | service => service }

/-- Model of the two loops of `ProcessWatcher::poll`: queues the next event, unless it has to wait.
Additions go first. Without a listener events are lost. -/
def report? (s : State) : Option State :=
  match s.poll with
  | .reporting (pid :: added) removed snapshot =>
    let next := Poll.reporting added removed snapshot
    match s.events.added.offer pid with
    | .accepted q => some { s with events.added := q, poll := next }
    | .refused => some { s with poll := next }
    | .full => none
  | .reporting [] (pid :: removed) snapshot =>
    let next := Poll.reporting [] removed snapshot
    match s.events.removed.offer pid with
    | .accepted q => some { s with events.removed := q, poll := next }
    | .refused => some { s with poll := next }
    | .full => none
  | .reporting [] [] snapshot => some { s with known := snapshot }.endPoll
  | _ => none

/-- The service ends. -/
def finish (s : State) (e : Exit) : State :=
  { s.dropPoll with service := .finished e }

/-- The service is run again. -/
def restart (s : State) : State := { s with service := .idle }

/-- Model of `ProcessWatcher::serve` and `ProcessWatcher::poll`: the state after a move, if the move
can be made now. -/
def step? (now : Nat) (cancelled : Bool) (m : Move) (s : State) : Option State :=
  match m, s.service, s.poll with
  | .starts, .idle, .idle =>
    match Ticker.start? now s.interval with
    | some t => some { s.beginPoll with service := .polling t }
    | none => some (s.finish (.failed "the period of a ticker must not be zero"))
  | .scanned (some snapshot), _, .scanning =>
    let snapshot := matching s.processName snapshot
    some { s with poll := .reporting (s.appeared snapshot) (s.vanished snapshot) snapshot }
  | .scanned none, _, .scanning => some s.endPoll
  | .reports, _, .reporting _ _ _ => s.report?
  | .ticks, .ticking t, .idle =>
    if t.due ≤ now then some { s.beginPoll with service := .polling (t.tick now) } else none
  | .stops, .polling _, _ | .stops, .ticking _, _ =>
    if cancelled then some (s.finish .stopped) else none
  | _, _, _ => none

theorem mem_appeared_iff {s : State} {snapshot : List UInt32} {pid : UInt32} :
    pid ∈ s.appeared snapshot ↔ pid ∈ snapshot ∧ pid ∉ s.known := by
  simp [appeared]

theorem mem_vanished_iff {s : State} {snapshot : List UInt32} {pid : UInt32} :
    pid ∈ s.vanished snapshot ↔ pid ∈ s.known ∧ pid ∉ snapshot := by
  simp [vanished]

end State
end Watcher
end Wiretap
