import Wiretap.Scenario.Adapted
import Wiretap.Scenario.Client

/-!
# Scenarios with many sessions

A manager, by itself or within an adapter, with a client of its sessions. The client knows a session
once it has seen its announcement. What a step does to the table is shown before anybody else has
taken notice of it.
-/

namespace Wiretap.Scenario

/-- A manager by itself, or within an adapter. -/
inductive Ground where
  | manager (m : Managed)
  | adapter (a : Adapted)

namespace Ground

def managed : Ground → Managed
  | manager m => m
  | adapter a => a.managed

def setManaged (now : Nat) (g : Ground) (m : Managed) : Ground :=
  match g with
  | manager _ => manager m
  | adapter a => adapter (a.setManaged now m)

def settle (now : Nat) : Ground → Ground
  | manager m => manager (managerWorld.settle now m)
  | adapter a => adapter (Adapted.world.settle now a)

def advance (now duration : Nat) : Ground → Nat × Ground
  | manager m => (managerWorld.advance now duration m).map id manager
  | adapter a => (Adapted.world.advance now duration a).map id adapter

end Ground

structure ManySessions where
  now : Nat := 0
  ground : Ground
  client : Client := {}
  /-- The session that was announced last for a process. -/
  handles : List (UInt32 × Nat) := []
  /-- Announcements are listened to. -/
  listening : Bool := true
  /-- The end of the manager has been noticed. -/
  joined : Bool := false

namespace ManySessions

inductive Step where
  | client (pid : UInt32) (s : ClientStep)
  | add (pid : UInt32)
  | remove (pid : UInt32)
  | closeAdded
  | closeRemoved
  | cancel
  /-- Looks whether the manager has ended. -/
  | join
  | stopSessions
  /-- Stops the adapter. -/
  | stop
  | setProcesses (ps : Option (List ProcessEntry))
  /-- Takes announcements, up to so many of either kind. -/
  | events (max : Option Nat)
  | dropEvents
  /-- The calls to the remote since the last look. -/
  | calls
  | table (pid : UInt32)
  /-- A request through the table. -/
  | call (pid : UInt32) (bytes : Bytes)
  | advance (duration : Nat)

inductive Answer where
  | nothing
  | client (a : ClientAnswer)
  | flag (b : Bool)
  | exit (e : Option Exit)
  | events (up down : List UInt32) (closed : Bool)
  | calls (cs : List Call)
  /-- What the table says of a process, and whether the client knows the same session. -/
  | table (found : Bool) (same : Option Bool)

def managed (s : ManySessions) : Managed := s.ground.managed

def put (s : ManySessions) (m : Managed) : ManySessions :=
  { s with ground := s.ground.setManaged s.now m }

def settle (s : ManySessions) : ManySessions := { s with ground := s.ground.settle s.now }

def desk (now : Nat) : Desk Ground where
  live? g i := g.managed.live? i
  setLive g i l := g.setManaged now (g.managed.setLive i l)
  settle := Ground.settle now

def target (s : ManySessions) (pid : UInt32) : Target :=
  ⟨pid, s.handles.lookup pid, s.managed.lastOpened? pid⟩

/-- Takes up to `max` items. -/
def takeSome {α : Type} (q : Queue α) (max : Option Nat) : List α × Queue α :=
  let items := match max with
    | some n => q.items.take n
    | none => q.items
  (items, { q with items := q.items.drop items.length })

/-- Puts an event into one of the manager's queues. -/
def offer (s : ManySessions) (q : Queue UInt32) (pid : UInt32)
    (store : ProcessEvents → Queue UInt32 → ProcessEvents) : ManySessions × Answer :=
  match q.offer pid with
  | .accepted q =>
    let m := s.managed
    (s.put { m with manager.events := store m.manager.events q }, .flag true)
  | _ => (s, .flag false)

def takeEvents (s : ManySessions) (max : Option Nat) : ManySessions × Answer :=
  let m := s.managed
  let (up, upQueue) := takeSome m.manager.up max
  let (down, downQueue) := takeSome m.manager.down max
  let known := up.filterMap fun i => m.manager.sessions[i]?.map fun session => (session.id, i)
  let closed := upQueue.ended && !max.any (up.length = ·)
  ({ s with handles := known.reverse ++ s.handles }.put
      { m with manager.up := upQueue, manager.down := downQueue },
    .events (known.map (·.1)) down closed)

def request (s : ManySessions) (pid : UInt32) (bytes : Bytes) :
    ManySessions × Option Manager.CallError :=
  let m := s.managed
  match m.manager.request pid bytes with
  | .ok manager => (s.put { m with manager }, none)
  | .error e => (s, some e)

/-- The step, before the others have taken notice of it. -/
def act (s : ManySessions) : Step → ManySessions × Answer
  | .client pid m =>
    let (client, ground, answer) := s.client.step (desk s.now) (s.target pid) s.ground m
    ({ s with client, ground }, .client answer)
  | .add pid => s.offer s.managed.manager.events.added pid fun e q => { e with added := q }
  | .remove pid => s.offer s.managed.manager.events.removed pid fun e q => { e with removed := q }
  | .closeAdded =>
    let m := s.managed
    (s.put { m with manager.events.added := m.manager.events.added.finish }, .nothing)
  | .closeRemoved =>
    let m := s.managed
    (s.put { m with manager.events.removed := m.manager.events.removed.finish }, .nothing)
  | .cancel => (s.put { s.managed with cancelled := true }, .nothing)
  | .join =>
    let s := s.settle
    match s.managed.manager.service with
    | .finished e =>
      if s.joined then (s, .exit none) else ({ s with joined := true }, .exit (some e))
    | _ => (s, .exit none)
  | .stopSessions =>
    let (manager, awaited) := s.managed.manager.stopSessions
    let (now, m) := managerWorld.waitUntil s.now (fun m => awaited.all m.manager.isSessionOver)
      { s.managed with manager }
    ({ s with now }.put m, .nothing)
  | .stop =>
    match s.ground with
    | .adapter a =>
      let (now, a) := a.stop s.now
      ({ s with now, ground := .adapter a }, .nothing)
    | .manager _ => (s, .nothing)
  | .setProcesses processes =>
    match s.ground with
    | .adapter a => ({ s with ground := .adapter { a with processes } }, .nothing)
    | .manager _ => (s, .nothing)
  | .events max => if s.listening then s.takeEvents max else (s, .events [] [] true)
  | .dropEvents =>
    let m := s.managed
    ({ s with listening := false }.put
      { m with manager.up := m.manager.up.close, manager.down := m.manager.down.close }, .nothing)
  | .calls =>
    let m := s.managed
    (s.put { m with remote.calls := [] }, .calls m.remote.calls.reverse)
  | .table pid =>
    let found := s.managed.manager.session? pid
    (s, .table found.isSome (found.bind fun i => (s.handles.lookup pid).map (i == ·)))
  | .call pid bytes =>
    match s.request pid bytes with
    | (s, some .waits) =>
      let (s, e) := s.settle.request pid bytes
      (s, .client (.reply e))
    | (s, e) => (s, .client (.reply e))
  | .advance duration =>
    let (now, ground) := s.ground.advance s.now duration
    ({ s with now, ground }, .nothing)

end ManySessions
end Wiretap.Scenario
