import Wiretap.Manager

/-!
# The adapter

The adapter supervises three services: the watcher, the supervisor of all sessions, and the manager
that connects the two. It is stopped when all three are over. The queues of process events belong to
the watcher on one side and to the manager on the other; here they are kept by the manager.

Results:

* `isStopped_of_disabled`: an adapter that is switched off runs nothing.
-/

namespace Wiretap.Adapter

/-- Where the supervisor of the sessions stands, as a service. -/
inductive SessionsService where
  | waiting
  /-- It waits until these sessions are over. -/
  | stopping (awaited : List Nat)
  | finished
  deriving DecidableEq, Repr

/-- Model of `HookAdapter`, with the three services that it supervises. -/
structure State where
  policy : RestartPolicy
  cancelled : Bool := false
  watcher : Watcher.State
  watcherLife : Life := .fresh
  manager : Manager.State
  managerLife : Life := .fresh
  sessions : SessionsService := .waiting

/-- Model of `HookAdapter::start`: an adapter that has just been started. One that is switched off
announces nothing. -/
def start? (config : Config) : Option State := do
  let watcher ← Watcher.new? config.hook
  let manager ← Manager.new? config watcher.events
  let adapter : State := { policy := config.supervisor, watcher, manager }
  if config.hook.enabled then return adapter
  return { adapter with
    watcherLife := .finished
    manager := (manager.finish .stopped).release
    managerLife := .finished
    sessions := .finished }

inductive Move where
  | watcher (m : Watcher.Move)
  | manager (m : Manager.Move)
  /-- The watcher's rest after a failure ends. -/
  | watcherAwakes
  | managerAwakes
  /-- The supervisor of the sessions sees that it is cancelled, and stops them. -/
  | gathers
  /-- They are over. -/
  | releases

namespace State

/-- Whether all three services are over, which is what `HookAdapter::stop` waits for. -/
def isStopped (s : State) : Bool :=
  s.watcherLife.isOver && s.managerLife.isOver && s.sessions = .finished

/-- The watcher goes over to another stage of its life. One that is over reports nothing more. -/
def setWatcherLife (s : State) (life : Life) : State :=
  { s with
    watcherLife := life
    manager :=
      if life.isOver then { s.manager with events := s.manager.events.finish } else s.manager }

/-- The manager goes over to another stage of its life. One that is over is gone. -/
def setManagerLife (s : State) (life : Life) : State :=
  { s with
    managerLife := life
    manager := if life.isOver then s.manager.release else s.manager }

/-- The watcher goes over to another state. The run of its service may have ended now. -/
def setWatcher (s : State) (now : Nat) (watcher : Watcher.State) : State :=
  let s := { s with watcher, manager := { s.manager with events := watcher.events } }
  match watcher.service, s.watcherLife with
  | .finished e, .running failures =>
    s.setWatcherLife (.ended s.policy now s.cancelled failures e)
  | _, _ => s

/-- The manager goes over to another state. The run of its service may have ended now. -/
def setManager (s : State) (now : Nat) (manager : Manager.State) : State :=
  let s := { s with manager }
  match manager.service, s.managerLife with
  | .finished e, .running failures =>
    s.setManagerLife (.ended s.policy now s.cancelled failures e)
  | _, _ => s

/-- The state after a move, if the move can be made now. The watcher and the manager are run by
`supervise`; the supervisor of the sessions calls `Supervisor::stop` when it is cancelled. -/
def step? (now : Nat) (m : Move) (s : State) : Option State :=
  match m with
  | .watcher m =>
    match s.watcherLife with
    | .running _ =>
      ({ s.watcher with events := s.manager.events }.step? now s.cancelled m).map (s.setWatcher now)
    | _ => none
  | .manager m => (s.manager.step? now s.cancelled m).map (s.setManager now)
  | .watcherAwakes =>
    (s.watcherLife.awake? now s.cancelled).map fun life =>
      { s with watcher := s.watcher.restart }.setWatcherLife life
  | .managerAwakes =>
    (s.managerLife.awake? now s.cancelled).map fun life =>
      { s with manager := if life.isOver then s.manager else s.manager.restart }.setManagerLife life
  | .gathers =>
    if s.cancelled && s.sessions = .waiting then
      let (manager, awaited) := s.manager.stopSessions
      some { s with manager, sessions := .stopping awaited }
    else none
  | .releases =>
    match s.sessions with
    | .stopping awaited =>
      if awaited.all s.manager.isSessionOver then some { s with sessions := .finished } else none
    | _ => none

end State

theorem isStopped_of_disabled {config : Config} {s : State} (h : start? config = some s)
    (hd : config.hook.enabled = false) : s.isStopped = true := by
  simp only [start?, hd, Option.bind_eq_bind, Option.bind_eq_some_iff] at h
  obtain ⟨watcher, _, manager, _, h⟩ := h
  simp only [Bool.false_eq_true, if_false] at h
  cases h
  rfl

end Wiretap.Adapter
