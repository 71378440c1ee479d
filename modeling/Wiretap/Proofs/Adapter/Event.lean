import Wiretap.Adapter
import Wiretap.Proofs.Manager.Step
import Wiretap.Proofs.Run
import Wiretap.Proofs.Session.Event
import Wiretap.Proofs.Watcher.Step

/-!
# Runs of an adapter

Around an adapter there are the clients of its sessions, somebody who takes what it announces, and
whoever stops it. Their events and the moves of the adapter happen in any order that `State.act?`
allows.

Results:

* `acts_of_act?`: what an event is made on and what it leaves behind.
* `setManager_cases`, `setWatcher_eq`: a run of a service may have ended with its move.
* `initial_of_start?`: what an adapter is when it has been started.
-/

namespace Wiretap.Adapter

/-- Something that happens to an adapter. -/
inductive Event where
  | move (now : Nat) (m : Move)
  /-- A client of that session does something. -/
  | client (i : Nat) (c : Session.ClientEvent)
  /-- The adapter is told to stop. -/
  | stop
  /-- The next announcement is taken. -/
  | takeUp
  | takeDown
  /-- Nobody takes announcements any more. -/
  | closeUp
  | closeDown

namespace State

/-- The adapter after an event, if that can happen now. -/
def act? (s : State) : Event → Option State
  | .move now m => s.step? now m
  | .client i c =>
    (s.manager.sessions[i]?.bind (·.serve? c)).map fun x =>
      { s with manager := s.manager.setSession i x }
  | .stop => some { s with cancelled := true }
  | .takeUp => s.manager.up.take?.map fun (_, up) => { s with manager.up := up }
  | .takeDown => s.manager.down.take?.map fun (_, down) => { s with manager.down := down }
  | .closeUp => some { s with manager.up := s.manager.up.close }
  | .closeDown => some { s with manager.down := s.manager.down.close }

end State

variable {s s' : State} {now : Nat}

/-- What an event does to the adapter. -/
inductive Acts (s : State) : Event → State → Prop where
  | watcher {now failures : Nat} {m : Watcher.Move} {w : Watcher.State}
      (hlife : s.watcherLife = .running failures)
      (hsteps : Watcher.Steps now s.cancelled { s.watcher with events := s.manager.events } m w) :
      Acts s (.move now (.watcher m)) (s.setWatcher now w)
  | manager {now : Nat} {m : Manager.Move} {manager : Manager.State}
      (hstep : s.manager.step? now s.cancelled m = some manager) :
      Acts s (.move now (.manager m)) (s.setManager now manager)
  | watcherAwakes {now : Nat} {life : Life}
      (hlife : s.watcherLife.awake? now s.cancelled = some life) :
      Acts s (.move now .watcherAwakes)
        ({ s with watcher := s.watcher.restart }.setWatcherLife life)
  | managerAwakes {now : Nat} {life : Life}
      (hlife : s.managerLife.awake? now s.cancelled = some life) :
      Acts s (.move now .managerAwakes)
        ({ s with
            manager := if life.isOver then s.manager else s.manager.restart }.setManagerLife life)
  | gathers {now : Nat} (hcancelled : s.cancelled = true) (hwaiting : s.sessions = .waiting) :
      Acts s (.move now .gathers)
        { s with
          manager := s.manager.stopSessions.1
          sessions := .stopping (s.manager.roster.members.map (·.2)) }
  | releases {now : Nat} {awaited : List Nat} (hstopping : s.sessions = .stopping awaited)
      (hover : ∀ i ∈ awaited, s.manager.isSessionOver i = true) :
      Acts s (.move now .releases) { s with sessions := .finished }
  | client {i : Nat} {c : Session.ClientEvent} {x x' : Session.State}
      (hx : s.manager.sessions[i]? = some x) (hserve : x.serve? c = some x') :
      Acts s (.client i c) { s with manager := s.manager.setSession i x' }
  | stop : Acts s .stop { s with cancelled := true }
  /-- What is announced goes away. -/
  | announced {e : Event} {up : Queue Nat} {down : Queue UInt32}
      (he : e = .takeUp ∨ e = .takeDown ∨ e = .closeUp ∨ e = .closeDown) :
      Acts s e { s with manager := { s.manager with up, down } }

theorem acts_of_act? {e : Event} (h : s.act? e = some s') : Acts s e s' := by
  cases e with
  | move now m =>
    cases m with
    | watcher m =>
      simp only [State.act?, State.step?] at h
      split at h
      next failures hlife =>
        obtain ⟨w, hw, rfl⟩ := Option.map_eq_some_iff.mp h
        exact .watcher hlife (Watcher.steps_of_step? hw)
      next => cases h
    | manager m =>
      obtain ⟨manager, hm, rfl⟩ := Option.map_eq_some_iff.mp h
      exact .manager hm
    | watcherAwakes =>
      obtain ⟨life, hlife, rfl⟩ := Option.map_eq_some_iff.mp h
      exact .watcherAwakes hlife
    | managerAwakes =>
      obtain ⟨life, hlife, rfl⟩ := Option.map_eq_some_iff.mp h
      exact .managerAwakes hlife
    | gathers =>
      simp only [State.act?, State.step?] at h
      split at h <;> cases h
      next hgathers =>
        simp only [Bool.and_eq_true, decide_eq_true_eq] at hgathers
        exact .gathers hgathers.1 hgathers.2
    | releases =>
      simp only [State.act?, State.step?] at h
      split at h
      next awaited hstopping =>
        split at h <;> cases h
        next hover => exact .releases hstopping (List.all_eq_true.mp hover)
      next => cases h
  | client i c =>
    obtain ⟨x', hx', rfl⟩ := Option.map_eq_some_iff.mp h
    obtain ⟨x, hx, hserve⟩ := Option.bind_eq_some_iff.mp hx'
    exact .client hx hserve
  | stop =>
    cases h
    exact .stop
  | takeUp =>
    obtain ⟨⟨_, up⟩, -, rfl⟩ := Option.map_eq_some_iff.mp h
    exact .announced (.inl rfl)
  | takeDown =>
    obtain ⟨⟨_, down⟩, -, rfl⟩ := Option.map_eq_some_iff.mp h
    exact .announced (.inr (.inl rfl))
  | closeUp =>
    cases h
    exact .announced (.inr (.inr (.inl rfl)))
  | closeDown =>
    cases h
    exact .announced (.inr (.inr (.inr rfl)))

theorem setManager_cases (s : State) (now : Nat) (manager : Manager.State) :
    (s.setManager now manager = { s with manager } ∧
      (manager.isRunning = true ∨ ∀ failures, s.managerLife ≠ .running failures)) ∨
    ∃ failures e, manager.service = .finished e ∧ s.managerLife = .running failures ∧
      s.setManager now manager =
        { s with manager }.setManagerLife (.ended s.policy now s.cancelled failures e) := by
  unfold State.setManager
  simp only
  split
  next e failures he hlife => exact .inr ⟨failures, e, he, hlife, rfl⟩
  next hnot =>
    refine .inl ⟨rfl, ?_⟩
    by_cases hlife : ∃ failures, s.managerLife = .running failures
    · obtain ⟨failures, hlife⟩ := hlife
      refine .inl ?_
      unfold Manager.State.isRunning
      split
      next e he => exact absurd hlife (hnot e failures he)
      next => rfl
    · exact .inr fun failures h => hlife ⟨failures, h⟩

theorem setWatcherLife_eq (s : State) (life : Life) :
    ∃ events, s.setWatcherLife life =
        { s with watcherLife := life, manager := { s.manager with events } } ∧
      (events = s.manager.events ∨ events = s.manager.events.finish) := by
  unfold State.setWatcherLife
  split
  next => exact ⟨_, rfl, .inr rfl⟩
  next => exact ⟨_, rfl, .inl rfl⟩

/-- A watcher that is over has ended its queues. -/
theorem setWatcher_eq (s : State) (now : Nat) (w : Watcher.State) :
    ∃ life events, s.setWatcher now w =
        { s with watcher := w, watcherLife := life, manager := { s.manager with events } } ∧
      (events = w.events ∨ events = w.events.finish) := by
  unfold State.setWatcher
  simp only
  split
  next =>
    obtain ⟨events, hset, hevents⟩ := setWatcherLife_eq
      { s with watcher := w, manager := { s.manager with events := w.events } } _
    exact ⟨_, events, hset, hevents⟩
  next => exact ⟨_, _, rfl, .inl rfl⟩

/-! ## The start -/

/-- What an adapter is when it has been started. -/
structure Initial (s : State) : Prop where
  cancelled_eq : s.cancelled = false
  known_eq : s.watcher.known = []
  poll_eq : s.watcher.poll = .idle
  table_eq : s.manager.table = []
  roster_eq : s.manager.roster = {}
  sessions_eq : s.manager.sessions = []
  added_eq : s.manager.events.added.items = []
  removed_eq : s.manager.events.removed.items = []
  /-- It is switched on, or it is switched off and nothing runs. -/
  lives : s.watcherLife = .fresh ∧ s.managerLife = .fresh ∧ s.sessions = .waiting ∧
      s.manager.service = .idle ∧ s.manager.events.added.listening = true ∧
      s.manager.events.removed.listening = true ∨
    s.watcherLife = .finished ∧ s.managerLife = .finished ∧ s.sessions = .finished ∧
      s.manager.service = .finished .stopped

theorem initial_of_start? {config : Config} (h : start? config = some s) : Initial s := by
  simp only [start?, Watcher.new?, ProcessEvents.new?, Manager.new?, Option.bind_eq_bind,
    Option.bind_eq_some_iff, Option.map_eq_some_iff] at h
  obtain ⟨watcher, ⟨events, ⟨q, hq, rfl⟩, hwatcher⟩, manager, hmanager, h⟩ := h
  obtain ⟨up, hup, down, hdown, hmanager⟩ := hmanager
  obtain ⟨-, rfl⟩ := Queue.eq_of_new? hq
  cases hwatcher
  cases hmanager
  split at h <;> cases h
  · exact ⟨rfl, rfl, rfl, rfl, rfl, rfl, rfl, rfl, .inl ⟨rfl, rfl, rfl, rfl, rfl, rfl⟩⟩
  · exact ⟨rfl, rfl, rfl, rfl, rfl, rfl, rfl, rfl, .inr ⟨rfl, rfl, rfl, rfl⟩⟩

/-! ## What stays -/

@[simp] theorem watcher_setWatcher (s : State) (now : Nat) (w : Watcher.State) :
    (s.setWatcher now w).watcher = w := by
  obtain ⟨life, events, hset, -⟩ := setWatcher_eq s now w
  rw [hset]

@[simp] theorem watcher_setManager (s : State) (now : Nat) (manager : Manager.State) :
    (s.setManager now manager).watcher = s.watcher := by
  rcases setManager_cases s now manager with ⟨h, -⟩ | ⟨_, _, _, _, h⟩
  · rw [h]
  · rw [h]
    rfl

@[simp] theorem cancelled_setWatcher (s : State) (now : Nat) (w : Watcher.State) :
    (s.setWatcher now w).cancelled = s.cancelled := by
  obtain ⟨life, events, hset, -⟩ := setWatcher_eq s now w
  rw [hset]

@[simp] theorem cancelled_setManager (s : State) (now : Nat) (manager : Manager.State) :
    (s.setManager now manager).cancelled = s.cancelled := by
  rcases setManager_cases s now manager with ⟨h, -⟩ | ⟨_, _, _, _, h⟩
  · rw [h]
  · rw [h]
    rfl

theorem Acts.cancelled_eq {e : Event} (h : Acts s e s') (hs' : s'.cancelled = false) :
    s.cancelled = false := by
  cases h with
  | watcher => simpa using hs'
  | manager => simpa using hs'
  | stop => cases hs'
  | _ => exact hs'

/-! ## Two short runs -/

/-- A process appears and is given a session. -/
def appearance : List Event :=
  [.move 0 (.watcher .starts), .move 0 (.watcher (.scanned (some [⟨7, ""⟩]))),
    .move 0 (.watcher .reports), .move 0 (.watcher .reports), .move 0 (.manager .takesAdded),
    .move 0 (.manager (.builds (.checked none))), .move 0 (.manager (.builds (.injected (.ok ())))),
    .move 0 (.manager (.builds (.dialed none))), .move 0 (.manager .announces)]

/-- The first session, which has not run yet, sees that it is cancelled and bids its
agent farewell. -/
def teardown : List Event :=
  [.stage .start, .stage .heed, .sender .stops, .receiver .decodes, .receiver .stops,
    .decoder .stops, .pinger .starts, .pinger .stops, .stage .gather].map
    fun m => .move 2000 (.manager (.session 0 m))

end Wiretap.Adapter
