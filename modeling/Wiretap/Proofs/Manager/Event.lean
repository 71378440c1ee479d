import Wiretap.Proofs.Manager.Book
import Wiretap.Proofs.Manager.Sessions
import Wiretap.Proofs.Run

/-!
# Runs of a manager

Around a manager there are those who report that processes have appeared or gone, the clients of its
sessions, and those who take what it announces. Their events and the moves of the manager happen in
any order that `State.act?` allows, and nobody tells it to stop.

Results:

* `acts_of_act?`: what an event is made on and what it leaves behind.
* `passes_of_act?`: what an event does to the sessions that the manager holds, with the changes that
  go into the book and with what is announced.
* `Vain.unmoved`: an event that comes to nothing leaves them as they are, and announces nothing.
-/

namespace Wiretap.Manager

/-- Something that happens to a manager. -/
inductive Event where
  | move (now : Nat) (m : Move)
  /-- A client of that session does something. -/
  | client (i : Nat) (c : Session.ClientEvent)
  | appears (pid : UInt32)
  | vanishes (pid : UInt32)
  /-- Nobody reports processes that have appeared any more. -/
  | endAdded
  | endRemoved
  /-- The service has failed and is run again. -/
  | restart
  /-- The next announcement is taken. -/
  | takeUp
  | takeDown
  /-- Nobody takes announcements any more. -/
  | closeUp
  | closeDown

namespace State

/-- The manager after an event, if that can happen now. -/
def act? (s : State) : Event → Option State
  | .move now m => s.step? now false m
  | .client i c => (s.sessions[i]?.bind (·.serve? c)).map (s.setSession i)
  | .appears pid =>
    match s.events.added.offer pid with
    | .accepted q => some { s with events.added := q }
    | _ => none
  | .vanishes pid =>
    match s.events.removed.offer pid with
    | .accepted q => some { s with events.removed := q }
    | _ => none
  | .endAdded => some { s with events.added := s.events.added.finish }
  | .endRemoved => some { s with events.removed := s.events.removed.finish }
  | .restart =>
    match s.service with
    | .finished (.failed _) => some s.restart
    | _ => none
  | .takeUp => s.up.take?.map fun (_, up) => { s with up }
  | .takeDown => s.down.take?.map fun (_, down) => { s with down }
  | .closeUp => some { s with up := s.up.close }
  | .closeDown => some { s with down := s.down.close }

/-- The session that is started where the bringing up of an agent has come this far. -/
def started? (s : State) (job : Injection.State) : Option Session.State :=
  match job.phase with
  | .done (.ok conn) => Session.new? job.pid conn s.hook s.registry s.policy
  | _ => none

/-- The changes of who has a session that come with an event: a session is started and entered in
the table, or taken out of the table. -/
def changes (s : State) : Event → List Change
  | .move now (.builds m) =>
    match s.service with
    | .building job =>
      ((job.step? now m).bind s.started?).toList.map fun _ => .up job.pid s.sessions.length
    | _ => []
  | .move _ .takesRemoved =>
    match s.events.removed.take? with
    | some (pid, _) => (s.session? pid).toList.map (.down pid)
    | none => []
  | _ => []

end State

/-! ## What an event is made on -/

/-- What an event does to the manager. -/
inductive Acts (s : State) : Event → State → Prop where
  | move {now : Nat} {m : Move} {s' : State} (hstep : s.step? now false m = some s') :
      Acts s (.move now m) s'
  | client {i : Nat} {c : Session.ClientEvent} {x x' : Session.State}
      (hx : s.sessions[i]? = some x) (hserve : x.serve? c = some x') :
      Acts s (.client i c) (s.setSession i x')
  | appears {pid : UInt32} {q : Queue UInt32} (hoffer : s.events.added.offer pid = .accepted q) :
      Acts s (.appears pid) { s with events.added := q }
  | vanishes {pid : UInt32} {q : Queue UInt32}
      (hoffer : s.events.removed.offer pid = .accepted q) :
      Acts s (.vanishes pid) { s with events.removed := q }
  | endAdded : Acts s .endAdded { s with events.added := s.events.added.finish }
  | endRemoved : Acts s .endRemoved { s with events.removed := s.events.removed.finish }
  | restart {reason : String} (hfailed : s.service = .finished (.failed reason)) :
      Acts s .restart s.restart
  | takeUp {i : Nat} {up : Queue Nat} (htake : s.up.take? = some (i, up)) :
      Acts s .takeUp { s with up }
  | takeDown {pid : UInt32} {down : Queue UInt32} (htake : s.down.take? = some (pid, down)) :
      Acts s .takeDown { s with down }
  | closeUp : Acts s .closeUp { s with up := s.up.close }
  | closeDown : Acts s .closeDown { s with down := s.down.close }

theorem acts_of_act? {s s' : State} {e : Event} (h : s.act? e = some s') : Acts s e s' := by
  cases e with
  | move now m => exact .move h
  | client i c =>
    obtain ⟨x', hx', rfl⟩ := Option.map_eq_some_iff.mp h
    obtain ⟨x, hx, hserve⟩ := Option.bind_eq_some_iff.mp hx'
    exact .client hx hserve
  | appears pid =>
    simp only [State.act?] at h
    split at h <;> cases h
    next hoffer => exact .appears hoffer
  | vanishes pid =>
    simp only [State.act?] at h
    split at h <;> cases h
    next hoffer => exact .vanishes hoffer
  | endAdded =>
    cases h
    exact .endAdded
  | endRemoved =>
    cases h
    exact .endRemoved
  | restart =>
    simp only [State.act?] at h
    split at h <;> cases h
    next hfailed => exact .restart hfailed
  | takeUp =>
    obtain ⟨⟨i, up⟩, htake, rfl⟩ := Option.map_eq_some_iff.mp h
    exact .takeUp htake
  | takeDown =>
    obtain ⟨⟨pid, down⟩, htake, rfl⟩ := Option.map_eq_some_iff.mp h
    exact .takeDown htake
  | closeUp =>
    cases h
    exact .closeUp
  | closeDown =>
    cases h
    exact .closeDown

/-! ## What the manager holds -/

/-- What decides who has a session. -/
structure Holdings where
  table : List (UInt32 × Entry)
  roster : Supervisor Nat
  sessions : List Session.State
  service : Service

def State.holdings (s : State) : Holdings := ⟨s.table, s.roster, s.sessions, s.service⟩

namespace Holdings

/-- What has changed and is not announced yet. -/
def pending (h : Holdings) : List Announcement :=
  match h.service with
  | .announcing i => (h.sessions[i]?.map fun x => .up x.id i).toList
  | .removing pid _ | .reporting pid => [.down pid]
  | _ => []

def setSession (h : Holdings) (i : Nat) (x : Session.State) : Holdings :=
  { h with
    sessions := h.sessions.set i x
    roster :=
      if x.isOver then { h.roster with members := h.roster.members.filter (·.2 != i) }
      else h.roster }

def register (h : Holdings) (pid : UInt32) (x : Session.State) : Holdings where
  table := (pid, ⟨h.roster.nextToken, h.sessions.length⟩) :: h.table.filter (·.1 != pid)
  roster := h.roster.add h.sessions.length
  sessions := h.sessions ++ [{ x with cancelled := h.roster.cancelled }]
  service := .announcing h.sessions.length

/-- The session of that token is taken out and cancelled, and the manager waits for it. -/
def detach (h : Holdings) (pid : UInt32) (token i : Nat) : Holdings where
  table := h.table.filter (·.1 != pid)
  roster := h.roster.drop token
  sessions := h.sessions.modify i ({ · with cancelled := true })
  service := .removing pid i

end Holdings

/-- What is announced with an event. -/
def State.announced (s : State) : Event → List Announcement
  | .move _ .announces | .move _ .reports => s.holdings.pending
  | _ => []

/-- What an event does to the holdings of the manager, with these changes and announcements. -/
inductive Passes (h : Holdings) : List Change → List Announcement → Holdings → Prop where
  | still : Passes h [] [] h
  | begins {job : Injection.State} (hidle : h.service = .idle)
      (hnone : h.table.lookup job.pid = none) : Passes h [] [] { h with service := .building job }
  | builds {job job' : Injection.State} (hbuilding : h.service = .building job)
      (hpid : job'.pid = job.pid) : Passes h [] [] { h with service := .building job' }
  | fails {job : Injection.State} {service : Service} (hbuilding : h.service = .building job)
      (hservice : service = .idle ∨ ∃ reason, service = .finished (.failed reason)) :
      Passes h [] [] { h with service }
  | registers {job : Injection.State} {x : Session.State} (hbuilding : h.service = .building job)
      (hid : x.id = job.pid) (hcreated : x.stage = .created) :
      Passes h [.up job.pid h.sessions.length] [] (h.register job.pid x)
  | announces {i : Nat} (hannouncing : h.service = .announcing i) :
      Passes h [] h.pending { h with service := .idle }
  | detaches {pid : UInt32} {entry : Entry} {i : Nat} (hidle : h.service = .idle)
      (hlookup : h.table.lookup pid = some entry)
      (hmember : h.roster.member? entry.token = some i) :
      Passes h [.down pid entry.session] [] (h.detach pid entry.token i)
  /-- The session is not supervised any more. -/
  | loses {pid : UInt32} {entry : Entry} (hidle : h.service = .idle)
      (hlookup : h.table.lookup pid = some entry) (hmember : h.roster.member? entry.token = none) :
      Passes h [.down pid entry.session] []
        { h with table := h.table.filter (·.1 != pid), service := .reporting pid }
  | released {pid : UInt32} {i : Nat} (hremoving : h.service = .removing pid i)
      (hover : ∀ x, h.sessions[i]? = some x → x.isOver = true) :
      Passes h [] [] { h with service := .reporting pid }
  | reports {pid : UInt32} (hreporting : h.service = .reporting pid) :
      Passes h [] h.pending { h with service := .idle }
  | completes (hidle : h.service = .idle) :
      Passes h [] [] { h with table := [], service := .finished .complete }
  | restarts {reason : String} (hfailed : h.service = .finished (.failed reason)) :
      Passes h [] [] { h with service := .idle }
  | session {i : Nat} {x x' : Session.State} {e : Session.Event} (hx : h.sessions[i]? = some x)
      (hact : x.act? e = some x') (hcancel : e ≠ .cancel) (hdrop : e ≠ .drop) :
      Passes h [] [] (h.setSession i x')

variable {s s' : State} {now : Nat}

/-! ## The moves of the manager -/

theorem passes_of_takesAdded (h : s.step? now false .takesAdded = some s') :
    Passes s.holdings [] [] s'.holdings := by
  cases steps_of_step? h with
  | ignores => exact .still
  | begins hidle _ hsession => exact .begins hidle (Option.map_eq_none_iff.mp hsession)

theorem passes_detach (hidle : s.service = .idle) (pid : UInt32) :
    Passes s.holdings ((s.session? pid).toList.map (.down pid)) [] (s.detach pid).holdings := by
  unfold State.session? State.detach
  split
  next hlookup =>
    rw [hlookup]
    exact .still
  next entry hlookup =>
    rw [hlookup]
    simp only [Option.map_some, Option.toList_some, List.map_cons, List.map_nil]
    split
    next i hmember => exact .detaches hidle hlookup hmember
    next hmember => exact .loses hidle hlookup hmember

theorem eq_of_takesRemoved {cancelled : Bool} (h : s.step? now cancelled .takesRemoved = some s') :
    ∃ pid q, s.service = .idle ∧ s.events.removed.take? = some (pid, q) ∧
      s' = { s with events.removed := q }.detach pid := by
  generalize hm : Move.takesRemoved = m at h
  unfold State.step? at h
  split at h
  case h_2 hidle =>
    split at h <;> cases h
    next pid q htake => exact ⟨pid, q, hidle, htake, rfl⟩
  case h_10 => cases h
  all_goals cases hm

theorem passes_of_takesRemoved (h : s.step? now false .takesRemoved = some s') :
    Passes s.holdings (s.changes (.move now .takesRemoved)) [] s'.holdings := by
  obtain ⟨pid, q, hidle, htake, rfl⟩ := eq_of_takesRemoved h
  have hpasses := passes_detach (s := { s with events.removed := q }) hidle pid
  simp only [State.changes, htake]
  exact hpasses

theorem passes_afterBuild {job job' : Injection.State} (hbuilding : s.service = .building job)
    (hpid : job'.pid = job.pid) :
    Passes s.holdings ((s.started? job').toList.map fun _ => .up job.pid s.sessions.length) []
      (s.afterBuild job').holdings := by
  unfold State.started? State.afterBuild
  cases hphase : job'.phase with
  | done r =>
    cases r with
    | ok conn =>
      simp only
      cases hnew : Session.new? job'.pid conn s.hook s.registry s.policy with
      | none => exact .fails hbuilding (.inr ⟨_, rfl⟩)
      | some x =>
        obtain ⟨hid, hcreated⟩ := Session.created_of_new? hnew
        rw [hpid] at hid ⊢
        exact .registers hbuilding hid hcreated
    | error e => exact .fails hbuilding (.inl rfl)
  | _ => exact .builds hbuilding hpid

theorem eq_of_builds {cancelled : Bool} {m : Injection.Move}
    (h : s.step? now cancelled (.builds m) = some s') : ∃ job job', s.service = .building job ∧
      job.step? now m = some job' ∧ s' = s.afterBuild job' := by
  generalize hm : Move.builds m = m' at h
  unfold State.step? at h
  split at h
  case h_4 m' job hbuilding =>
    cases hm
    obtain ⟨job', hjob, rfl⟩ := Option.map_eq_some_iff.mp h
    exact ⟨job, job', hbuilding, hjob, rfl⟩
  case h_10 => cases h
  all_goals cases hm

theorem passes_of_builds {m : Injection.Move} (h : s.step? now false (.builds m) = some s') :
    Passes s.holdings (s.changes (.move now (.builds m))) [] s'.holdings := by
  obtain ⟨job, job', hbuilding, hjob, rfl⟩ := eq_of_builds h
  simp only [State.changes, hbuilding, hjob, Option.bind_some]
  exact passes_afterBuild hbuilding (Injection.State.pid_step? hjob)

theorem passes_of_announces (h : s.step? now false .announces = some s') :
    Passes s.holdings [] s.holdings.pending s'.holdings := by
  cases steps_of_step? h with
  | announces hannouncing => exact .announces hannouncing

theorem passes_of_reports (h : s.step? now false .reports = some s') :
    Passes s.holdings [] s.holdings.pending s'.holdings := by
  cases steps_of_step? h with
  | reports hreporting => exact .reports hreporting

/-- **What an event does to the holdings of the manager.** -/
theorem passes_of_act? {e : Event} (h : s.act? e = some s') :
    Passes s.holdings (s.changes e) (s.announced e) s'.holdings := by
  cases acts_of_act? h with
  | @move now m _ hstep =>
    cases m with
    | takesAdded => exact passes_of_takesAdded hstep
    | takesRemoved => exact passes_of_takesRemoved hstep
    | builds m => exact passes_of_builds hstep
    | announces => exact passes_of_announces hstep
    | reports => exact passes_of_reports hstep
    | completes =>
      cases steps_of_step? hstep with
      | completes hidle => exact .completes hidle
    | released =>
      cases steps_of_step? hstep with
      | released hremoving hover =>
        refine .released hremoving fun x hx => ?_
        rw [isSessionOver_of_some hx] at hover
        exact hover
    | stops =>
      cases steps_of_step? hstep with
      | stops _ hcancelled => cases hcancelled
    | session i m =>
      cases steps_of_step? hstep with
      | @session _ _ x x' hx hmove =>
        have hact : x.act? (.move now m) = some x' := hmove
        exact .session hx hact nofun nofun
  | @client _ c x x' hx hserve =>
    have hact : x.act? (.client c) = some x' := hserve
    exact .session hx hact nofun nofun
  | restart hfailed => exact .restarts hfailed
  | _ => exact .still

/-! ## Events that come to nothing -/

/-- The process that has appeared has a session, the one that has gone has none, or the bringing up
of an agent has failed. -/
inductive Vain (s : State) : Event → Prop where
  | duplicate {now : Nat} {pid : UInt32} {q : Queue UInt32}
      (htake : s.events.added.take? = some (pid, q)) (hsession : (s.session? pid).isSome = true) :
      Vain s (.move now .takesAdded)
  | unknown {now : Nat} {pid : UInt32} {q : Queue UInt32}
      (htake : s.events.removed.take? = some (pid, q)) (hsession : s.session? pid = none) :
      Vain s (.move now .takesRemoved)
  | failed {now : Nat} {m : Injection.Move} {job job' : Injection.State}
      (hbuilding : s.service = .building job) (hjob : job.step? now m = some job')
      (hfails : s.fails job' = true) : Vain s (.move now (.builds m))

theorem cases_of_fails {job : Injection.State} (h : s.fails job = true) :
    (∃ e, job.phase = .done (.error e)) ∨ ∃ conn, job.phase = .done (.ok conn) ∧
      Session.new? job.pid conn s.hook s.registry s.policy = none := by
  unfold State.fails at h
  split at h
  next conn hphase => exact .inr ⟨conn, hphase, Option.isNone_iff_eq_none.mp h⟩
  next e hphase => exact .inl ⟨e, hphase⟩
  next => cases h

theorem started?_of_fails {job : Injection.State} (h : s.fails job = true) :
    s.started? job = none := by
  rcases cases_of_fails h with ⟨e, hphase⟩ | ⟨conn, hphase, hnew⟩
  · simp only [State.started?, hphase]
  · simp only [State.started?, hphase, hnew]

theorem afterBuild_of_fails {job : Injection.State} (h : s.fails job = true) :
    s.afterBuild job = { s with service := .idle } ∨
      ∃ reason, s.afterBuild job = { s with service := .finished (.failed reason) } := by
  rcases cases_of_fails h with ⟨e, hphase⟩ | ⟨conn, hphase, hnew⟩
  · exact .inl (by simp only [State.afterBuild, hphase])
  · exact .inr ⟨_, by simp only [State.afterBuild, hphase, hnew]; rfl⟩

/-- The manager goes on without a change in what it holds. -/
structure Unmoved (s s' : State) : Prop where
  table_eq : s'.table = s.table
  roster_eq : s'.roster = s.roster
  sessions_eq : s'.sessions = s.sessions
  up_eq : s'.up = s.up
  down_eq : s'.down = s.down
  pending_eq : s'.holdings.pending = []

/-- **An event that comes to nothing** leaves the table and the supervisor as they are, and
announces nothing. -/
theorem Vain.unmoved {e : Event} (hvain : Vain s e) (h : s.act? e = some s') :
    Unmoved s s' ∧ s.changes e = [] ∧ s.announced e = [] := by
  cases hvain with
  | duplicate htake hsession =>
    have hstep : s.step? _ false .takesAdded = some s' := h
    refine ⟨?_, rfl, rfl⟩
    cases steps_of_step? hstep with
    | ignores hidle =>
      refine ⟨rfl, rfl, rfl, rfl, rfl, ?_⟩
      simp [State.holdings, Holdings.pending, hidle]
    | begins _ htake' hnone =>
      cases htake.symm.trans htake'
      rw [hnone] at hsession
      cases hsession
  | @unknown now pid q htake hsession =>
    have hstep : s.step? now false .takesRemoved = some s' := h
    obtain ⟨pid', q', hidle, htake', rfl⟩ := eq_of_takesRemoved hstep
    cases htake.symm.trans htake'
    have hlookup : s.table.lookup pid = none := Option.map_eq_none_iff.mp hsession
    have hdetach : State.detach { s with events.removed := q } pid =
        { s with events.removed := q } := by
      rw [State.detach, hlookup]
    rw [hdetach]
    refine ⟨⟨rfl, rfl, rfl, rfl, rfl, ?_⟩, ?_, rfl⟩
    · simp [State.holdings, Holdings.pending, hidle]
    · simp [State.changes, htake, hsession]
  | failed hbuilding hjob hfails =>
    have hstep : s.step? _ false (.builds _) = some s' := h
    obtain ⟨job, job', hbuilding', hjob', rfl⟩ := eq_of_builds hstep
    cases hbuilding.symm.trans hbuilding'
    cases hjob.symm.trans hjob'
    refine ⟨?_, ?_, rfl⟩
    · rcases afterBuild_of_fails hfails with hafter | ⟨reason, hafter⟩ <;> rw [hafter] <;>
        exact ⟨rfl, rfl, rfl, rfl, rfl, rfl⟩
    · simp [State.changes, hbuilding, hjob, started?_of_fails hfails]

/-! ## The start -/

/-- What a manager is before anything has happened to it. -/
structure Initial (s : State) : Prop where
  holdings_eq : s.holdings = ⟨[], {}, [], .idle⟩
  up_eq : s.up.listening = true ∧ s.up.items = []
  down_eq : s.down.listening = true ∧ s.down.items = []

theorem initial_of_new? {config : Config} {events : ProcessEvents}
    (h : new? config events = some s) : Initial s := by
  simp only [new?, Option.bind_eq_bind, Option.bind_eq_some_iff] at h
  obtain ⟨up, hup, down, hdown, h⟩ := h
  obtain ⟨-, rfl⟩ := Queue.eq_of_new? hup
  obtain ⟨-, rfl⟩ := Queue.eq_of_new? hdown
  cases h
  exact ⟨rfl, ⟨rfl, rfl⟩, ⟨rfl, rfl⟩⟩

end Wiretap.Manager
