import Wiretap.Proofs.Adapter.Lives
import Wiretap.Proofs.Adapter.Notes

/-!
# What the manager makes of the reports

Reports wait in two queues, one for each kind of change. The manager takes them one by one, and its
table has the sessions of the processes that it last took to have appeared.

Results:

* `Keeps.next`: what taking a report does to the table.
* `waiting_of_steps`: the manager takes the reports of a kind in the order in which they came.
* `handled_of_run?`: both hold at any time, as long as the manager takes reports at all.
-/

namespace Wiretap

namespace Adapter

variable {ns : List Note} {m m' : Manager.State} {now : Nat} {move : Manager.Move}

/-- The processes in the table, as the notes have it. -/
structure Keeps (ns : List Note) (table : List (UInt32 × Manager.Entry))
    (service : Manager.Service) : Prop where
  mem_iff : ∀ pid, pid ∈ table.map (·.1) ↔
    lastTaken pid ns = some .appeared ∧ hasFailed pid ns = false ∧
      ∀ job, service = .building job → job.pid ≠ pid
  building : ∀ job, service = .building job →
    lastTaken job.pid ns = some .appeared ∧ hasFailed job.pid ns = false

theorem mem_keys_iff (table : List (UInt32 × Manager.Entry)) (pid : UInt32) :
    pid ∈ table.map (·.1) ↔ (table.lookup pid).isSome = true := by
  induction table with
  | nil => simp
  | cons entry table ih =>
    obtain ⟨pid', entry⟩ := entry
    rw [List.lookup_cons]
    by_cases h : pid = pid'
    · subst h
      simp
    · have hne : (pid == pid') = false := by simp [h]
      rw [hne, ← ih]
      simp [h]

theorem mem_without (table : List (UInt32 × Manager.Entry)) (pid pid' : UInt32) :
    pid' ∈ (table.filter (·.1 != pid)).map (·.1) ↔ pid' ≠ pid ∧ pid' ∈ table.map (·.1) := by
  simp only [List.mem_map, List.mem_filter, bne_iff_ne]
  constructor
  · rintro ⟨entry, ⟨hmem, hne⟩, rfl⟩
    exact ⟨hne, entry, hmem, rfl⟩
  · rintro ⟨hne, entry, hmem, rfl⟩
    exact ⟨entry, ⟨hmem, hne⟩, rfl⟩

theorem mem_of_detached {s s' : Manager.State} {pid : UInt32} (h : Manager.Detached s pid s')
    (pid' : UInt32) : pid' ∈ s'.table.map (·.1) ↔ pid' ≠ pid ∧ pid' ∈ s.table.map (·.1) := by
  cases h with
  | unknown hlookup =>
    refine ⟨?_, And.right⟩
    intro hmem
    refine ⟨?_, hmem⟩
    rintro rfl
    rw [mem_keys_iff, hlookup] at hmem
    cases hmem
  | waits | gone => exact mem_without s.table pid pid'

namespace Keeps

variable {table : List (UInt32 × Manager.Entry)} {service : Manager.Service}

/-- Notes of other things change nothing. -/
theorem silent (h : Keeps ns table service) (ns' : List Note)
    (hsilent : ∀ n ∈ ns', (∀ c pid, n ≠ .took c pid) ∧ ∀ pid, n ≠ .failed pid) :
    Keeps (ns ++ ns') table service := by
  induction ns' generalizing ns with
  | nil =>
    rw [List.append_nil]
    exact h
  | cons n ns' ih =>
    obtain ⟨htook, hfailed⟩ := hsilent n List.mem_cons_self
    rw [List.append_cons]
    apply ih
    · constructor
      · intro pid
        rw [lastTaken_other htook, hasFailed_other (htook .appeared) hfailed]
        exact h.mem_iff pid
      · intro job hjob
        rw [lastTaken_other htook, hasFailed_other (htook .appeared) hfailed]
        exact h.building job hjob
    · intro n' hn'
      exact hsilent n' (List.mem_cons_of_mem n hn')

/-- The job goes on. -/
theorem resumes {job job' : Injection.State} (h : Keeps ns table (.building job))
    (hpid : job'.pid = job.pid) : Keeps ns table (.building job') where
  mem_iff pid := by
    rw [h.mem_iff pid]
    simp [hpid]
  building job'' hjob := by
    cases hjob
    rw [hpid]
    exact h.building job rfl

/-- As long as no session is brought up, it does not matter what the service does. -/
theorem elsewhere (h : Keeps ns table service) {service' : Manager.Service}
    (hservice : ∀ job, service ≠ .building job) (hservice' : ∀ job, service' ≠ .building job) :
    Keeps ns table service' where
  mem_iff pid := by
    rw [h.mem_iff pid]
    simp [hservice, hservice']
  building job hjob := absurd hjob (hservice' job)

/-- The process that has appeared has a session already. -/
theorem ignores (h : Keeps ns table service) {pid : UInt32}
    (hservice : ∀ job, service ≠ .building job)
    (hmem : pid ∈ table.map (·.1)) : Keeps (ns ++ [.took .appeared pid]) table service where
  mem_iff pid' := by
    rw [lastTaken_took, hasFailed_appeared]
    by_cases hpid : pid = pid'
    · subst hpid
      simp [hmem, hservice]
    · rw [if_neg hpid, if_neg hpid]
      exact h.mem_iff pid'
  building job hjob := absurd hjob (hservice job)

/-- The manager begins to bring up a session. -/
theorem begins (h : Keeps ns table service) {job : Injection.State}
    (hservice : ∀ job, service ≠ .building job) (hmem : job.pid ∉ table.map (·.1)) :
    Keeps (ns ++ [.took .appeared job.pid]) table (.building job) where
  mem_iff pid := by
    rw [lastTaken_took, hasFailed_appeared]
    by_cases hpid : job.pid = pid
    · subst hpid
      simp [hmem]
    · rw [if_neg hpid, if_neg hpid, h.mem_iff pid]
      simp [hservice, hpid]
  building job' hjob := by
    cases hjob
    rw [lastTaken_took, hasFailed_appeared]
    simp

theorem vanishes (h : Keeps ns table service) {pid : UInt32}
    (hservice : ∀ job, service ≠ .building job)
    {table' : List (UInt32 × Manager.Entry)} {service' : Manager.Service}
    (hservice' : ∀ job, service' ≠ .building job)
    (hmem : ∀ pid', pid' ∈ table'.map (·.1) ↔ pid' ≠ pid ∧ pid' ∈ table.map (·.1)) :
    Keeps (ns ++ [.took .vanished pid]) table' service' where
  mem_iff pid' := by
    rw [hmem pid', lastTaken_took, hasFailed_vanished]
    by_cases hpid : pid = pid'
    · simp [hpid]
    · rw [if_neg hpid, h.mem_iff pid']
      simp [hservice, hservice', Ne.symm hpid]
  building job hjob := absurd hjob (hservice' job)

/-- The session is there. -/
theorem succeeds {job : Injection.State} (h : Keeps ns table (.building job))
    {entry : Manager.Entry} {service' : Manager.Service} (hservice' : ∀ job, service' ≠ .building job) :
    Keeps ns ((job.pid, entry) :: table.filter (·.1 != job.pid)) service' where
  mem_iff pid := by
    rw [List.map_cons, List.mem_cons, mem_without, h.mem_iff pid]
    by_cases hpid : pid = job.pid
    · subst hpid
      simp [h.building job rfl, hservice']
    · simp [hpid, Ne.symm hpid, hservice']
  building job hjob := absurd hjob (hservice' job)

/-- There is no session. -/
theorem fails {job : Injection.State} (h : Keeps ns table (.building job))
    {service' : Manager.Service} (hservice' : ∀ job, service' ≠ .building job) :
    Keeps (ns ++ [.failed job.pid]) table service' where
  mem_iff pid := by
    rw [lastTaken_failed, hasFailed_failed, h.mem_iff pid]
    by_cases hpid : job.pid = pid <;> simp [hpid, hservice']
  building job hjob := absurd hjob (hservice' job)

/-- **One step of the manager.** Unless it ends, its table stays as the notes have it. -/
theorem next (h : Keeps ns m.table m.service) (hsteps : Manager.Steps now false m move m') :
    Keeps (ns ++ managerNote now m move) m'.table m'.service ∨
      m.service = .idle ∧ m'.service = .finished .complete := by
  cases hsteps with
  | @ignores pid q hidle htake hsession =>
    have hnote : managerNote now m .takesAdded = [.took .appeared pid] := by
      simp [managerNote, htake]
    rw [hnote]
    refine .inl (h.ignores (Manager.not_building_of_idle hidle) ?_)
    simpa [mem_keys_iff, Manager.State.session?] using hsession
  | @begins pid q hidle htake hsession =>
    have hnote : managerNote now m .takesAdded = [.took .appeared pid] := by
      simp [managerNote, htake]
    rw [hnote]
    have hbegins := @begins ns m.table m.service h (Injection.start m.hook pid)
      (Manager.not_building_of_idle hidle)
    have hnone : m.table.lookup pid = none := Option.map_eq_none_iff.mp hsession
    refine .inl (hbegins ?_)
    rw [mem_keys_iff, show (Injection.start m.hook pid).pid = pid from rfl, hnone]
    exact Bool.false_ne_true
  | @detaches pid q _ hidle htake hdetached =>
    have hnote : managerNote now m .takesRemoved = [.took .vanished pid] := by
      simp [managerNote, htake]
    have hmem := mem_of_detached hdetached
    rw [hnote]
    exact .inl (h.vanishes (Manager.not_building_of_idle hidle) (hdetached.not_building hidle) hmem)
  | completes hidle => exact .inr ⟨hidle, rfl⟩
  | @builds bm job job' _ hbuilding hjob hbuilt =>
    have hpid := Injection.State.pid_step? hjob
    have hnote : managerNote now m (.builds bm) =
        if m.fails job' then [.failed job'.pid] else [] := by
      simp [managerNote, hbuilding, hjob, hpid]
    have hjob' : Keeps ns m.table (.building job') := by
      rw [hbuilding] at h
      exact h.resumes hpid
    rw [hnote]
    refine .inl ?_
    cases hbuilt with
    | fails hfails hservice =>
      rw [hfails]
      exact hjob'.fails hservice
    | succeeds hfails =>
      rw [hfails, if_neg Bool.false_ne_true, List.append_nil]
      exact hjob'.succeeds fun _ => Manager.Service.noConfusion
    | goesOn hfails =>
      rw [hfails, if_neg Bool.false_ne_true, List.append_nil]
      exact hjob'
  | announces hservice | released hservice | reports hservice =>
    rw [hservice] at h
    rw [show managerNote now m _ = [] from rfl, List.append_nil]
    refine .inl (h.elsewhere ?_ ?_)
    · exact fun _ => Manager.Service.noConfusion
    · exact fun _ => Manager.Service.noConfusion
  | stops _ hcancelled => cases hcancelled
  | session =>
    rw [show managerNote now m _ = [] from rfl, List.append_nil]
    exact .inl h

end Keeps

/-! ## The queues -/

/-- The reports of a kind that nobody has taken yet. -/
def waiting : Change → ProcessEvents → List UInt32
  | .appeared, e => e.added.items
  | .vanished, e => e.removed.items

/-- Somebody takes the reports. -/
def listening (e : ProcessEvents) : Bool := e.added.listening && e.removed.listening

/-- The manager takes the report that has waited longest. -/
theorem waiting_of_steps {cancelled : Bool} (hsteps : Manager.Steps now cancelled m move m')
    (c : Change) :
    taken c (managerNote now m move) ++ waiting c m'.events = waiting c m.events ∧
      listening m'.events = listening m.events := by
  cases hsteps with
  | ignores _ htake | begins _ htake =>
    obtain ⟨hitems, hq⟩ := Queue.eq_of_take? htake
    refine ⟨?_, by rw [hq]; rfl⟩
    cases c with
    | appeared => simp [managerNote, htake, taken, waiting, hitems]
    | vanished => simp [managerNote, htake, taken, waiting]
  | detaches _ htake hdetached =>
    obtain ⟨hitems, hq⟩ := Queue.eq_of_take? htake
    rw [hdetached.events_eq]
    refine ⟨?_, by rw [hq]; rfl⟩
    cases c with
    | appeared => simp [managerNote, htake, taken, waiting]
    | vanished => simp [managerNote, htake, taken, waiting, hitems]
  | @builds bm job job' _ hbuilding hjob hbuilt =>
    rw [hbuilt.events_eq]
    refine ⟨?_, rfl⟩
    have hnone : taken c (managerNote now m (.builds bm)) = [] := by
      simp only [managerNote, hbuilding]
      split <;> rfl
    rw [hnone, List.nil_append]
  | _ => exact ⟨rfl, rfl⟩

theorem reported_managerNote (c : Change) : reported c (managerNote now m move) = [] := by
  have hnone : reports (managerNote now m move) = [] := by
    rw [reports, List.filterMap_eq_nil_iff]
    intro n hn
    cases n with
    | reported c' pid => exact absurd rfl (not_reported_of_managerNote hn c' pid)
    | _ => rfl
  rw [reported, hnone, List.filterMap_nil]

variable {w w' : Watcher.State} {wm : Watcher.Move}

/-- A report comes to the end of its queue. -/
theorem waiting_of_watcher {cancelled : Bool} (hsteps : Watcher.Steps now cancelled w wm w')
    (hlistening : listening w.events = true) (c : Change) :
    waiting c w'.events = waiting c w.events ++ reported c (watcherNote w wm) ∧
      listening w'.events = true := by
  have hboth : w.events.added.listening = true ∧ w.events.removed.listening = true := by
    simpa [listening] using hlistening
  cases hsteps with
  | addition hpoll hoffer =>
    have haccepted := hoffer.resolve_right (by simp [hboth.1])
    obtain ⟨-, rfl⟩ := Queue.eq_of_offer haccepted
    refine ⟨?_, hlistening⟩
    cases c <;> simp [watcherNote, hpoll, reported, waiting]
  | removal hpoll hoffer =>
    have haccepted := hoffer.resolve_right (by simp [hboth.2])
    obtain ⟨-, rfl⟩ := Queue.eq_of_offer haccepted
    refine ⟨?_, hlistening⟩
    cases c <;> simp [watcherNote, hpoll, reported, waiting]
  | settles hpoll =>
    refine ⟨?_, hlistening⟩
    cases c <;> simp [watcherNote, hpoll, reported, waiting, Watcher.State.endPoll]
  | _ => exact ⟨(List.append_nil _).symm, hlistening⟩

theorem not_taken_of_watcherNote {n : Note} (h : n ∈ watcherNote w wm) :
    (∀ c pid, n ≠ .took c pid) ∧ ∀ pid, n ≠ .failed pid := by
  unfold watcherNote at h
  split at h
  next =>
    split at h
    next => rw [List.mem_singleton.mp h]; exact ⟨nofun, nofun⟩
    next => rw [List.mem_singleton.mp h]; exact ⟨nofun, nofun⟩
    next => cases h
  next => cases h

theorem taken_watcherNote (c : Change) : taken c (watcherNote w wm) = [] := by
  have hnone : takings (watcherNote w wm) = [] := by
    rw [takings, List.filterMap_eq_nil_iff]
    intro n hn
    cases n with
    | took c' pid => exact absurd rfl ((not_taken_of_watcherNote hn).1 c' pid)
    | _ => rfl
  rw [taken, hnone, List.filterMap_nil]

/-! ## Runs -/

/-- The manager takes reports, now or after a rest. -/
def State.isLive (s : State) : Bool := s.manager.isRunning || !s.managerLife.isOver

/-- What the manager has made of the reports. -/
structure Handled (ns : List Note) (s : State) : Prop where
  queued : ∀ c, taken c ns ++ waiting c s.manager.events = reported c ns
  listening_of : s.watcherLife.isOver = false → listening s.manager.events = true
  keeps : Keeps ns s.manager.table s.manager.service

namespace Handled

variable {s s' : State} {e : Event}

/-- The watcher's end of the queues makes no difference to what waits in them. -/
theorem congr (h : Handled ns s) (htable : s'.manager.table = s.manager.table)
    (hservice : s'.manager.service = s.manager.service)
    (hevents : s'.manager.events = s.manager.events ∨ s'.manager.events = s.manager.events.finish)
    (hlife : s'.watcherLife.isOver = false → s.watcherLife.isOver = false) : Handled ns s' := by
  have hwaiting : ∀ c, waiting c s'.manager.events = waiting c s.manager.events := by
    intro c
    rcases hevents with hevents | hevents
    · rw [hevents]
    · rw [hevents]
      cases c <;> rfl
  have hlistening : listening s'.manager.events = listening s.manager.events := by
    rcases hevents with hevents | hevents
    · rw [hevents]
    · rw [hevents]
      rfl
  constructor
  · intro c
    rw [hwaiting c]
    exact h.queued c
  · intro hover
    rw [hlistening]
    exact h.listening_of (hlife hover)
  · rw [htable, hservice]
    exact h.keeps

/-- A manager that has given up takes no reports any more. -/
theorem live_of_setManager (hsteps : Manager.Steps now s.cancelled s.manager move m')
    (hlive : (s.setManager now m').isLive = true) : s.isLive = true := by
  cases hs : s.isLive with
  | true => rfl
  | false =>
    have hover : s.manager.isRunning = false ∧ s.managerLife.isOver = true := by
      simpa [State.isLive] using hs
    obtain ⟨hset, -⟩ | ⟨failures, e, he, hlife, hset⟩ := setManager_cases s now m'
    · rw [hset, State.isLive, Manager.State.isRunning_congr (hsteps.service_eq hover.1)] at hlive
      simp [hover.1, hover.2] at hlive
    · rw [hlife] at hover
      cases hover.2

theorem setManager (hsteps : Manager.Steps now s.cancelled s.manager move m') (hlives : Lives s)
    (hcalm : s.cancelled = false) (h : Handled ns s)
    (hlive : (s.setManager now m').isLive = true) :
    Handled (ns ++ managerNote now s.manager move) (s.setManager now m') := by
  have hqueued : ∀ c, taken c (ns ++ managerNote now s.manager move) ++ waiting c m'.events =
      reported c (ns ++ managerNote now s.manager move) := by
    intro c
    rw [taken_append, List.append_assoc, (waiting_of_steps hsteps c).1, h.queued c, reported_append,
      reported_managerNote, List.append_nil]
  have hlistening : s.watcherLife.isOver = false → listening m'.events = true := by
    rw [(waiting_of_steps hsteps .appeared).2]
    exact h.listening_of
  rw [hcalm] at hsteps
  obtain ⟨hset, hrunning⟩ | ⟨failures, e, he, hlife, hset⟩ := setManager_cases s now m'
  · rw [hset] at hlive ⊢
    rcases h.keeps.next hsteps with hkeeps | ⟨hidle, hcomplete⟩
    · exact ⟨hqueued, hlistening, hkeeps⟩
    · -- a manager that has ended takes no reports
      have hended : m'.isRunning = false := by rw [Manager.State.isRunning, hcomplete]
      cases hlife : s.managerLife with
      | running failures =>
        rw [hended] at hrunning
        exact absurd hlife (hrunning.resolve_left Bool.false_ne_true failures)
      | resting failures due =>
        have hrest := hlives.not_running (by simp [hlife])
        rw [Manager.State.isRunning, hidle] at hrest
        cases hrest
      | finished =>
        simp [State.isLive, hended, hlife, Life.isOver] at hlive
  · have hlast : (Life.ended s.policy now s.cancelled failures e).isOver = false := by
      rw [hset, State.isLive, Manager.State.isRunning, setManagerLife_service, he] at hlive
      simpa [State.setManagerLife] using hlive
    rw [hset, setManagerLife_of_not_over _ hlast]
    rcases h.keeps.next hsteps with hkeeps | ⟨-, hcomplete⟩
    · exact ⟨hqueued, hlistening, hkeeps⟩
    · cases he.symm.trans hcomplete
      cases hlast

theorem setWatcher {w : Watcher.State} {wm : Watcher.Move} {failures : Nat}
    (hlife : s.watcherLife = .running failures)
    (hsteps : Watcher.Steps now s.cancelled { s.watcher with events := s.manager.events } wm w)
    (h : Handled ns s) : Handled (ns ++ watcherNote s.watcher wm) (s.setWatcher now w) := by
  have hrunning : s.watcherLife.isOver = false := by
    rw [hlife]
    rfl
  have hwaiting := waiting_of_watcher hsteps (h.listening_of hrunning)
  have hmoved : Handled (ns ++ watcherNote s.watcher wm)
      { s with watcher := w, manager := { s.manager with events := w.events } } := by
    refine ⟨?_, fun _ => (hwaiting .appeared).2, ?_⟩
    · intro c
      have hnew : waiting c w.events =
          waiting c s.manager.events ++ reported c (watcherNote s.watcher wm) := (hwaiting c).1
      rw [taken_append, taken_watcherNote, List.append_nil, reported_append, hnew, ← h.queued c,
        List.append_assoc]
    · exact h.keeps.silent _ fun n hn => not_taken_of_watcherNote hn
  obtain ⟨life, events, hset, hevents⟩ := setWatcher_eq s now w
  rw [hset]
  exact hmoved.congr rfl rfl hevents fun _ => hrunning

theorem isLive_setWatcher (s : State) (now : Nat) (w : Watcher.State) :
    (s.setWatcher now w).isLive = s.isLive := by
  obtain ⟨life, events, hset, -⟩ := setWatcher_eq s now w
  rw [hset]
  rfl

/-- **One step of the adapter.** As long as nobody cancels it, nothing is lost between the watcher
and the manager. -/
theorem next (hacts : Acts s e s') (hlives : Lives s) (hcalm : s.cancelled = false)
    (h : s.isLive = true → Handled ns s) (hlive : s'.isLive = true) :
    Handled (ns ++ s.note e) s' := by
  cases hacts with
  | watcher hlife hsteps =>
    rw [isLive_setWatcher] at hlive
    exact (h hlive).setWatcher hlife hsteps
  | manager hstep =>
    have hsteps := Manager.steps_of_step? hstep
    exact setManager hsteps hlives hcalm (h (live_of_setManager hsteps hlive)) hlive
  | @watcherAwakes now life hlife =>
    obtain ⟨failures, due, hrest, -⟩ := Life.awake?_cases hlife
    obtain ⟨events, hset, hevents⟩ := setWatcherLife_eq { s with watcher := s.watcher.restart } life
    have hrunning : s.watcherLife.isOver = false := by
      rw [hrest]
      rfl
    rw [hset] at hlive ⊢
    show Handled (ns ++ []) _
    rw [List.append_nil]
    exact (h hlive).congr rfl rfl hevents fun _ => hrunning
  | @managerAwakes now life hlife =>
    obtain ⟨failures, due, hrest, ⟨-, hcancelled⟩ | ⟨rfl, -⟩⟩ := Life.awake?_cases hlife
    · rw [hcalm] at hcancelled
      cases hcancelled
    · have h := h (by simp [State.isLive, hrest, Life.isOver])
      have hidle := hlives.not_running (by simp [hrest])
      show Handled (ns ++ []) _
      rw [List.append_nil]
      refine ⟨h.queued, h.listening_of, h.keeps.elsewhere (fun job hjob => ?_) fun _ => nofun⟩
      rw [Manager.State.isRunning, hjob] at hidle
      cases hidle
  | gathers hcancelled =>
    rw [hcalm] at hcancelled
    cases hcancelled
  | announced he =>
    have h := h hlive
    have hnone : s.note e = [] := by
      rcases he with rfl | rfl | rfl | rfl <;> rfl
    rw [hnone, List.append_nil]
    exact ⟨h.queued, h.listening_of, h.keeps⟩
  | _ =>
    have h := h hlive
    show Handled (ns ++ []) _
    rw [List.append_nil]
    exact ⟨h.queued, h.listening_of, h.keeps⟩

end Handled

theorem Initial.handled {s : State} (h : Initial s) : Handled [] s where
  queued c := by
    cases c
    · exact h.added_eq
    · exact h.removed_eq
  listening_of hlife := by
    rcases h.lives with ⟨-, -, -, -, hadded, hremoved⟩ | ⟨hwatcher, -⟩
    · rw [listening, hadded, hremoved]
      rfl
    · rw [hwatcher] at hlife
      cases hlife
  keeps := by
    have hservice : ∀ job, s.manager.service ≠ .building job := by
      rcases h.lives with ⟨-, -, -, hservice, -⟩ | ⟨-, -, -, hservice⟩ <;> rw [hservice] <;>
        exact fun _ => nofun
    rw [h.table_eq]
    refine ⟨fun pid => ?_, fun job hjob => absurd hjob (hservice job)⟩
    simp [lastTaken, latest]

theorem handled_of_run? {config : Config} {s₀ s : State} {t : List Event}
    (hstart : start? config = some s₀) (hrun : run? State.act? s₀ t = some s)
    (hcalm : s.cancelled = false) (hlive : s.isLive = true) : Handled (notes s₀ t) s := by
  have hinv := run?_invariant (motive := fun t s => Lives s ∧
    (s.cancelled = false → s.isLive = true → Handled (notes s₀ t) s)) ?_ ?_ hrun
  · exact hinv.2 hcalm hlive
  · exact ⟨(initial_of_start? hstart).lives_holds, fun _ _ => (initial_of_start? hstart).handled⟩
  · rintro past s e s' hrun ⟨hlives, hinv⟩ he
    have hacts := acts_of_act? he
    refine ⟨hlives.next hacts, ?_⟩
    intro hcalm hlive
    have hcalm := hacts.cancelled_eq hcalm
    rw [notes_concat e hrun]
    exact Handled.next hacts hlives hcalm (hinv hcalm) hlive

end Adapter
end Wiretap
