import Wiretap.Proofs.Manager.Book
import Wiretap.Proofs.Run
import Wiretap.Proofs.Watcher.Step

/-!
# What the watcher reports

A watcher polls, by itself or as a service, and whoever listens takes its reports at any pace, or
goes away. Each poll runs to its end. It is noted how each scan ends and what is reported after it.

Results:

* `acts_of_act?`: what an event is made on and what it leaves behind.
* `Logged.turns_spec`: the reports of one process alternate, and the last one says whether it is
  known.
* `polling_next`, `delivered_next`: what one event adds to the notes, and to what has reached the
  listeners.
* `can_act_of_not_idle`: no poll gets stuck, if whoever listens takes the reports.
* `reports_follow_snapshots`: after each poll the watcher knows the watched processes of the last
  snapshot. Each poll reports the difference to those known before it, and the reports reach whoever
  listens.
-/

namespace Wiretap.Watcher

open Manager (Alternates alternates_concat)

/-- How the taking of a snapshot can end. -/
inductive Scan where
  | listed (processes : List ProcessEntry)
  | failed
  | panicked
  deriving DecidableEq, Repr

/-- The snapshot, if there is one. -/
def Scan.snapshot? : Scan → Option (List ProcessEntry)
  | .listed processes => some processes
  | .failed | .panicked => none

/-- Something that happens to a watcher. -/
inductive Event where
  /-- A poll begins that is not one of the service's. -/
  | begins
  | scans (scan : Scan)
  | reports
  /-- The service starts, which begins with a poll. -/
  | serves (now : Nat)
  | ticks (now : Nat)
  /-- The service sees between two polls that it is cancelled. -/
  | stops
  /-- The service may be run again. -/
  | restarts
  /-- The next report is taken of a process that has appeared, or else vanished. -/
  | takes (appeared : Bool)
  /-- Nobody takes such reports any more. -/
  | leaves (appeared : Bool)

/-- A process has appeared, or else it has vanished. -/
structure Report where
  pid : UInt32
  appeared : Bool
  deriving DecidableEq, Repr

inductive Note where
  | scanned (scan : Scan)
  | reported (r : Report)
  deriving DecidableEq, Repr

/-- The reports of these processes, additions first. -/
def reportsOf (added removed : List UInt32) : List Report :=
  added.map (⟨·, true⟩) ++ removed.map (⟨·, false⟩)

/-- What a poll has still to report. -/
def Poll.ahead : Poll → List Report
  | .reporting added removed _ => reportsOf added removed
  | _ => []

def Service.isServing : Service → Bool
  | .polling _ | .ticking _ => true
  | .idle | .finished _ => false

namespace State

/-- The queue for processes that have appeared, or else vanished. -/
def queue (s : State) : Bool → Queue UInt32
  | true => s.events.added
  | false => s.events.removed

def setQueue (s : State) (appeared : Bool) (q : Queue UInt32) : State :=
  match appeared with
  | true => { s with events.added := q }
  | false => { s with events.removed := q }

/-- The watcher after an event, if that can happen now. -/
def act? (s : State) : Event → Option State
  | .begins => if s.poll = .idle ∧ s.service.isServing = false then some s.beginPoll else none
  | .scans scan => s.step? 0 false (.scanned scan.snapshot?)
  | .reports => s.step? 0 false .reports
  | .serves now => s.step? now false .starts
  | .ticks now => s.step? now false .ticks
  | .stops => if s.poll = .idle then s.step? 0 true .stops else none
  | .restarts => if s.poll = .idle ∧ s.service.isServing = false then some s.restart else none
  | .takes appeared => (s.queue appeared).take?.map fun (_, q) => s.setQueue appeared q
  | .leaves appeared => some (s.setQueue appeared (s.queue appeared).close)

/-- What is noted of an event. -/
def note (s : State) : Event → List Note
  | .scans scan => [.scanned scan]
  | .reports => (s.poll.ahead.head?.map Note.reported).toList
  | _ => []

/-- The process of such a report that a listener takes. -/
def takenBy (s : State) (appeared : Bool) : Event → List UInt32
  | .takes appeared' =>
    if appeared' = appeared then ((s.queue appeared).take?.map (·.1)).toList else []
  | _ => []

end State

/-- What is noted in the course of a run. -/
def notes (s : State) (es : List Event) : List Note := history State.act? State.note s es

/-- The processes of such reports, as listeners take them in the course of a run. -/
def taken (appeared : Bool) (s : State) (es : List Event) : List UInt32 :=
  history State.act? (·.takenBy appeared) s es

variable {w s s' : State} {e : Event} {es : List Event} {hook : HookConfig} {name : String}
  {ns : List Note} {known found : List UInt32} {rs : List Report} {pid : UInt32} {appeared : Bool}

/-! ## Reading the notes -/

/-- Such a report, by its process. -/
def Note.report? (appeared : Bool) : Note → Option UInt32
  | .reported r => if r.appeared = appeared then some r.pid else none
  | .scanned _ => none

/-- Whether the process is reported to have appeared, where it is reported at all. -/
def Note.turn? (pid : UInt32) : Note → Option Bool
  | .reported r => if r.pid = pid then some r.appeared else none
  | .scanned _ => none

/-- The processes of such reports. -/
def reported (appeared : Bool) (ns : List Note) : List UInt32 :=
  ns.filterMap (Note.report? appeared)

/-- What becomes of the process in turn: it appears, or else it vanishes. -/
def turns (pid : UInt32) (ns : List Note) : List Bool := ns.filterMap (Note.turn? pid)

/-- The last snapshot that could be taken. -/
def lastSnapshot (ns : List Note) : List ProcessEntry :=
  (ns.filterMap fun
    | .scanned scan => scan.snapshot?
    | .reported _ => none).getLast?.getD []

/-- These are the reports of the difference between the known processes and those found: one for
each process, additions first. -/
inductive Differs (known found : List UInt32) : List Report → Prop where
  | intro {added removed : List UInt32} (hadded : added.Nodup) (hremoved : removed.Nodup)
      (hadded_iff : ∀ pid, pid ∈ added ↔ pid ∈ found ∧ pid ∉ known)
      (hremoved_iff : ∀ pid, pid ∈ removed ↔ pid ∈ known ∧ pid ∉ found) :
      Differs known found (reportsOf added removed)

/-- The processes found are the watched ones of a snapshot. -/
structure Finds (name : String) (processes : List ProcessEntry) (found : List UInt32) : Prop where
  nodup : found.Nodup
  mem_iff : ∀ pid, pid ∈ found ↔ ∃ p ∈ processes, p.pid = pid ∧ isWatched name p.name = true

/-- What is noted of a number of polls, one after the other, and which processes are known then. -/
inductive Logged (name : String) : List Note → List UInt32 → Prop where
  | nil : Logged name [] []
  | missed {ns : List Note} {known : List UInt32} {scan : Scan} (hscan : scan.snapshot? = none)
      (h : Logged name ns known) : Logged name (ns ++ [.scanned scan]) known
  | found {ns : List Note} {known found : List UInt32} {rs : List Report}
      {processes : List ProcessEntry} (hfinds : Finds name processes found)
      (hdiffers : Differs known found rs) (h : Logged name ns known) :
      Logged name (ns ++ .scanned (.listed processes) :: rs.map .reported) found

theorem turns_append (ns ns' : List Note) : turns pid (ns ++ ns') = turns pid ns ++ turns pid ns' :=
  List.filterMap_append

/-- Where each process is reported once, a process has one turn or none. -/
theorem turns_once {l : List UInt32} (h : l.Nodup) (appeared : Bool) :
    turns pid ((l.map fun pid => Report.mk pid appeared).map .reported) =
      if pid ∈ l then [appeared] else [] := by
  induction l with
  | nil => rfl
  | cons pid' l ih =>
    obtain ⟨hpid', hnodup⟩ := List.nodup_cons.mp h
    have hrest := ih hnodup
    by_cases hpid : pid' = pid
    · subst hpid
      rw [if_neg hpid'] at hrest
      simp only [List.map_cons, turns, List.filterMap_cons, Note.turn?, if_true, List.mem_cons,
        true_or]
      exact congrArg _ hrest
    · have hmem : pid ∈ pid' :: l ↔ pid ∈ l := by simp [Ne.symm hpid]
      simp only [List.map_cons, turns, List.filterMap_cons, Note.turn?, if_neg hpid, hmem]
      exact hrest

/-- **The turns of a process in one poll.** -/
theorem turns_of_differs (h : Differs known found rs) (pid : UInt32) :
    turns pid (rs.map .reported) =
      if pid ∈ found then if pid ∈ known then [] else [true]
      else if pid ∈ known then [false] else [] := by
  cases h with
  | intro hadded hremoved hadded_iff hremoved_iff =>
    rw [reportsOf, List.map_append, turns_append, turns_once hadded, turns_once hremoved]
    by_cases hfound : pid ∈ found <;> by_cases hknown : pid ∈ known <;>
      simp [hadded_iff, hremoved_iff, hfound, hknown]

theorem turns_scanned (scan : Scan) (ns' : List Note) :
    turns pid (ns ++ .scanned scan :: ns') = turns pid ns ++ turns pid ns' := by
  rw [turns_append]
  rfl

/-- **The reports of one process alternate**, and the last one says whether it is known. -/
theorem Logged.turns_spec (h : Logged name ns known) (pid : UInt32) :
    Alternates (turns pid ns) ∧ (turns pid ns).getLast?.getD false = decide (pid ∈ known) := by
  induction h with
  | nil => exact ⟨List.IsChain.singleton false, by simp [turns]⟩
  | missed _ _ ih =>
    rw [turns_scanned, show turns pid [] = [] from rfl, List.append_nil]
    exact ih
  | @found ns known found rs processes _ hdiffers _ ih =>
    obtain ⟨halternates, hlast⟩ := ih
    rw [turns_scanned, turns_of_differs hdiffers]
    by_cases hfound : pid ∈ found <;> by_cases hknown : pid ∈ known <;>
      simp only [hfound, hknown, if_true, if_false, decide_true, decide_false,
        List.append_nil] at hlast ⊢
    · exact ⟨halternates, hlast⟩
    · exact ⟨alternates_concat halternates (by simp [hlast]), by simp⟩
    · exact ⟨alternates_concat halternates (by simp [hlast]), by simp⟩
    · exact ⟨halternates, hlast⟩

/-- The known processes are the watched ones of the last snapshot. -/
theorem Logged.finds (h : Logged name ns known) : Finds name (lastSnapshot ns) known := by
  induction h with
  | nil => exact ⟨List.nodup_nil, by simp [lastSnapshot]⟩
  | @missed ns known scan hscan _ ih =>
    have hlast : lastSnapshot (ns ++ [.scanned scan]) = lastSnapshot ns := by
      simp [lastSnapshot, hscan]
    rw [hlast]
    exact ih
  | @found ns known found rs processes hfinds _ _ _ =>
    have hreports : ∀ rs : List Report, (rs.map Note.reported).filterMap (fun
        | .scanned scan => scan.snapshot?
        | .reported _ => none) = [] := by simp
    have hlast : lastSnapshot (ns ++ .scanned (.listed processes) :: rs.map .reported) =
        processes := by
      rw [lastSnapshot, List.filterMap_append, List.filterMap_cons, hreports]
      simp [Scan.snapshot?]
    rw [hlast]
    exact hfinds

/-! ## What an event does -/

@[simp] theorem queue_setQueue (s : State) (b b' : Bool) (q : Queue UInt32) :
    (s.setQueue b q).queue b' = if b = b' then q else s.queue b' := by
  cases b <;> cases b' <;> rfl

theorem queue_setPoll (s : State) (poll : Poll) (b : Bool) :
    State.queue { s with poll } b = s.queue b := by
  cases b <;> rfl

@[simp] theorem poll_setQueue (s : State) (b : Bool) (q : Queue UInt32) :
    (s.setQueue b q).poll = s.poll := by cases b <;> rfl

@[simp] theorem known_setQueue (s : State) (b : Bool) (q : Queue UInt32) :
    (s.setQueue b q).known = s.known := by cases b <;> rfl

@[simp] theorem processName_setQueue (s : State) (b : Bool) (q : Queue UInt32) :
    (s.setQueue b q).processName = s.processName := by cases b <;> rfl

theorem note_reports {r : Report} {added removed added' removed' : List UInt32}
    (hpoll : s.poll = .reporting added removed found)
    (hnext : reportsOf added removed = r :: reportsOf added' removed') :
    s.note .reports = [.reported r] := by
  simp [State.note, hpoll, Poll.ahead, hnext]

theorem note_settles (hpoll : s.poll = .reporting [] [] found) : s.note .reports = [] := by
  simp [State.note, hpoll, Poll.ahead, reportsOf]

/-- What an event does to a watcher whose polls run to their end. -/
inductive Acts (s : State) : Event → State → Prop where
  /-- Between two polls nothing is reported. -/
  | idles {e : Event} {s' : State} (hpoll : s.poll = .idle)
      (hpoll' : s'.poll = .idle ∨ s'.poll = .scanning) (hname : s'.processName = s.processName)
      (hknown : s'.known = s.known) (hevents : s'.events = s.events) (hnote : s.note e = [])
      (htaken : ∀ appeared, s.takenBy appeared e = []) : Acts s e s'
  | misses {scan : Scan} (hpoll : s.poll = .scanning) (hscan : scan.snapshot? = none) :
      Acts s (.scans scan) s.endPoll
  | finds {processes : List ProcessEntry} (hpoll : s.poll = .scanning) :
      Acts s (.scans (.listed processes))
        { s with
          poll := .reporting (s.appeared (matching s.processName processes))
            (s.vanished (matching s.processName processes)) (matching s.processName processes) }
  /-- A report goes into its queue, unless nobody listens. -/
  | reports {r : Report} {added removed added' removed' found : List UInt32} {q : Queue UInt32}
      (hpoll : s.poll = .reporting added removed found)
      (hnext : reportsOf added removed = r :: reportsOf added' removed')
      (hoffer : (s.queue r.appeared).offer r.pid = .accepted q ∨
        (s.queue r.appeared).listening = false ∧ q = s.queue r.appeared) :
      Acts s .reports
        { s.setQueue r.appeared q with poll := .reporting added' removed' found }
  | settles {found : List UInt32} (hpoll : s.poll = .reporting [] [] found) :
      Acts s .reports { s with known := found }.endPoll
  | takes {appeared : Bool} {pid : UInt32} {q : Queue UInt32}
      (htake : (s.queue appeared).take? = some (pid, q)) :
      Acts s (.takes appeared) (s.setQueue appeared q)
  | leaves (appeared : Bool) :
      Acts s (.leaves appeared) (s.setQueue appeared (s.queue appeared).close)

theorem acts_of_act? (h : s.act? e = some s') : Acts s e s' := by
  cases e with
  | begins =>
    simp only [State.act?, Option.ite_none_right_eq_some, Option.some.injEq] at h
    obtain ⟨⟨hpoll, -⟩, rfl⟩ := h
    exact .idles hpoll (.inr rfl) rfl rfl rfl rfl fun _ => rfl
  | scans scan =>
    cases scan with
    | listed processes =>
      cases steps_of_step? h with
      | scans hpoll => exact .finds hpoll
    | failed | panicked =>
      cases steps_of_step? h with
      | misses hpoll => exact .misses hpoll rfl
  | reports =>
    cases steps_of_step? h with
    | @addition pid added removed found q hpoll hoffer =>
      have hnext : reportsOf (pid :: added) removed = ⟨pid, true⟩ :: reportsOf added removed := rfl
      exact .reports hpoll hnext hoffer
    | @removal pid removed found q hpoll hoffer =>
      have hnext : reportsOf [] (pid :: removed) = ⟨pid, false⟩ :: reportsOf [] removed := rfl
      exact .reports hpoll hnext hoffer
    | settles hpoll => exact .settles hpoll
  | serves now =>
    cases steps_of_step? h with
    | starts hpoll => exact .idles hpoll (.inr rfl) rfl rfl rfl rfl fun _ => rfl
    | fails hpoll => exact .idles hpoll (.inl rfl) rfl rfl rfl rfl fun _ => rfl
  | ticks now =>
    cases steps_of_step? h with
    | ticks hpoll => exact .idles hpoll (.inr rfl) rfl rfl rfl rfl fun _ => rfl
  | stops =>
    simp only [State.act?, Option.ite_none_right_eq_some] at h
    obtain ⟨hpoll, hstep⟩ := h
    cases steps_of_step? hstep with
    | stops => exact .idles hpoll (.inl rfl) rfl rfl rfl rfl fun _ => rfl
  | restarts =>
    simp only [State.act?, Option.ite_none_right_eq_some, Option.some.injEq] at h
    obtain ⟨⟨hpoll, -⟩, rfl⟩ := h
    exact .idles hpoll (.inl hpoll) rfl rfl rfl rfl fun _ => rfl
  | takes appeared =>
    obtain ⟨⟨pid, q⟩, htake, rfl⟩ := Option.map_eq_some_iff.mp h
    exact .takes htake
  | leaves appeared =>
    cases h
    exact .leaves appeared

/-! ## What is noted of the polls -/

theorem mem_matching {configured : String} {processes : List ProcessEntry} :
    pid ∈ matching configured processes ↔
      ∃ p ∈ processes, p.pid = pid ∧ isWatched configured p.name = true := by
  simp only [matching, List.mem_eraseDups, List.mem_map, List.mem_filter]
  constructor
  · rintro ⟨p, ⟨hmem, hwatched⟩, rfl⟩
    exact ⟨p, hmem, rfl, hwatched⟩
  · rintro ⟨p, hmem, rfl, hwatched⟩
    exact ⟨p, ⟨hmem, hwatched⟩, rfl⟩

theorem finds_matching (name : String) (processes : List ProcessEntry) :
    Finds name processes (matching name processes) :=
  ⟨nodup_matching name processes, fun _ => mem_matching⟩

theorem differs_of_known (s : State) (hknown : s.known.Nodup) (hfound : found.Nodup) :
    Differs s.known found (reportsOf (s.appeared found) (s.vanished found)) :=
  .intro (hfound.filter _) (hknown.filter _) (fun _ => State.mem_appeared_iff) fun _ =>
    State.mem_vanished_iff

/-- How far the notes have got. -/
inductive Polling (name : String) (ns : List Note) (known : List UInt32) : Poll → Prop where
  | settled {poll : Poll} (hpoll : poll = .idle ∨ poll = .scanning) (h : Logged name ns known) :
      Polling name ns known poll
  /-- What was reported in this poll and what is still to be reported make up the difference. -/
  | reporting {past : List Note} {processes : List ProcessEntry} {rs : List Report}
      {added removed found : List UInt32} (h : Logged name past known)
      (hfinds : Finds name processes found)
      (hdiffers : Differs known found (rs ++ reportsOf added removed))
      (hns : ns = past ++ .scanned (.listed processes) :: rs.map .reported) :
      Polling name ns known (.reporting added removed found)

theorem Polling.of_idle {poll : Poll} (h : Polling name ns known poll)
    (hpoll : poll = .idle ∨ poll = .scanning) : Logged name ns known := by
  cases h with
  | settled _ h => exact h
  | reporting => rcases hpoll with hpoll | hpoll <;> cases hpoll

theorem Polling.of_reporting {added removed : List UInt32}
    (h : Polling name ns known (.reporting added removed found)) :
    ∃ past processes rs, Logged name past known ∧ Finds name processes found ∧
      Differs known found (rs ++ reportsOf added removed) ∧
      ns = past ++ .scanned (.listed processes) :: rs.map .reported := by
  cases h with
  | settled hidle => rcases hidle with hidle | hidle <;> cases hidle
  | reporting h hfinds hdiffers hns => exact ⟨_, _, _, h, hfinds, hdiffers, hns⟩

/-- **What one event adds to the notes.** -/
theorem polling_next (hacts : Acts s e s') (h : Polling s.processName ns s.known s.poll) :
    s'.processName = s.processName ∧
      Polling s.processName (ns ++ s.note e) s'.known s'.poll := by
  cases hacts with
  | idles hpoll hpoll' hname hknown _ hnote =>
    rw [hnote, List.append_nil, hknown]
    exact ⟨hname, .settled hpoll' (h.of_idle (.inl hpoll))⟩
  | misses hpoll hscan =>
    exact ⟨rfl, .settled (.inl rfl) (.missed hscan (h.of_idle (.inr hpoll)))⟩
  | @finds processes hpoll =>
    have hlogged := h.of_idle (.inr hpoll)
    have hfinds := finds_matching s.processName processes
    have hdiffers := differs_of_known s hlogged.finds.nodup hfinds.nodup
    rw [← List.nil_append (reportsOf _ _)] at hdiffers
    exact ⟨rfl, .reporting hlogged hfinds hdiffers rfl⟩
  | @reports r added removed added' removed' found q hpoll hnext hoffer =>
    rw [hpoll] at h
    obtain ⟨past, processes, rs, hlogged, hfinds, hdiffers, hns⟩ := h.of_reporting
    rw [note_reports hpoll hnext, hns, known_setQueue]
    rw [hnext, List.append_cons] at hdiffers
    exact ⟨processName_setQueue s _ _, .reporting hlogged hfinds hdiffers (by simp)⟩
  | @settles found hpoll =>
    rw [hpoll] at h
    obtain ⟨past, processes, rs, hlogged, hfinds, hdiffers, hns⟩ := h.of_reporting
    have hdiffers : Differs s.known found rs := by simpa [reportsOf] using hdiffers
    rw [note_settles hpoll, hns, List.append_nil]
    exact ⟨rfl, .settled (.inl rfl) (.found hfinds hdiffers hlogged)⟩
  | takes | leaves =>
    show _ ∧ Polling _ (ns ++ []) _ _
    rw [List.append_nil, known_setQueue, poll_setQueue]
    exact ⟨processName_setQueue s _ _, h⟩

theorem eq_of_new? (h : new? hook = some w) : 0 < hook.eventBuffer.toNat ∧
    w = { processName := hook.processName, interval := hook.scanInterval.toNat,
          events := ⟨{ capacity := hook.eventBuffer.toNat },
            { capacity := hook.eventBuffer.toNat }⟩ } := by
  obtain ⟨events, hevents, hw⟩ := Option.bind_eq_some_iff.mp h
  obtain ⟨q, hq, rfl⟩ := Option.map_eq_some_iff.mp hevents
  obtain ⟨hpos, rfl⟩ := Queue.eq_of_new? hq
  cases hw
  exact ⟨hpos, rfl⟩

/-- The room that the queues can have. -/
theorem isSome_new?_iff : (new? hook).isSome = true ↔
    0 < hook.eventBuffer.toNat ∧ hook.eventBuffer.toNat ≤ Queue.maxCapacity := by
  rw [← @Queue.isSome_new?_iff UInt32]
  cases hq : @Queue.new? UInt32 hook.eventBuffer.toNat <;> simp [new?, ProcessEvents.new?, hq]

theorem polling_of_run? (hnew : new? hook = some w) (hrun : run? State.act? w es = some s) :
    s.processName = hook.processName ∧ Polling hook.processName (notes w es) s.known s.poll := by
  refine run?_invariant (motive := fun es s => s.processName = hook.processName ∧
    Polling hook.processName (notes w es) s.known s.poll) ?_ ?_ hrun
  · obtain ⟨-, rfl⟩ := eq_of_new? hnew
    exact ⟨rfl, .settled (.inl rfl) .nil⟩
  · intro past s e s' hrun ⟨hname, hpolling⟩ he
    rw [← hname] at hpolling ⊢
    rw [notes, history_concat past e hrun]
    exact polling_next (acts_of_act? he) hpolling

/-- At any time the reports of one process alternate. -/
theorem Polling.alternates {poll : Poll} (h : Polling name ns known poll) (pid : UInt32) :
    Alternates (turns pid ns) := by
  cases h with
  | settled _ h => exact (h.turns_spec pid).1
  | @reporting past processes rs added removed found hlogged hfinds hdiffers hns =>
    -- The poll may still be going on: then the reports so far are the first ones of it.
    have hall := ((Logged.found hfinds hdiffers hlogged).turns_spec pid).1
    refine hall.of_isPrefix ?_
    rw [hns, List.map_append, turns_scanned, turns_scanned, turns_append, ← List.append_assoc]
    exact List.prefix_append _ _

/-! ## What reaches the listeners -/

/-- What was taken and what is queued are the first of the reports. They are all of them, as long as
somebody listens. -/
structure Delivered (ns : List Note) (q : Queue UInt32) (taken : List UInt32) (appeared : Bool) :
    Prop where
  isPrefix : taken ++ q.items <+: reported appeared ns
  complete : q.listening = true → taken ++ q.items = reported appeared ns

namespace Delivered

variable {q q' : Queue UInt32} {tk : List UInt32} {n : Note}

theorem reported_concat (ns : List Note) (n : Note) : reported appeared (ns ++ [n]) =
    reported appeared ns ++ (n.report? appeared).toList := by
  rw [reported, List.filterMap_append]
  cases hn : n.report? appeared <;> simp [reported, hn]

/-- Notes that are no such reports change nothing. -/
theorem silent (h : Delivered ns q tk appeared) (hn : n.report? appeared = none) :
    Delivered (ns ++ [n]) q tk appeared := by
  have hreported : reported appeared (ns ++ [n]) = reported appeared ns := by
    rw [reported_concat, hn]
    exact List.append_nil _
  constructor
  · rw [hreported]
    exact h.isPrefix
  · rw [hreported]
    exact h.complete

/-- A report is queued, unless nobody listens. -/
theorem offered (h : Delivered ns q tk appeared) (hn : n.report? appeared = some pid)
    (hoffer : q.offer pid = .accepted q' ∨ q.listening = false ∧ q' = q) :
    Delivered (ns ++ [n]) q' tk appeared := by
  have hreported : reported appeared (ns ++ [n]) = reported appeared ns ++ [pid] := by
    rw [reported_concat, hn]
    rfl
  rcases hoffer with hoffer | ⟨hdeaf, rfl⟩
  · obtain ⟨hlistening, rfl⟩ := Queue.eq_of_offer hoffer
    have hall : tk ++ (q.items ++ [pid]) = reported appeared (ns ++ [n]) := by
      rw [hreported, ← List.append_assoc, h.complete hlistening]
    exact ⟨⟨[], (List.append_nil _).trans hall⟩, fun _ => hall⟩
  · refine ⟨?_, fun hlistening => ?_⟩
    · rw [hreported]
      exact h.isPrefix.trans (List.prefix_append _ _)
    · rw [hdeaf] at hlistening
      cases hlistening

/-- The oldest report is taken. -/
theorem takes (h : Delivered ns q tk appeared) (htake : q.take? = some (pid, q')) :
    Delivered ns q' (tk ++ [pid]) appeared := by
  obtain ⟨hitems, hq'⟩ := Queue.eq_of_take? htake
  have hsame : tk ++ [pid] ++ q'.items = tk ++ q.items := by
    rw [hitems, List.append_assoc, List.singleton_append]
  have hlistening : q'.listening = q.listening := by rw [hq']
  constructor
  · rw [hsame]
    exact h.isPrefix
  · rw [hsame, hlistening]
    exact h.complete

theorem closed (h : Delivered ns q tk appeared) : Delivered ns q.close tk appeared where
  isPrefix := by
    have htaken : tk ++ q.close.items = tk := List.append_nil tk
    rw [htaken]
    exact (List.prefix_append tk q.items).trans h.isPrefix
  complete := nofun

end Delivered

/-- **What one event adds to what has reached the listeners.** -/
theorem delivered_next {tk : List UInt32} (hacts : Acts s e s')
    (h : Delivered ns (s.queue appeared) tk appeared) :
    Delivered (ns ++ s.note e) (s'.queue appeared) (tk ++ s.takenBy appeared e) appeared := by
  cases hacts with
  | idles _ _ _ _ hevents hnote htaken =>
    have hqueue : s'.queue appeared = s.queue appeared := by
      cases appeared <;> simp only [State.queue, hevents]
    rw [hnote, htaken, List.append_nil, List.append_nil, hqueue]
    exact h
  | @misses scan =>
    have hsilent := h.silent (n := .scanned scan) rfl
    show Delivered _ _ (tk ++ []) _
    rw [List.append_nil]
    cases appeared <;> exact hsilent
  | @finds processes =>
    have hsilent := h.silent (n := .scanned (.listed processes)) rfl
    show Delivered _ _ (tk ++ []) _
    rw [List.append_nil, queue_setPoll]
    exact hsilent
  | @reports r added removed added' removed' found q hpoll hnext hoffer =>
    show Delivered _ _ (tk ++ []) _
    rw [note_reports hpoll hnext, List.append_nil, queue_setPoll, queue_setQueue]
    split
    next hkind =>
      subst hkind
      exact h.offered (if_pos rfl) hoffer
    next hkind => exact h.silent (if_neg hkind)
  | settles hpoll =>
    show Delivered _ _ (tk ++ []) _
    rw [note_settles hpoll, List.append_nil, List.append_nil]
    cases appeared <;> exact h
  | @takes appeared' pid q htake =>
    show Delivered (ns ++ []) _ _ _
    rw [List.append_nil, queue_setQueue]
    by_cases hkind : appeared' = appeared
    · subst hkind
      simp only [State.takenBy, if_true, htake, Option.map_some, Option.toList_some]
      exact h.takes htake
    · simp only [State.takenBy, if_neg hkind, List.append_nil]
      exact h
  | leaves appeared' =>
    show Delivered (ns ++ []) _ (tk ++ []) _
    rw [List.append_nil, List.append_nil, queue_setQueue]
    split
    next hkind =>
      subst hkind
      exact h.closed
    next => exact h

theorem delivered_of_run? (hnew : new? hook = some w) (hrun : run? State.act? w es = some s)
    (appeared : Bool) :
    Delivered (notes w es) (s.queue appeared) (taken appeared w es) appeared := by
  refine run?_invariant (motive := fun es s =>
    Delivered (notes w es) (s.queue appeared) (taken appeared w es) appeared) ?_ ?_ hrun
  · obtain ⟨-, rfl⟩ := eq_of_new? hnew
    cases appeared <;> exact ⟨List.prefix_rfl, fun _ => rfl⟩
  · intro past s e s' hrun hdelivered he
    rw [notes, taken, history_concat past e hrun, history_concat past e hrun]
    exact delivered_next (acts_of_act? he) hdelivered

/-! ## No poll gets stuck -/

theorem capacity_next (hacts : Acts s e s') (appeared : Bool) :
    (s'.queue appeared).capacity = (s.queue appeared).capacity := by
  cases hacts with
  | idles _ _ _ _ hevents => cases appeared <;> simp only [State.queue, hevents]
  | misses | finds | settles => cases appeared <;> rfl
  | @reports r _ _ added' removed' found q _ _ hoffer =>
    rw [queue_setPoll, queue_setQueue]
    split
    next hkind =>
      subst hkind
      rcases hoffer with hoffer | ⟨-, rfl⟩
      · rw [(Queue.eq_of_offer hoffer).2]
      · rfl
    next => rfl
  | @takes appeared' pid q htake =>
    rw [queue_setQueue]
    split
    next hkind =>
      subst hkind
      rw [(Queue.eq_of_take? htake).2]
    next => rfl
  | leaves appeared' =>
    rw [queue_setQueue]
    split
    next hkind =>
      subst hkind
      rfl
    next => rfl

theorem capacity_pos (hnew : new? hook = some w) (hrun : run? State.act? w es = some s)
    (appeared : Bool) : 0 < (s.queue appeared).capacity := by
  refine run?_invariant (motive := fun _ s => 0 < (s.queue appeared).capacity) ?_ ?_ hrun
  · obtain ⟨hpos, rfl⟩ := eq_of_new? hnew
    cases appeared <;> exact hpos
  · intro past s e s' _ hcapacity he
    rw [capacity_next (acts_of_act? he)]
    exact hcapacity

theorem isSome_take?_of_full {q : Queue UInt32} (hcapacity : 0 < q.capacity)
    (hfull : q.offer pid = .full) : q.take?.isSome = true := by
  obtain ⟨-, hitems⟩ := Queue.full_of_offer hfull
  rw [Option.isSome_iff_ne_none, ne_eq, Queue.take?_eq_none_iff]
  rintro hnone
  rw [hnone, List.length_nil] at hitems
  omega

/-- **No poll gets stuck.** Its scan can end, and where a report has to wait there is one to be
taken. -/
theorem can_act_of_not_idle (hnew : new? hook = some w) (hrun : run? State.act? w es = some s)
    (hpoll : s.poll ≠ .idle) :
    (∀ scan, (s.act? (.scans scan)).isSome = true) ∨ (s.act? .reports).isSome = true ∨
      ∃ appeared, (s.act? (.takes appeared)).isSome = true := by
  have hcapacity := capacity_pos hnew hrun
  cases hp : s.poll with
  | idle => exact absurd hp hpoll
  | scanning =>
    refine .inl fun scan => ?_
    cases scan <;> simp [State.act?, State.step?, Scan.snapshot?, hp]
  | reporting added removed found =>
    have hact : s.act? .reports = s.report? := by simp [State.act?, State.step?, hp]
    rw [hact]
    refine .inr ?_
    match added, removed with
    | pid :: added, removed =>
      cases hoffer : s.events.added.offer pid with
      | accepted | refused => exact .inl (by simp [State.report?, hp, hoffer])
      | full =>
        refine .inr ⟨true, ?_⟩
        rw [State.act?, Option.isSome_map]
        exact isSome_take?_of_full (hcapacity true) hoffer
    | [], pid :: removed =>
      cases hoffer : s.events.removed.offer pid with
      | accepted | refused => exact .inl (by simp [State.report?, hp, hoffer])
      | full =>
        refine .inr ⟨false, ?_⟩
        rw [State.act?, Option.isSome_map]
        exact isSome_take?_of_full (hcapacity false) hoffer
    | [], [] => exact .inl (by simp [State.report?, hp])

/-! ## Any run -/

/-- **The reports follow the snapshots.** Between two polls the watched processes of the last
snapshot are known, and they are those that were reported last to have appeared. -/
theorem reports_follow_snapshots (hnew : new? hook = some w)
    (hrun : run? State.act? w es = some s) :
    (s.poll = .idle → Logged hook.processName (notes w es) s.known ∧
      Finds hook.processName (lastSnapshot (notes w es)) s.known ∧
      ∀ pid, pid ∈ s.known ↔ (turns pid (notes w es)).getLast? = some true) ∧
    (∀ pid, Alternates (turns pid (notes w es))) ∧
    ∀ appeared, Delivered (notes w es) (s.queue appeared) (taken appeared w es) appeared := by
  obtain ⟨-, hpolling⟩ := polling_of_run? hnew hrun
  refine ⟨?_, hpolling.alternates, delivered_of_run? hnew hrun⟩
  intro hpoll
  have hlogged := hpolling.of_idle (.inl hpoll)
  refine ⟨hlogged, hlogged.finds, fun pid => ?_⟩
  have hlast := (hlogged.turns_spec pid).2
  cases hturn : (turns pid (notes w es)).getLast? <;> simp_all

/-- A process goes and another one comes, a scan fails, and a listener goes away. -/
theorem reports_follow_snapshots_of_two :
    let hook : HookConfig := { processName := "Game", eventBuffer := 1 }
    let es : List Event :=
      [.begins, .scans (.listed [⟨1, "game.exe"⟩, ⟨2, "editor"⟩, ⟨3, "MyGame"⟩]), .reports,
        .takes true, .reports, .reports, .begins, .scans .failed, .serves 0, .scans .panicked,
        .stops, .leaves true, .begins,
        .scans (.listed [⟨1, "renamed"⟩, ⟨2, "endgame"⟩, ⟨3, "MyGame"⟩]), .reports, .reports,
        .reports]
    ∃ w s, new? hook = some w ∧ run? State.act? w es = some s ∧ s.poll = .idle ∧
      s.known = [2, 3] ∧ turns 1 (notes w es) = [true, false] ∧ taken true w es = [1] ∧
      (s.queue false).items = [1] ∧
      (Logged hook.processName (notes w es) s.known ∧
        Finds hook.processName (lastSnapshot (notes w es)) s.known ∧
        ∀ pid, pid ∈ s.known ↔ (turns pid (notes w es)).getLast? = some true) ∧
      (∀ pid, Alternates (turns pid (notes w es))) ∧
      ∀ appeared, Delivered (notes w es) (s.queue appeared) (taken appeared w es) appeared := by
  intro hook es
  have hevents : (new? hook).any (fun w =>
      turns 1 (notes w es) = [true, false] ∧ taken true w es = [1] ∧
        (run? State.act? w es).any (fun s =>
          s.poll = .idle ∧ s.known = [2, 3] ∧ (s.queue false).items = [1]) = true) = true := by
    decide +kernel
  obtain ⟨w, hnew, hw⟩ := (Option.any_eq_true _ _).mp hevents
  obtain ⟨hturns, htaken, hrun⟩ := of_decide_eq_true hw
  obtain ⟨s, hrun, hs⟩ := (Option.any_eq_true _ _).mp hrun
  obtain ⟨hidle, hknown, hwaiting⟩ := of_decide_eq_true hs
  obtain ⟨hlogged, hothers⟩ := reports_follow_snapshots hnew hrun
  exact ⟨w, s, hnew, hrun, hidle, hknown, hturns, htaken, hwaiting, hlogged hidle, hothers⟩

end Wiretap.Watcher
