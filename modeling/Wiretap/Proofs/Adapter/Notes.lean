import Wiretap.Proofs.Adapter.Event

/-!
# Notes on the run of an adapter

A chronicler writes down which changes the watcher reports, which of them the manager takes, and
which processes it could not bring up a session for.

Results:

* `latest_concat`: the latest answer is that of the last item that has one.
* `latest_changeOf_eq_none_iff`: a process has a last change where it has any.
* `lastReported_reported`, `lastTaken_took`, `hasFailed_appeared`, `hasFailed_failed`: what one more
  note changes.
-/

namespace Wiretap.Adapter

/-- What can become of a process. -/
inductive Change where
  | appeared
  | vanished
  deriving DecidableEq, Repr

inductive Note where
  /-- The watcher reports a change of that process. -/
  | reported (c : Change) (pid : UInt32)
  /-- The manager takes such a report. -/
  | took (c : Change) (pid : UInt32)
  /-- The manager has tried to bring up a session for that process, and has none. -/
  | failed (pid : UInt32)
  deriving DecidableEq, Repr

/-- What is written down of a move of the watcher. -/
def watcherNote (w : Watcher.State) : Watcher.Move → List Note
  | .reports =>
    match w.poll with
    | .reporting (pid :: _) _ _ => [.reported .appeared pid]
    | .reporting [] (pid :: _) _ => [.reported .vanished pid]
    | _ => []
  | _ => []

/-- What is written down of a move of the manager. -/
def managerNote (now : Nat) (s : Manager.State) : Manager.Move → List Note
  | .takesAdded => (s.events.added.take?.map fun (pid, _) => Note.took .appeared pid).toList
  | .takesRemoved => (s.events.removed.take?.map fun (pid, _) => Note.took .vanished pid).toList
  | .builds m =>
    match s.service with
    | .building job => if (job.step? now m).any s.fails then [.failed job.pid] else []
    | _ => []
  | _ => []

/-- What is written down of an event. -/
def State.note (s : State) : Event → List Note
  | .move _ (.watcher m) => watcherNote s.watcher m
  | .move now (.manager m) => managerNote now s.manager m
  | _ => []

/-- What is written down in the course of a run. -/
def notes (s : State) (t : List Event) : List Note := history State.act? State.note s t

theorem notes_concat {s₀ s : State} {t : List Event} (e : Event)
    (h : run? State.act? s₀ t = some s) : notes s₀ (t ++ [e]) = notes s₀ t ++ s.note e :=
  history_concat t e h

/-- The watcher reports, and the manager takes reports or fails. -/
theorem not_reported_of_managerNote {now : Nat} {s : Manager.State} {m : Manager.Move} {n : Note}
    (h : n ∈ managerNote now s m) (c : Change) (pid : UInt32) : n ≠ .reported c pid := by
  rintro rfl
  unfold managerNote at h
  split at h
  next => simp at h
  next => simp at h
  next =>
    split at h
    next => split at h <;> simp at h
    next => cases h
  next => cases h

/-! ## Reading the notes -/

/-- The changes that are reported. -/
def reports (ns : List Note) : List (Change × UInt32) :=
  ns.filterMap fun
    | .reported c pid => some (c, pid)
    | _ => none

/-- The changes of which the manager takes the reports. -/
def takings (ns : List Note) : List (Change × UInt32) :=
  ns.filterMap fun
    | .took c pid => some (c, pid)
    | _ => none

/-- The process, if this is what becomes of it. -/
def processIf (c : Change) : Change × UInt32 → Option UInt32
  | (c', pid) => if c' = c then some pid else none

/-- What becomes of a process, if it is this one. -/
def changeOf (pid : UInt32) : Change × UInt32 → Option Change
  | (c, pid') => if pid' = pid then some c else none

/-- Whether the attempt to bring up a session for this process has failed. An attempt begins when
the process is taken to have appeared. -/
def failureOf (pid : UInt32) : Note → Option Bool
  | .took .appeared pid' => if pid' = pid then some false else none
  | .failed pid' => if pid' = pid then some true else none
  | _ => none

/-- The last answer that a list gives to a question. -/
def latest {α β : Type} (ask : α → Option β) (l : List α) : Option β := (l.filterMap ask).getLast?

/-- The processes of which this is reported. -/
def reported (c : Change) (ns : List Note) : List UInt32 := (reports ns).filterMap (processIf c)

/-- The processes of which the manager takes such a report. -/
def taken (c : Change) (ns : List Note) : List UInt32 := (takings ns).filterMap (processIf c)

/-- The last change of this process that was reported. -/
def lastReported (pid : UInt32) (ns : List Note) : Option Change :=
  latest (changeOf pid) (reports ns)

/-- The last change of this process of which the manager took the report. -/
def lastTaken (pid : UInt32) (ns : List Note) : Option Change := latest (changeOf pid) (takings ns)

/-- The last attempt to bring up a session for this process has failed. -/
def hasFailed (pid : UInt32) (ns : List Note) : Bool := latest (failureOf pid) ns = some true

theorem latest_concat {α β : Type} (ask : α → Option β) (l : List α) (a : α) :
    latest ask (l ++ [a]) = (ask a).or (latest ask l) := by
  unfold latest
  rw [List.filterMap_append, List.getLast?_append]
  cases hask : ask a <;> simp [hask]

/-- No change of a process is the last one exactly where it is in no list of processes. -/
theorem latest_changeOf_eq_none_iff (pid : UInt32) (cs : List (Change × UInt32)) :
    latest (changeOf pid) cs = none ↔ ∀ c, pid ∉ cs.filterMap (processIf c) := by
  simp only [latest, List.getLast?_eq_none_iff, List.filterMap_eq_nil_iff, List.mem_filterMap,
    not_exists, not_and]
  constructor
  · rintro hnone c ⟨c', pid'⟩ hmem hprocess
    have hchange := hnone (c', pid') hmem
    by_cases hpid : pid' = pid
    · simp [changeOf, hpid] at hchange
    · by_cases hc : c' = c <;> simp [processIf, hc, hpid] at hprocess
  · rintro hall ⟨c, pid'⟩ hmem
    refine if_neg ?_
    rintro rfl
    exact hall c (c, pid') hmem (if_pos rfl)

variable {c : Change} {pid pid' : UInt32} {ns : List Note}

/-! ## One more note -/

@[simp] theorem reports_nil : reports [] = [] := rfl

@[simp] theorem takings_nil : takings [] = [] := rfl

@[simp] theorem reports_reported : reports [.reported c pid] = [(c, pid)] := rfl

@[simp] theorem takings_took : takings [.took c pid] = [(c, pid)] := rfl

@[simp] theorem processIf_mk (c' : Change) :
    processIf c (c', pid) = if c' = c then some pid else none := rfl

theorem reports_append (ns' : List Note) : reports (ns ++ ns') = reports ns ++ reports ns' :=
  List.filterMap_append

theorem takings_append (ns' : List Note) : takings (ns ++ ns') = takings ns ++ takings ns' :=
  List.filterMap_append

@[simp] theorem reported_append (ns' : List Note) :
    reported c (ns ++ ns') = reported c ns ++ reported c ns' := by
  rw [reported, reports_append, List.filterMap_append]
  rfl

@[simp] theorem taken_append (ns' : List Note) :
    taken c (ns ++ ns') = taken c ns ++ taken c ns' := by
  rw [taken, takings_append, List.filterMap_append]
  rfl

theorem reports_other {n : Note} (h : ∀ c pid, n ≠ .reported c pid) :
    reports (ns ++ [n]) = reports ns := by
  rw [reports_append]
  cases n with
  | reported c pid => exact absurd rfl (h c pid)
  | _ => exact List.append_nil _

theorem takings_other {n : Note} (h : ∀ c pid, n ≠ .took c pid) :
    takings (ns ++ [n]) = takings ns := by
  rw [takings_append]
  cases n with
  | took c pid => exact absurd rfl (h c pid)
  | _ => exact List.append_nil _

theorem latest_changeOf_concat (cs : List (Change × UInt32)) :
    latest (changeOf pid) (cs ++ [(c, pid')]) =
      if pid' = pid then some c else latest (changeOf pid) cs := by
  rw [latest_concat, changeOf]
  by_cases h : pid' = pid <;> simp [h]

theorem lastReported_reported :
    lastReported pid (ns ++ [.reported c pid']) =
      if pid' = pid then some c else lastReported pid ns := by
  rw [lastReported, reports_append]
  exact latest_changeOf_concat (reports ns)

theorem lastReported_other {n : Note} (h : ∀ c pid, n ≠ .reported c pid) :
    lastReported pid (ns ++ [n]) = lastReported pid ns := by
  rw [lastReported, reports_other h, lastReported]

theorem lastTaken_took :
    lastTaken pid (ns ++ [.took c pid']) = if pid' = pid then some c else lastTaken pid ns := by
  rw [lastTaken, takings_append]
  exact latest_changeOf_concat (takings ns)

theorem lastTaken_other {n : Note} (h : ∀ c pid, n ≠ .took c pid) :
    lastTaken pid (ns ++ [n]) = lastTaken pid ns := by
  rw [lastTaken, takings_other h, lastTaken]

theorem hasFailed_appeared :
    hasFailed pid (ns ++ [.took .appeared pid']) =
      if pid' = pid then false else hasFailed pid ns := by
  rw [hasFailed, latest_concat, failureOf]
  by_cases h : pid' = pid <;> simp [h, hasFailed]

theorem hasFailed_failed :
    hasFailed pid (ns ++ [.failed pid']) = if pid' = pid then true else hasFailed pid ns := by
  rw [hasFailed, latest_concat, failureOf]
  by_cases h : pid' = pid <;> simp [h, hasFailed]

theorem hasFailed_other {n : Note} (happeared : ∀ pid, n ≠ .took .appeared pid)
    (hfailed : ∀ pid, n ≠ .failed pid) : hasFailed pid (ns ++ [n]) = hasFailed pid ns := by
  rw [hasFailed, latest_concat]
  cases n with
  | reported c pid' => rfl
  | took c pid' =>
    cases c with
    | appeared => exact absurd rfl (happeared pid')
    | vanished => rfl
  | failed pid' => exact absurd rfl (hfailed pid')

theorem hasFailed_vanished :
    hasFailed pid (ns ++ [.took .vanished pid']) = hasFailed pid ns := hasFailed_other nofun nofun

theorem lastTaken_failed : lastTaken pid (ns ++ [.failed pid']) = lastTaken pid ns :=
  lastTaken_other nofun

end Wiretap.Adapter
