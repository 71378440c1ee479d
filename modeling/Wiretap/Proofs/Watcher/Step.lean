import Wiretap.Watcher

/-!
# What the watcher can do

Each move of the watcher, with what it is made on and what it leaves behind.

Results:

* `steps_of_step?`: the moves that `Steps` lists are all that there are.
* `nodup_matching`: a snapshot has each process once.
-/

namespace Wiretap.Watcher

variable {s s' : State} {now : Nat} {cancelled : Bool}

/-- What a move does to the watcher. A report goes into its queue, unless nobody takes it. -/
inductive Steps (now : Nat) (cancelled : Bool) (s : State) : Move → State → Prop where
  | starts {t : Ticker} (hpoll : s.poll = .idle) :
      Steps now cancelled s .starts { s.beginPoll with service := .polling t }
  | fails {reason : String} (hpoll : s.poll = .idle) :
      Steps now cancelled s .starts (s.finish (.failed reason))
  | scans {snapshot : List ProcessEntry} (hpoll : s.poll = .scanning) :
      Steps now cancelled s (.scanned (some snapshot))
        { s with
          poll := .reporting (s.appeared (matching s.processName snapshot))
            (s.vanished (matching s.processName snapshot)) (matching s.processName snapshot) }
  | misses (hpoll : s.poll = .scanning) : Steps now cancelled s (.scanned none) s.endPoll
  | addition {pid : UInt32} {added removed snapshot : List UInt32} {q : Queue UInt32}
      (hpoll : s.poll = .reporting (pid :: added) removed snapshot)
      (hoffer : s.events.added.offer pid = .accepted q ∨
        s.events.added.listening = false ∧ q = s.events.added) :
      Steps now cancelled s .reports
        { s with events.added := q, poll := .reporting added removed snapshot }
  | removal {pid : UInt32} {removed snapshot : List UInt32} {q : Queue UInt32}
      (hpoll : s.poll = .reporting [] (pid :: removed) snapshot)
      (hoffer : s.events.removed.offer pid = .accepted q ∨
        s.events.removed.listening = false ∧ q = s.events.removed) :
      Steps now cancelled s .reports
        { s with events.removed := q, poll := .reporting [] removed snapshot }
  | settles {snapshot : List UInt32} (hpoll : s.poll = .reporting [] [] snapshot) :
      Steps now cancelled s .reports { s with known := snapshot }.endPoll
  | ticks {t : Ticker} (hpoll : s.poll = .idle) :
      Steps now cancelled s .ticks { s.beginPoll with service := .polling t }
  | stops (hcancelled : cancelled = true) : Steps now cancelled s .stops (s.finish .stopped)

theorem steps_of_report? (h : s.report? = some s') : Steps now cancelled s .reports s' := by
  unfold State.report? at h
  split at h
  next pid added removed snapshot hpoll =>
    simp only at h
    split at h <;> cases h
    next q hoffer => exact .addition hpoll (.inl hoffer)
    next hoffer => exact .addition hpoll (.inr ⟨Queue.not_listening_of_offer hoffer, rfl⟩)
  next pid removed snapshot hpoll =>
    simp only at h
    split at h <;> cases h
    next q hoffer => exact .removal hpoll (.inl hoffer)
    next hoffer => exact .removal hpoll (.inr ⟨Queue.not_listening_of_offer hoffer, rfl⟩)
  next snapshot hpoll =>
    cases h
    exact .settles hpoll
  next => cases h

theorem steps_of_step? {m : Move} (h : s.step? now cancelled m = some s') :
    Steps now cancelled s m s' := by
  unfold State.step? at h
  split at h
  next _ hpoll =>
    split at h <;> cases h
    next => exact .starts hpoll
    next => exact .fails hpoll
  next hpoll =>
    cases h
    exact .scans hpoll
  next hpoll =>
    cases h
    exact .misses hpoll
  next => exact steps_of_report? h
  next _ hpoll =>
    split at h <;> cases h
    exact .ticks hpoll
  next =>
    split at h <;> cases h
    next hcancelled => exact .stops hcancelled
  next =>
    split at h <;> cases h
    next hcancelled => exact .stops hcancelled
  next => cases h

theorem nodup_eraseDups (l : List UInt32) : l.eraseDups.Nodup := by
  induction hn : l.length using Nat.strongRecOn generalizing l with
  | _ n ih =>
    cases l with
    | nil => exact List.nodup_nil
    | cons pid l =>
      rw [List.eraseDups_cons, List.nodup_cons]
      refine ⟨by simp [List.mem_eraseDups], ih _ ?_ _ rfl⟩
      have hle := List.length_filter_le (fun pid' => !pid' == pid) l
      rw [List.length_cons] at hn
      omega

theorem nodup_matching (configured : String) (snapshot : List ProcessEntry) :
    (matching configured snapshot).Nodup := nodup_eraseDups _

end Wiretap.Watcher
