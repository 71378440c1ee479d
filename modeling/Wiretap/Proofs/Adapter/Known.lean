import Wiretap.Proofs.Adapter.Notes

/-!
# What the watcher knows

The watcher reports the difference between two snapshots one process at a time, and takes over the
new snapshot when it is done.

Results:

* `Tells.next`: each report brings what was reported closer to the new snapshot.
* `known_iff`: between two polls the known processes are those of which the last report says that
  they have appeared.
-/

namespace Wiretap.Adapter

/-- What was reported, and how far the watcher is with it. -/
inductive Tells (ns : List Note) (known : List UInt32) : Watcher.Poll → Prop where
  | settled {poll : Watcher.Poll} (hpoll : poll = .idle ∨ poll = .scanning) (hknown : known.Nodup)
      (htold : ∀ pid, lastReported pid ns = some .appeared ↔ pid ∈ known) : Tells ns known poll
  /-- What is still to be reported separates the reports from the snapshot. -/
  | telling {added removed snapshot : List UInt32} (hsnapshot : snapshot.Nodup)
      (hadded : added.Nodup) (hadded' : ∀ pid ∈ added, pid ∈ snapshot) (hremoved : removed.Nodup)
      (hremoved' : ∀ pid ∈ removed, pid ∉ snapshot)
      (htold : ∀ pid, lastReported pid ns = some .appeared ↔
        pid ∈ snapshot ∧ pid ∉ added ∨ pid ∈ removed) :
      Tells ns known (.reporting added removed snapshot)

namespace Tells

variable {ns : List Note} {w w' : Watcher.State} {now : Nat} {m : Watcher.Move}

/-- Between two polls the reports are those of the known processes. -/
theorem of_idle {known : List UInt32} {poll : Watcher.Poll} (h : Tells ns known poll)
    (hpoll : poll = .idle ∨ poll = .scanning) :
    known.Nodup ∧ ∀ pid, lastReported pid ns = some .appeared ↔ pid ∈ known := by
  cases h with
  | settled _ hknown htold => exact ⟨hknown, htold⟩
  | telling => rcases hpoll with hpoll | hpoll <;> cases hpoll

/-- A process that has appeared is reported. -/
theorem addition {known added removed snapshot : List UInt32} {pid : UInt32}
    (h : Tells ns known (.reporting (pid :: added) removed snapshot)) :
    Tells (ns ++ [.reported .appeared pid]) known (.reporting added removed snapshot) := by
  cases h with
  | settled hpoll => rcases hpoll with hpoll | hpoll <;> cases hpoll
  | telling hsnapshot hadded hadded' hremoved hremoved' htold =>
    obtain ⟨hpid, hnodup⟩ := List.nodup_cons.mp hadded
    refine .telling hsnapshot hnodup (fun p hp => hadded' p (List.mem_cons_of_mem pid hp)) hremoved
      hremoved' fun p => ?_
    rw [lastReported_reported]
    by_cases hp : pid = p
    · subst hp
      simp [hpid, hadded' pid List.mem_cons_self]
    · rw [if_neg hp, htold p, List.mem_cons]
      simp [Ne.symm hp]

/-- A process that has gone is reported. -/
theorem removal {known removed snapshot : List UInt32} {pid : UInt32}
    (h : Tells ns known (.reporting [] (pid :: removed) snapshot)) :
    Tells (ns ++ [.reported .vanished pid]) known (.reporting [] removed snapshot) := by
  cases h with
  | settled hpoll => rcases hpoll with hpoll | hpoll <;> cases hpoll
  | telling hsnapshot hadded hadded' hremoved hremoved' htold =>
    obtain ⟨hpid, hnodup⟩ := List.nodup_cons.mp hremoved
    refine .telling hsnapshot hadded hadded' hnodup
      (fun p hp => hremoved' p (List.mem_cons_of_mem pid hp)) fun p => ?_
    rw [lastReported_reported]
    by_cases hp : pid = p
    · subst hp
      simp [hpid, hremoved' pid List.mem_cons_self]
    · rw [if_neg hp, htold p, List.mem_cons]
      simp [Ne.symm hp]

/-- **One step of the watcher.** A watcher that is not cancelled gives up no poll. -/
theorem next (h : Tells ns w.known w.poll) (hsteps : Watcher.Steps now false w m w') :
    Tells (ns ++ watcherNote w m) w'.known w'.poll := by
  cases hsteps with
  | starts hpoll =>
    obtain ⟨hknown, htold⟩ := h.of_idle (.inl hpoll)
    show Tells (ns ++ []) _ _
    rw [List.append_nil]
    exact .settled (.inr rfl) hknown htold
  | fails hpoll =>
    obtain ⟨hknown, htold⟩ := h.of_idle (.inl hpoll)
    show Tells (ns ++ []) _ _
    rw [List.append_nil]
    exact .settled (.inl rfl) hknown htold
  | @scans snapshot hpoll =>
    obtain ⟨hknown, htold⟩ := h.of_idle (.inr hpoll)
    have hsnapshot := Watcher.nodup_matching w.processName snapshot
    show Tells (ns ++ []) _ _
    rw [List.append_nil]
    refine .telling hsnapshot (hsnapshot.filter _) ?_ (hknown.filter _) ?_ fun pid => ?_
    · intro pid hpid
      exact (Watcher.State.mem_appeared_iff.mp hpid).1
    · intro pid hpid
      exact (Watcher.State.mem_vanished_iff.mp hpid).2
    · rw [htold, Watcher.State.mem_appeared_iff, Watcher.State.mem_vanished_iff]
      by_cases hpid : pid ∈ Watcher.matching w.processName snapshot <;> simp [hpid]
  | misses hpoll =>
    obtain ⟨hknown, htold⟩ := h.of_idle (.inr hpoll)
    show Tells (ns ++ []) _ _
    rw [List.append_nil]
    exact .settled (.inl rfl) hknown htold
  | addition hpoll =>
    rw [hpoll] at h
    rw [watcherNote, hpoll]
    exact h.addition
  | removal hpoll =>
    rw [hpoll] at h
    rw [watcherNote, hpoll]
    exact h.removal
  | @settles snapshot hpoll =>
    rw [hpoll] at h
    rw [watcherNote, hpoll, List.append_nil]
    cases h with
    | settled hpoll => rcases hpoll with hpoll | hpoll <;> cases hpoll
    | telling hsnapshot _ _ _ _ htold =>
      refine .settled (.inl rfl) hsnapshot fun pid => ?_
      rw [htold pid]
      simp [Watcher.State.endPoll]
  | ticks hpoll =>
    obtain ⟨hknown, htold⟩ := h.of_idle (.inl hpoll)
    show Tells (ns ++ []) _ _
    rw [List.append_nil]
    exact .settled (.inr rfl) hknown htold
  | stops hcancelled => cases hcancelled

/-- Notes that are no reports change nothing. -/
theorem silent {known : List UInt32} {poll : Watcher.Poll} (h : Tells ns known poll)
    (ns' : List Note) (hsilent : ∀ n ∈ ns', ∀ c pid, n ≠ .reported c pid) :
    Tells (ns ++ ns') known poll := by
  have hlast : ∀ pid, lastReported pid (ns ++ ns') = lastReported pid ns := by
    intro pid
    clear h
    induction ns' generalizing ns with
    | nil => rw [List.append_nil]
    | cons n ns' ih =>
      rw [List.append_cons, ih fun n' hn' => hsilent n' (List.mem_cons_of_mem n hn'),
        lastReported_other (hsilent n List.mem_cons_self)]
  cases h with
  | settled hpoll hknown htold =>
    exact .settled hpoll hknown fun pid => by rw [hlast, htold]
  | telling hsnapshot hadded hadded' hremoved hremoved' htold =>
    exact .telling hsnapshot hadded hadded' hremoved hremoved' fun pid => by rw [hlast, htold]

end Tells

variable {s₀ s s' : State} {t : List Event}

theorem tells_next {ns : List Note} {e : Event} (hacts : Acts s e s') (hcalm : s.cancelled = false)
    (h : Tells ns s.watcher.known s.watcher.poll) :
    Tells (ns ++ s.note e) s'.watcher.known s'.watcher.poll := by
  cases hacts with
  | @watcher now _ m w hlife hsteps =>
    rw [hcalm] at hsteps
    have h' : Tells ns ({ s.watcher with events := s.manager.events } : Watcher.State).known _ := h
    have hnext := h'.next hsteps
    rw [watcher_setWatcher]
    exact hnext
  | manager =>
    rw [watcher_setManager]
    exact h.silent _ fun n hn => not_reported_of_managerNote hn
  | announced he => rcases he with rfl | rfl | rfl | rfl <;> exact h.silent [] nofun
  | _ => exact h.silent [] nofun

/-- The reports of a watcher that is not cancelled, at any time. -/
theorem tells_of_run? {config : Config} (hstart : start? config = some s₀)
    (hrun : run? State.act? s₀ t = some s) (hcalm : s.cancelled = false) :
    Tells (notes s₀ t) s.watcher.known s.watcher.poll := by
  refine run?_invariant (motive := fun t s => s.cancelled = false →
    Tells (notes s₀ t) s.watcher.known s.watcher.poll) ?_ ?_ hrun hcalm
  · intro _
    have hinitial := initial_of_start? hstart
    rw [hinitial.known_eq, hinitial.poll_eq]
    exact .settled (.inl rfl) List.nodup_nil fun pid => by
      simp [notes, history, lastReported, latest]
  · intro past s e s' hrun htells he hcalm
    have hacts := acts_of_act? he
    have hcalm := hacts.cancelled_eq hcalm
    rw [notes_concat e hrun]
    exact tells_next hacts hcalm (htells hcalm)

/-- Between two polls the known processes are those of which the last report says that they have
appeared. -/
theorem known_iff {config : Config} (hstart : start? config = some s₀)
    (hrun : run? State.act? s₀ t = some s) (hcalm : s.cancelled = false)
    (hpoll : s.watcher.poll = .idle) (pid : UInt32) :
    pid ∈ s.watcher.known ↔ lastReported pid (notes s₀ t) = some .appeared :=
  (((tells_of_run? hstart hrun hcalm).of_idle (.inl hpoll)).2 pid).symm

end Wiretap.Adapter
