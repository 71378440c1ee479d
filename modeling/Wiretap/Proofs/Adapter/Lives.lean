import Wiretap.Proofs.Adapter.Event

/-!
# The life of the manager

A run of the manager's service that has failed is followed by a rest, and by another run after that.
Between two runs, and after the last one, the service is at rest too.

Results:

* `Lives.next`: the manager is at work only where its supervisor says that it runs.
-/

namespace Wiretap.Adapter

variable {s s' : State}

/-- The manager is at work only where its supervisor says that it runs. -/
def Lives (s : State) : Prop :=
  s.manager.isRunning = true → ∃ failures, s.managerLife = .running failures

theorem Initial.lives_holds (h : Initial s) : Lives s := by
  intro hrunning
  rcases h.lives with ⟨-, hlife, -⟩ | ⟨-, -, -, hservice⟩
  · exact ⟨0, hlife⟩
  · rw [Manager.State.isRunning, hservice] at hrunning
    cases hrunning

theorem Life.awake?_cases {now : Nat} {cancelled : Bool} {life life' : Life}
    (h : life.awake? now cancelled = some life') :
    ∃ failures due, life = .resting failures due ∧
      (life' = .finished ∧ cancelled = true ∨ life' = .running failures ∧ cancelled = false) := by
  unfold Life.awake? at h
  split at h
  next failures due =>
    split at h
    next hcancelled =>
      cases h
      exact ⟨failures, due, rfl, .inl ⟨rfl, hcancelled⟩⟩
    next hcancelled =>
      split at h <;> cases h
      exact ⟨failures, due, rfl, .inr ⟨rfl, by simpa using hcancelled⟩⟩
  next => cases h

theorem setManagerLife_service (s : State) (life : Life) :
    (s.setManagerLife life).manager.service = s.manager.service := by
  unfold State.setManagerLife
  simp only
  split <;> rfl

/-- A manager that is not over stays as it is. -/
theorem setManagerLife_of_not_over (s : State) {life : Life} (h : life.isOver = false) :
    s.setManagerLife life = { s with managerLife := life } := by
  rw [State.setManagerLife, h]
  rfl

namespace Lives

variable {now : Nat} {manager : Manager.State} {m : Manager.Move}

theorem congr (h : Lives s) (hlife : s'.managerLife = s.managerLife)
    (hservice : s'.manager.service = s.manager.service) : Lives s' := by
  intro hrunning
  rw [Manager.State.isRunning_congr hservice] at hrunning
  rw [hlife]
  exact h hrunning

theorem not_running (h : Lives s) (hlife : ∀ failures, s.managerLife ≠ .running failures) :
    s.manager.isRunning = false := by
  cases hrunning : s.manager.isRunning with
  | false => rfl
  | true =>
    obtain ⟨failures, hlife'⟩ := h hrunning
    exact absurd hlife' (hlife failures)

theorem setManager (h : Lives s) (hsteps : Manager.Steps now s.cancelled s.manager m manager) :
    Lives (s.setManager now manager) := by
  intro hrunning
  obtain ⟨hset, -⟩ | ⟨failures, e, he, -, hset⟩ := setManager_cases s now manager
  · rw [hset] at hrunning ⊢
    refine h ?_
    cases hover : s.manager.isRunning with
    | true => rfl
    | false =>
      have hrunning : manager.isRunning = true := hrunning
      rw [Manager.State.isRunning_congr (hsteps.service_eq hover), hover] at hrunning
      exact hrunning
  · rw [hset, Manager.State.isRunning, setManagerLife_service, he] at hrunning
    cases hrunning

theorem next {e : Event} (h : Lives s) (hacts : Acts s e s') : Lives s' := by
  cases hacts with
  | @watcher now failures m w =>
    obtain ⟨life, events, hset, -⟩ := setWatcher_eq s now w
    rw [hset]
    exact h.congr rfl rfl
  | manager hstep => exact h.setManager (Manager.steps_of_step? hstep)
  | @watcherAwakes now life =>
    obtain ⟨events, hset, -⟩ := setWatcherLife_eq { s with watcher := s.watcher.restart } life
    rw [hset]
    exact h.congr rfl rfl
  | @managerAwakes now life hlife =>
    obtain ⟨failures, due, hrest, ⟨rfl, -⟩ | ⟨rfl, -⟩⟩ := Life.awake?_cases hlife
    · intro hrunning
      have hover := h.not_running (by simp [hrest])
      exact absurd (hover.symm.trans hrunning) Bool.false_ne_true
    · exact fun _ => ⟨failures, rfl⟩
  | gathers =>
    obtain ⟨sessions, hstop, -⟩ := Manager.stopSessions_cases s.manager
    rw [hstop]
    exact h.congr rfl rfl
  | _ => exact h.congr rfl rfl

end Lives

theorem lives_of_run? {config : Config} {s₀ : State} {t : List Event}
    (hstart : start? config = some s₀) (hrun : run? State.act? s₀ t = some s) : Lives s :=
  run?_invariant (motive := fun _ s => Lives s) (initial_of_start? hstart).lives_holds
    (fun _ hinv he => hinv.next (acts_of_act? he)) hrun

end Wiretap.Adapter
