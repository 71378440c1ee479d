import Wiretap.Proofs.Adapter.Lives
import Wiretap.Proofs.Manager.Sessions

/-!
# Who waits for the sessions

The supervisor of the sessions waits for those in the roster, and the manager for the one that it
removes, of which the roster knows nothing any more. A manager that is told to stop in the middle of
that leaves its session to itself, and so does a supervisor to which a session is added late. All
other sessions have ended by the time the adapter has stopped.

Results:

* `Tended.next`: a session that is not over is waited for, or has escaped.
* `stopped_iff`: what is left of an adapter that has stopped.
* `not_over_of_stopped`: a session that outlives its adapter.
-/

namespace Wiretap.Adapter

/-- Somebody waits for that session, or will. -/
inductive Waits (s : State) (i : Nat) : Prop where
  | roster (hwaiting : s.sessions = .waiting) (hmem : i ∈ s.manager.roster.services)
  | supervisor {awaited : List Nat} (hstopping : s.sessions = .stopping awaited)
      (hmem : i ∈ awaited)
  | manager {pid : UInt32} (hremoving : s.manager.service = .removing pid i)

/-- The session that the manager was waiting for when it was told to stop. -/
def abandoned (s : Manager.State) : Manager.Move → List Nat
  | .stops =>
    match s.service with
    | .removing _ i => [i]
    | _ => []
  | _ => []

/-- The session that is started although the supervisor has gathered those it waits for. -/
def belated (s : State) (now : Nat) (m : Manager.Move) : List Nat :=
  if s.sessions = .waiting then [] else
    match s.manager.step? now s.cancelled m with
    | some m' =>
      if s.manager.sessions.length < m'.sessions.length then [s.manager.sessions.length] else []
    | none => []

/-- The sessions that nobody waits for after an event. -/
def State.escapes (s : State) : Event → List Nat
  | .move now (.manager m) => abandoned s.manager m ++ belated s now m
  | _ => []

/-- The sessions that have escaped in the course of a run. -/
def escaped (s : State) (t : List Event) : List Nat := history State.act? State.escapes s t

/-- A session that is not over is waited for, or has escaped. -/
structure Tended (out : List Nat) (s : State) : Prop where
  kept : Manager.Kept s.manager
  waits : ∀ i, s.manager.isSessionOver i = true ∨ i ∈ out ∨ Waits s i

variable {s₀ s s' : State} {t : List Event} {out : List Nat} {now : Nat}

namespace Tended

theorem mono (h : Tended out s) (out' : List Nat) : Tended (out ++ out') s where
  kept := h.kept
  waits i := (h.waits i).imp_right (Or.imp_left (List.mem_append_left out'))

/-- Nothing changes for the sessions. -/
theorem congr (h : Tended out s) (hsessions : s'.manager.sessions = s.manager.sessions)
    (hroster : s'.manager.roster = s.manager.roster)
    (hservice : ∀ pid i, s.manager.service = .removing pid i → s'.manager.service = .removing pid i)
    (hstands : s'.sessions = s.sessions) : Tended out s' where
  kept := h.kept.congr hroster hsessions
  waits i := by
    rw [Manager.isSessionOver_congr hsessions]
    refine (h.waits i).imp_right (Or.imp_right fun hwaits => ?_)
    cases hwaits with
    | roster hwaiting hmem => exact .roster (hstands.trans hwaiting) (by rw [hroster]; exact hmem)
    | supervisor hstopping hmem => exact .supervisor (hstands.trans hstopping) hmem
    | manager hremoving => exact .manager (hservice _ _ hremoving)

theorem setManagerLife (h : Tended out s) (life : Life) : Tended out (s.setManagerLife life) := by
  unfold State.setManagerLife
  split
  next => exact h.congr rfl rfl (fun _ _ => id) rfl
  next => exact h.congr rfl rfl (fun _ _ => id) rfl

theorem steps (h : Tended out s) {m : Manager.Move} {manager : Manager.State}
    (hstep : s.manager.step? now s.cancelled m = some manager) :
    Tended (out ++ s.escapes (.move now (.manager m))) { s with manager } := by
  have hsteps := Manager.steps_of_step? hstep
  refine ⟨h.kept.steps hsteps, ?_⟩
  intro i
  rcases h.waits i with hover | hout | hwaits
  -- a number that no session has yet counts as over, until a session is started under it
  · rcases Manager.isSessionOver_of_steps hsteps hover with hover' | hstarts
    · exact .inl hover'
    · refine .inr ?_
      by_cases hwaiting : s.sessions = .waiting
      · exact .inr (.roster hwaiting hstarts.held)
      · refine .inl (List.mem_append_right out (List.mem_append_right _ ?_))
        rw [belated, if_neg hwaiting, hstep]
        simp only
        rw [if_pos hstarts.more, hstarts.index]
        exact List.mem_singleton.mpr rfl
  · exact .inr (.inl (List.mem_append_left _ hout))
  · cases hwaits with
    | roster hwaiting hmem =>
      have hheld := Manager.mem_roster_of_steps hsteps h.kept.roster hmem
      rcases hheld with hover | hmem' | ⟨pid, hremoving⟩
      · exact .inl hover
      · exact .inr (.inr (.roster hwaiting hmem'))
      · exact .inr (.inr (.manager hremoving))
    | supervisor hstopping hmem => exact .inr (.inr (.supervisor hstopping hmem))
    | manager hremoving =>
      rcases Manager.removing_of_steps hsteps hremoving with hover | hremoving' | rfl
      · exact .inl hover
      · exact .inr (.inr (.manager hremoving'))
      · refine .inr (.inl (List.mem_append_right out (List.mem_append_left _ ?_)))
        simp [abandoned, hremoving]

theorem setManager {manager : Manager.State} (h : Tended out { s with manager }) :
    Tended out (s.setManager now manager) := by
  obtain ⟨hset, -⟩ | ⟨failures, e, -, -, hset⟩ := setManager_cases s now manager
  · rw [hset]
    exact h
  · rw [hset]
    exact h.setManagerLife _

/-- The supervisor of the sessions takes over all that are in the roster. -/
theorem gathers (h : Tended out s) (hwaiting : s.sessions = .waiting) :
    Tended out { s with
      manager := s.manager.stopSessions.1
      sessions := .stopping (s.manager.roster.members.map (·.2)) } := by
  refine ⟨h.kept.stopSessions, ?_⟩
  intro i
  rw [Manager.isSessionOver_stopSessions]
  refine (h.waits i).imp_right (Or.imp_right fun hwaits => ?_)
  cases hwaits with
  | roster _ hmem => exact .supervisor rfl hmem
  | supervisor hstopping =>
    rw [hwaiting] at hstopping
    cases hstopping
  | @manager pid hremoving =>
    obtain ⟨sessions, hstop, -⟩ := Manager.stopSessions_cases s.manager
    have hremoving' : s.manager.stopSessions.1.service = .removing pid i := by
      rw [hstop]
      exact hremoving
    exact .manager hremoving'

theorem releases (h : Tended out s) {awaited : List Nat}
    (hstopping : s.sessions = .stopping awaited)
    (hover : ∀ i ∈ awaited, s.manager.isSessionOver i = true) :
    Tended out { s with sessions := .finished } := by
  refine ⟨h.kept, ?_⟩
  intro i
  rcases h.waits i with hdone | hout | hwaits
  · exact .inl hdone
  · exact .inr (.inl hout)
  · cases hwaits with
    | roster hwaiting =>
      rw [hwaiting] at hstopping
      cases hstopping
    | supervisor hstopping' hmem =>
      rw [hstopping] at hstopping'
      cases hstopping'
      exact .inl (hover i hmem)
    | manager hremoving => exact .inr (.inr (.manager hremoving))

theorem client (h : Tended out s) {i : Nat} {c : Session.ClientEvent} {x x' : Session.State}
    (hx : s.manager.sessions[i]? = some x) (hserve : x.serve? c = some x') :
    Tended out { s with manager := s.manager.setSession i x' } := by
  have hact : x.act? (.client c) = some x' := hserve
  refine ⟨h.kept.setSession ((h.kept.sessions i x hx).serve hserve), ?_⟩
  intro j
  rcases h.waits j with hover | hout | hwaits
  · exact .inl (Manager.isSessionOver_setSession hx (Session.isOver_of_act? hact) hover)
  · exact .inr (.inl hout)
  · cases hwaits with
    | roster hwaiting hmem =>
      rcases Manager.mem_roster_setSession hx hmem with hover | hmem'
      · exact .inl hover
      · exact .inr (.inr (.roster hwaiting hmem'))
    | supervisor hstopping hmem => exact .inr (.inr (.supervisor hstopping hmem))
    | manager hremoving => exact .inr (.inr (.manager hremoving))

/-- **One event.** Nobody loses sight of a session, unless it is written down. -/
theorem next {e : Event} (h : Tended out s) (hlives : Lives s) (hacts : Acts s e s') :
    Tended (out ++ s.escapes e) s' := by
  cases hacts with
  | @watcher now failures m w =>
    obtain ⟨life, events, hset, -⟩ := setWatcher_eq s now w
    rw [hset]
    exact (h.mono []).congr rfl rfl (fun _ _ => id) rfl
  | manager hstep => exact (h.steps hstep).setManager
  | @watcherAwakes now life =>
    obtain ⟨events, hset, -⟩ := setWatcherLife_eq { s with watcher := s.watcher.restart } life
    rw [hset]
    exact (h.mono []).congr rfl rfl (fun _ _ => id) rfl
  | @managerAwakes now life hlife =>
    obtain ⟨failures, due, hrest, -⟩ := Life.awake?_cases hlife
    have hidle := hlives.not_running (by simp [hrest])
    have hnone : ∀ pid i, s.manager.service ≠ .removing pid i := by
      intro pid i hservice
      rw [Manager.State.isRunning, hservice] at hidle
      cases hidle
    have hawake : Tended out
        { s with manager := if life.isOver then s.manager else s.manager.restart } := by
      split
      next => exact h
      next => exact h.congr rfl rfl (fun pid i hservice => absurd hservice (hnone pid i)) rfl
    exact (hawake.setManagerLife life).mono []
  | gathers _ hwaiting => exact (h.gathers hwaiting).mono []
  | releases hstopping hover => exact (h.releases hstopping hover).mono []
  | client hx hserve => exact (h.client hx hserve).mono []
  | stop => exact (h.mono []).congr rfl rfl (fun _ _ => id) rfl
  | announced he =>
    have hnone : s.escapes e = [] := by
      rcases he with rfl | rfl | rfl | rfl <;> rfl
    rw [hnone]
    exact (h.mono []).congr rfl rfl (fun _ _ => id) rfl

end Tended

theorem Initial.tended (h : Initial s) : Tended [] s where
  kept := by
    constructor
    · rw [h.roster_eq]
      exact .empty
    · rw [h.sessions_eq]
      intro i x hx
      cases hx
  waits i := by
    refine .inl (Manager.isSessionOver_of_none ?_)
    rw [h.sessions_eq]
    rfl

theorem tended_of_run? {config : Config} (hstart : start? config = some s₀)
    (hrun : run? State.act? s₀ t = some s) : Tended (escaped s₀ t) s := by
  refine run?_invariant (motive := fun t s => Tended (escaped s₀ t) s)
    (initial_of_start? hstart).tended ?_ hrun
  intro past s e s' hrun h he
  rw [escaped, history_concat past e hrun]
  exact h.next (lives_of_run? hstart hrun) (acts_of_act? he)

/-! ## The end -/

theorem isStopped_iff : s.isStopped = true ↔
    s.watcherLife = .finished ∧ s.managerLife = .finished ∧ s.sessions = .finished := by
  have hover : ∀ life : Life, life.isOver = true ↔ life = .finished := by
    intro life
    cases life <;> simp [Life.isOver]
  simp [State.isStopped, hover, and_assoc]

/-- Once the adapter has stopped, only sessions move. -/
theorem session_of_isStopped (hlives : Lives s) (hstopped : s.isStopped = true) {m : Move}
    (hstep : s.step? now m = some s') : ∃ i m' x x', m = .manager (.session i m') ∧
      s.manager.sessions[i]? = some x ∧ x.step? now m' = some x' := by
  obtain ⟨hwatcher, hmanager, hsessions⟩ := isStopped_iff.mp hstopped
  have hact : s.act? (.move now m) = some s' := hstep
  cases acts_of_act? hact with
  | watcher hlife =>
    rw [hwatcher] at hlife
    cases hlife
  | @manager _ m manager hmove =>
    have hover := hlives.not_running (by simp [hmanager])
    have hsteps := Manager.steps_of_step? hmove
    obtain ⟨i, m', x, x', rfl, hx, hmove', -⟩ := hsteps.session_of_over hover
    exact ⟨i, m', x, x', rfl, hx, hmove'⟩
  | watcherAwakes hlife =>
    rw [hwatcher] at hlife
    cases hlife
  | managerAwakes hlife =>
    rw [hmanager] at hlife
    cases hlife
  | gathers _ hwaiting =>
    rw [hsessions] at hwaiting
    cases hwaiting
  | releases hstopping =>
    rw [hsessions] at hstopping
    cases hstopping
  | announced he => rcases he with he | he | he | he <;> cases he

namespace Tended

/-- When the adapter has stopped, nobody waits for a session any more. -/
theorem isSessionOver (h : Tended out s) (hlives : Lives s) (hstopped : s.isStopped = true)
    {i : Nat} (hi : i ∉ out) : s.manager.isSessionOver i = true := by
  obtain ⟨-, hmanager, hsessions⟩ := isStopped_iff.mp hstopped
  have hover := hlives.not_running (by simp [hmanager])
  rcases h.waits i with hdone | hout | hwaits
  · exact hdone
  · exact absurd hout hi
  · cases hwaits with
    | roster hwaiting =>
      rw [hsessions] at hwaiting
      cases hwaiting
    | supervisor hstopping =>
      rw [hsessions] at hstopping
      cases hstopping
    | manager hremoving =>
      rw [Manager.State.isRunning, hremoving] at hover
      cases hover

theorem hasEnded (h : Tended out s) {i : Nat} {x : Session.State}
    (hx : s.manager.sessions[i]? = some x) (hover : s.manager.isSessionOver i = true) :
    x.HasEnded := by
  rw [Manager.isSessionOver_of_some hx] at hover
  exact (h.kept.sessions i x hx).hasEnded hover

end Tended

/-- **What is left of an adapter that has stopped.** Nothing of it moves but sessions that have
escaped and are not over. Every other session that it ever started is over with all its services,
and its connection is closed. So this is true of all sessions exactly if those that have escaped
are over. -/
theorem stopped_iff {config : Config} (hstart : start? config = some s₀)
    (hrun : run? State.act? s₀ t = some s) (hstopped : s.isStopped = true) :
    (∀ now m s', s.step? now m = some s' →
      ∃ i m', m = .manager (.session i m') ∧ i ∈ escaped s₀ t ∧
        s.manager.isSessionOver i = false) ∧
    (∀ (i : Nat) x, s.manager.sessions[i]? = some x → i ∈ escaped s₀ t ∨ x.HasEnded) ∧
    ((∀ x ∈ s.manager.sessions, x.HasEnded) ↔
      ∀ i ∈ escaped s₀ t, s.manager.isSessionOver i = true) := by
  have h := tended_of_run? hstart hrun
  have hlives := lives_of_run? hstart hrun
  have hended : ∀ (i : Nat) x, s.manager.sessions[i]? = some x → i ∉ escaped s₀ t → x.HasEnded := by
    intro i x hx hi
    exact h.hasEnded hx (h.isSessionOver hlives hstopped hi)
  refine ⟨?_, ?_, ?_, ?_⟩
  · intro now m s' hstep
    obtain ⟨i, m', x, x', hm, hx, hmove⟩ := session_of_isStopped hlives hstopped hstep
    -- a session that is over makes no move
    have hrunning : s.manager.isSessionOver i = false := by
      cases hover : s.manager.isSessionOver i with
      | false => rfl
      | true =>
        have horderly := h.kept.sessions i x hx
        rw [horderly.step?_of_isOver (h.hasEnded hx hover).isOver] at hmove
        cases hmove
    refine ⟨i, m', hm, ?_, hrunning⟩
    by_cases hi : i ∈ escaped s₀ t
    · exact hi
    · have hover := h.isSessionOver hlives hstopped hi
      exact absurd (hrunning.symm.trans hover) Bool.false_ne_true
  · intro i x hx
    by_cases hi : i ∈ escaped s₀ t
    · exact .inl hi
    · exact .inr (hended i x hx hi)
  · intro hall i hi
    cases hx : s.manager.sessions[i]? with
    | none => exact Manager.isSessionOver_of_none hx
    | some x =>
      have hx' := hall x (List.mem_of_getElem? hx)
      rw [Manager.isSessionOver_of_some hx]
      exact hx'.isOver
  · intro hescaped x hx
    obtain ⟨i, hi⟩ := List.getElem?_of_mem hx
    by_cases hout : i ∈ escaped s₀ t
    · exact h.hasEnded hi (hescaped i hout)
    · exact hended i x hi hout

/-- An adapter that has a session is told to stop, and does so. -/
def shutdown : List Event :=
  [.stop, .move 2000 (.manager .stops), .move 2000 .gathers] ++ teardown ++
    [.move 2000 (.manager (.session 0 (.stage (.wroteFarewell (.ok 0))))),
      .move 2000 (.manager (.session 0 (.stage (.hungUp (.ok ()))))), .move 2000 .releases,
      .move 2000 (.watcher .stops)]

/-- Its session has ended by then. -/
theorem stopped_iff_shutdown : ∃ s₀ s, start? { hook := { processName := "" } } = some s₀ ∧
    run? State.act? s₀ (appearance ++ shutdown) = some s ∧ s.isStopped = true ∧
    s.manager.sessions.length = 1 ∧ ∀ x ∈ s.manager.sessions, x.HasEnded := by
  obtain ⟨s₀, s, hstart, hrun, hstopped, hlength, hescaped⟩ : ∃ s₀ s,
      start? { hook := { processName := "" } } = some s₀ ∧
      run? State.act? s₀ (appearance ++ shutdown) = some s ∧ s.isStopped = true ∧
      s.manager.sessions.length = 1 ∧ escaped s₀ (appearance ++ shutdown) = [] :=
    ⟨_, _, rfl, rfl, rfl, rfl, rfl⟩
  obtain ⟨-, -, hall⟩ := stopped_iff hstart hrun hstopped
  refine ⟨s₀, s, hstart, hrun, hstopped, hlength, hall.mpr ?_⟩
  rw [hescaped]
  exact fun _ => nofun

/-- The process has gone, and its session waits until its agent has been bid farewell. The manager,
which waits for that, is told to stop together with the others. -/
def departure : List Event :=
  [.move 1000 (.watcher .ticks), .move 1000 (.watcher (.scanned (some []))),
    .move 1000 (.watcher .reports), .move 1000 (.watcher .reports),
    .move 1000 (.manager .takesRemoved)] ++ teardown ++
    [.stop, .move 2000 (.manager .stops), .move 2000 .gathers, .move 2000 .releases,
      .move 2000 (.watcher .stops)]

/-- The adapter has stopped, and a session that it started is not over. -/
theorem not_over_of_stopped : ∃ s₀ s, start? { hook := { processName := "" } } = some s₀ ∧
    run? State.act? s₀ (appearance ++ departure) = some s ∧ s.isStopped = true ∧
    ∃ x ∈ s.manager.sessions, x.isOver = false := by
  obtain ⟨s₀, s, x, hstart, hrun, hstopped, hx, hover⟩ : ∃ s₀ s x,
      start? { hook := { processName := "" } } = some s₀ ∧
      run? State.act? s₀ (appearance ++ departure) = some s ∧ s.isStopped = true ∧
      s.manager.sessions = [x] ∧ x.isOver = false :=
    ⟨_, _, _, rfl, rfl, rfl, rfl, rfl⟩
  refine ⟨s₀, s, hstart, hrun, hstopped, x, ?_, hover⟩
  rw [hx]
  exact List.mem_singleton.mpr rfl

end Wiretap.Adapter
