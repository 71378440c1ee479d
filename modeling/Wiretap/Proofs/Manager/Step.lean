import Wiretap.Manager

/-!
# What the manager can do

Each move of the manager, with what it is made on and what it leaves behind.

Results:

* `steps_of_step?`: the moves that `Steps` lists are all that there are.
* `built_afterBuild`, `detached_detach`: what bringing up an agent, and taking down a session, comes
  to.
* `Steps.session_of_over`: once the service is over, only sessions move.
-/

namespace Wiretap

theorem Injection.State.pid_step? {now : Nat} {m : Injection.Move} {job job' : Injection.State}
    (h : job.step? now m = some job') : job'.pid = job.pid := by
  unfold step? at h
  split at h
  all_goals first | (cases h; rfl) | cases h | skip
  · unfold afterFailure
    split <;> rfl
  · split at h <;> cases h
    rfl

namespace Manager

variable {s s' : State} {now : Nat} {cancelled : Bool}

/-! ## Bringing up a session -/

/-- The bringing up of an agent is over, and there is no session. -/
def State.fails (s : State) (job : Injection.State) : Bool :=
  match job.phase with
  | .done (.ok conn) => (Session.new? job.pid conn s.hook s.registry s.policy).isNone
  | .done (.error _) => true
  | _ => false

/-- What the job of bringing up an agent comes to. -/
inductive Built (s : State) (job : Injection.State) : State → Prop where
  | fails {service : Service} (hfails : s.fails job = true)
      (hservice : ∀ job', service ≠ .building job') : Built s job { s with service }
  | succeeds {conn : Connection} {session : Session.State} (hfails : s.fails job = false)
      (hnew : Session.new? job.pid conn s.hook s.registry s.policy = some session) :
      Built s job (s.register job.pid session)
  | goesOn (hfails : s.fails job = false) : Built s job { s with service := .building job }

theorem built_afterBuild (s : State) (job : Injection.State) : Built s job (s.afterBuild job) := by
  unfold State.afterBuild
  split
  next conn hphase =>
    split
    next session hnew => exact .succeeds (by simp [State.fails, hphase, hnew]) hnew
    next hnew => exact .fails (by simp [State.fails, hphase, hnew]) fun _ => nofun
  next hphase => exact .fails (by simp [State.fails, hphase]) fun _ => nofun
  next hok herror =>
    refine .goesOn ?_
    unfold State.fails
    split
    next conn hphase => exact absurd hphase (hok conn)
    next e hphase => exact absurd hphase (herror e)
    next => rfl

/-! ## Taking down a session -/

/-- What becomes of the session of a process that has gone. -/
inductive Detached (s : State) (pid : UInt32) : State → Prop where
  | unknown (hlookup : s.table.lookup pid = none) : Detached s pid s
  /-- The manager waits for it. -/
  | waits {token i : Nat} (hmember : s.roster.member? token = some i) :
      Detached s pid
        { s.cancelSession i with
          table := s.table.filter (·.1 != pid)
          roster := s.roster.drop token
          service := .removing pid i }
  | gone : Detached s pid
      { s with table := s.table.filter (·.1 != pid), service := .reporting pid }

theorem detached_detach (s : State) (pid : UInt32) : Detached s pid (s.detach pid) := by
  unfold State.detach
  split
  next hlookup => exact .unknown hlookup
  next =>
    simp only
    split
    next hmember => exact .waits hmember
    next => exact .gone

/-! ## The moves -/

/-- What a move does to the manager. -/
inductive Steps (now : Nat) (cancelled : Bool) (s : State) : Move → State → Prop where
  /-- The process that has appeared has a session already. -/
  | ignores {pid : UInt32} {q : Queue UInt32} (hidle : s.service = .idle)
      (htake : s.events.added.take? = some (pid, q)) (hsession : (s.session? pid).isSome = true) :
      Steps now cancelled s .takesAdded { s with events.added := q }
  | begins {pid : UInt32} {q : Queue UInt32} (hidle : s.service = .idle)
      (htake : s.events.added.take? = some (pid, q)) (hsession : s.session? pid = none) :
      Steps now cancelled s .takesAdded
        { s with events.added := q, service := .building (Injection.start s.hook pid) }
  | detaches {pid : UInt32} {q : Queue UInt32} {s' : State} (hidle : s.service = .idle)
      (htake : s.events.removed.take? = some (pid, q))
      (hdetached : Detached { s with events.removed := q } pid s') :
      Steps now cancelled s .takesRemoved s'
  | completes (hidle : s.service = .idle)
      (hended : (s.events.added.ended || s.events.removed.ended) = true) :
      Steps now cancelled s .completes (s.finish .complete)
  | builds {m : Injection.Move} {job job' : Injection.State} {s' : State}
      (hbuilding : s.service = .building job) (hjob : job.step? now m = some job')
      (hbuilt : Built s job' s') : Steps now cancelled s (.builds m) s'
  | announces {i : Nat} {up : Queue Nat} (hannouncing : s.service = .announcing i) :
      Steps now cancelled s .announces { s with up, service := .idle }
  | released {pid : UInt32} {i : Nat} (hremoving : s.service = .removing pid i)
      (hover : s.isSessionOver i = true) :
      Steps now cancelled s .released { s with service := .reporting pid }
  | reports {pid : UInt32} {down : Queue UInt32} (hreporting : s.service = .reporting pid) :
      Steps now cancelled s .reports { s with down, service := .idle }
  | stops (hrunning : s.isRunning = true) (hcancelled : cancelled = true) :
      Steps now cancelled s .stops (s.finish .stopped)
  | session {i : Nat} {m : Session.Move} {x x' : Session.State} (hx : s.sessions[i]? = some x)
      (hstep : x.step? now m = some x') :
      Steps now cancelled s (.session i m) (s.setSession i x')

theorem steps_of_step? {m : Move} (h : s.step? now cancelled m = some s') :
    Steps now cancelled s m s' := by
  unfold State.step? at h
  split at h
  next hidle =>
    split at h
    next pid q htake =>
      cases h
      split
      next hsession => exact .ignores hidle htake hsession
      next hsession =>
        exact .begins hidle htake (Option.not_isSome_iff_eq_none.mp hsession)
    next => cases h
  next hidle =>
    split at h
    next pid q htake =>
      cases h
      exact .detaches hidle htake (detached_detach _ pid)
    next => cases h
  next hidle =>
    split at h <;> cases h
    next hended => exact .completes hidle hended
  next m job hbuilding =>
    obtain ⟨job', hjob, rfl⟩ := Option.map_eq_some_iff.mp h
    exact .builds hbuilding hjob (built_afterBuild s job')
  next i hannouncing =>
    split at h <;> cases h
    next => exact .announces hannouncing
    next =>
      have hsteps : Steps now cancelled s .announces { s with up := s.up, service := .idle } :=
        .announces hannouncing
      exact hsteps
  next pid i hremoving =>
    split at h <;> cases h
    next hover => exact .released hremoving hover
  next pid hreporting =>
    split at h <;> cases h
    next => exact .reports hreporting
    next =>
      have hsteps : Steps now cancelled s .reports { s with down := s.down, service := .idle } :=
        .reports hreporting
      exact hsteps
  next =>
    split at h
    next => cases h
    next hservice =>
      split at h <;> cases h
      next hcancelled =>
        refine .stops ?_ hcancelled
        unfold State.isRunning
        split
        next e he => exact absurd he (hservice e)
        next => rfl
  next i m =>
    obtain ⟨x', hx, rfl⟩ := Option.map_eq_some_iff.mp h
    obtain ⟨x, hx, hstep⟩ := Option.bind_eq_some_iff.mp hx
    exact .session hx hstep
  next => cases h

/-! ## Where the service stands -/

theorem State.isRunning_congr (h : s'.service = s.service) : s'.isRunning = s.isRunning := by
  unfold State.isRunning
  rw [h]

/-- Once the service is over, only sessions move. -/
theorem Steps.session_of_over {m : Move} (h : Steps now cancelled s m s')
    (hover : s.isRunning = false) : ∃ i m' x x', m = .session i m' ∧ s.sessions[i]? = some x ∧
      x.step? now m' = some x' ∧ s' = s.setSession i x' := by
  cases h with
  | ignores hservice | begins hservice | detaches hservice | completes hservice | builds hservice
  | announces hservice | released hservice | reports hservice =>
    simp [State.isRunning, hservice] at hover
  | stops hrunning =>
    rw [hover] at hrunning
    cases hrunning
  | @session i m' x x' hx hstep => exact ⟨i, m', x, x', rfl, hx, hstep, rfl⟩

theorem Steps.service_eq {m : Move} (h : Steps now cancelled s m s') (hover : s.isRunning = false) :
    s'.service = s.service := by
  obtain ⟨i, m', x, x', -, -, -, rfl⟩ := h.session_of_over hover
  rfl

theorem not_building_of_idle (h : s.service = .idle) (job : Injection.State) :
    s.service ≠ .building job := by
  rw [h]
  exact Service.noConfusion

theorem Detached.not_building {pid : UInt32} (h : Detached s pid s') (hidle : s.service = .idle)
    (job : Injection.State) : s'.service ≠ .building job := by
  cases h with
  | unknown => exact not_building_of_idle hidle job
  | waits | gone => exact Service.noConfusion

/-! ## What stays -/

theorem Detached.events_eq {pid : UInt32} (h : Detached s pid s') : s'.events = s.events := by
  cases h <;> rfl

theorem Built.events_eq {job : Injection.State} (h : Built s job s') : s'.events = s.events := by
  cases h <;> rfl

/-- Cancelling sessions changes nothing else. -/
theorem foldl_cancelSession (members : List Nat) (s : State) :
    ∃ sessions, members.foldl State.cancelSession s = { s with sessions } ∧
      ∀ i : Nat, sessions[i]? =
        s.sessions[i]?.map fun x => if i ∈ members then { x with cancelled := true } else x := by
  induction members generalizing s with
  | nil => exact ⟨s.sessions, rfl, fun i => by simp⟩
  | cons j members ih =>
    obtain ⟨sessions, hfold, hsessions⟩ := ih (s.cancelSession j)
    refine ⟨sessions, hfold, fun i => ?_⟩
    rw [hsessions i, State.cancelSession, List.getElem?_modify]
    cases s.sessions[i]? with
    | none => rfl
    | some x =>
      by_cases hj : j = i
      · subst hj
        by_cases hmem : j ∈ members <;> simp [hmem]
      · simp [hj, Ne.symm hj]

theorem stopSessions_cases (s : State) :
    ∃ sessions, s.stopSessions.1 = { s with sessions, roster := s.roster.stop } ∧
      ∀ i : Nat, sessions[i]? = s.sessions[i]?.map fun x =>
        if i ∈ s.roster.members.map (·.2) then { x with cancelled := true } else x := by
  obtain ⟨sessions, hfold, hsessions⟩ := foldl_cancelSession (s.roster.members.map (·.2)) s
  refine ⟨sessions, ?_, hsessions⟩
  rw [State.stopSessions, hfold]

end Manager
end Wiretap
