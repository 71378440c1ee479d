import Mathlib.Data.List.Induction
import Wiretap.Proofs.Session.Handshake

/-!
# The pace of the pings

The pinger queues a ping after each tick of its ticker. It may have to wait for room in the queue,
and takes its next tick late then.

Results:

* `pingStep_of_stepPinger?`: what a move of the pinger does.
* `paced_of_run?`: with a clock that never goes back, the pings that have been queued and the next
  tick keep a whole period between any two of them.
* `pings_keep_pace`: no more pings are queued than whole periods have passed, none is queued once
  the pinger has stopped, and it completes exactly where the queue has lost its consumer.
-/

namespace Wiretap.Session

/-- What the pinger queues at an event, with the time. -/
def State.pings (s : State) : Event → List (Nat × Message)
  | .move now (.pinger m) => (s.enqueued (.move now (.pinger m))).map (now, ·)
  | _ => []

/-- What the pinger queued in the course of a run, with the times. -/
def pinged (s : State) (t : List Event) : List (Nat × Message) := history State.act? State.pings s t

/-- The time at which the pinger sends into a queue that has lost its consumer. -/
def State.strands (s : State) : Event → List Nat
  | .move now (.pinger .offers) => if s.outgoing.listening then [] else [now]
  | _ => []

/-- The times at which the pinger sent into a queue that had lost its consumer. -/
def stranded (s : State) (t : List Event) : List Nat := history State.act? State.strands s t

variable {s s' : State} {t : List Event}

theorem pinged_concat (h : run? State.act? s t = some s') (e : Event) :
    pinged s (t ++ [e]) = pinged s t ++ s'.pings e := history_concat t e h

theorem stranded_concat (h : run? State.act? s t = some s') (e : Event) :
    stranded s (t ++ [e]) = stranded s t ++ s'.strands e := history_concat t e h

/-! ## One event -/

/-- The pinger has its ticker, and is not over. -/
def Pinger.isTicking : Pinger → Bool
  | .ticking _ | .offering _ _ => true
  | _ => false

/-- A pinger that has its ticker is one that its supervisor runs. -/
def Supervised (s : State) : Prop :=
  s.pinger.isTicking = true → s.hasStarted = true ∧ ∃ failures, s.pingerLife = .running failures

/-- What a move of the pinger does, where it queues these messages. -/
inductive PingStep (now : Nat) (s s' : State) : PingerMove → List Message → Prop where
  | starts {failures : Nat} (hpinger : s.pinger = .starting)
      (hpinger' : s'.pinger = .ticking ⟨s.pingInterval, now + s.pingInterval⟩)
      (hlife' : s'.pingerLife = .running failures) : PingStep now s s' .starts []
  /-- Its rest after a failure ends, or is given up. -/
  | awakes (hpinger : s.pinger = .starting)
      (hpinger' : s'.pinger = .starting ∨ s'.pinger = .finished .stopped) :
      PingStep now s s' .awakes []
  | ticks {ticker : Ticker} (hpinger : s.pinger = .ticking ticker) (hdue : ticker.due ≤ now)
      (hpinger' : s'.pinger = .offering (ticker.tick now) now)
      (hlife' : s'.pingerLife = s.pingerLife) : PingStep now s s' .ticks []
  | queues {ticker : Ticker} {since : Nat} (hpinger : s.pinger = .offering ticker since)
      (hlistening : s.outgoing.listening = true) (hpinger' : s'.pinger = .ticking ticker)
      (hlife' : s'.pingerLife = s.pingerLife) : PingStep now s s' .offers [.ping]
  | completes {ticker : Ticker} {since : Nat} (hpinger : s.pinger = .offering ticker since)
      (hgone : s.outgoing.listening = false) (hpinger' : s'.pinger = .finished .complete) :
      PingStep now s s' .offers []
  | stops (hticking : s.pinger.isTicking = true) (hpinger' : s'.pinger = .finished .stopped) :
      PingStep now s s' .stops []

variable {now : Nat}

/-- A run of the pinger that did not fail is its last one. -/
theorem pinger_endPinger {failures : Nat} {exit : Exit} (hlife : s.pingerLife = .running failures)
    (hexit : ∀ reason, exit ≠ .failed reason) :
    (s.endPinger now exit).pinger = .finished exit := by
  simp only [State.endPinger, hlife, Life.ended_of_not_failed hexit, Life.isOver, if_true]

/-- With a period that is not empty the pinger never fails. -/
theorem pingStep_of_stepPinger? {m : PingerMove} (hperiod : 0 < s.pingInterval)
    (hsupervised : Supervised s) (h : s.stepPinger? now m = some s') :
    PingStep now s s' m (s.enqueued (.move now (.pinger m))) := by
  have hstops (hticking : s.pinger.isTicking = true)
      (h : (if s.halted then some (s.endPinger now .stopped) else none) = some s') :
      PingStep now s s' .stops [] := by
    obtain ⟨-, failures, hlife⟩ := hsupervised hticking
    split at h <;> cases h
    exact .stops hticking (pinger_endPinger hlife (by simp))
  unfold State.stepPinger? at h
  split at h
  -- it starts
  next hpinger =>
    split at h
    next failures hlife =>
      have hstart : Ticker.start? now s.pingInterval =
          some ⟨s.pingInterval, now + s.pingInterval⟩ := if_neg (Nat.ne_of_gt hperiod)
      rw [hstart] at h
      cases h
      exact .starts hpinger rfl hlife
    next => cases h
  -- it takes a tick
  next ticker hpinger =>
    split at h <;> cases h
    next hdue => exact .ticks hpinger hdue rfl rfl
  -- it queues a ping
  next ticker since hpinger =>
    simp only [State.enqueued]
    split at h <;> cases h
    next outgoing hsend =>
      rw [accepts_of_offer hsend]
      exact .queues hpinger (Queue.eq_of_offer hsend).1 rfl rfl
    next hsend =>
      obtain ⟨-, failures, hlife⟩ := hsupervised (by rw [hpinger]; rfl)
      rw [accepts_of_refused hsend]
      exact .completes hpinger (Queue.not_listening_of_offer hsend)
        (pinger_endPinger hlife (by simp))
  -- it sees that it is told to stop
  next hpinger => exact hstops (by rw [hpinger]; rfl) h
  next hpinger => exact hstops (by rw [hpinger]; rfl) h
  -- its rest ends
  next hpinger =>
    obtain ⟨life, -, rfl⟩ := Option.map_eq_some_iff.mp h
    refine .awakes hpinger ?_
    show (if life.isOver then Pinger.finished .stopped else .starting) = .starting ∨
      (if life.isOver then Pinger.finished .stopped else .starting) = .finished .stopped
    split
    · exact .inr rfl
    · exact .inl rfl
  next => cases h

/-- What an event does to the pinger, where it queues these messages. -/
inductive Pings (s s' : State) : Event → List (Nat × Message) → Prop where
  | moves {now : Nat} {m : PingerMove} {ms : List Message} (hstarted : s.hasStarted = true)
      (hstep : PingStep now s s' m ms) : Pings s s' (.move now (.pinger m)) (ms.map (now, ·))
  | stands {e : Event} (he : ∀ now m, e ≠ .move now (.pinger m)) (hpinger : s'.pinger = s.pinger)
      (hlife : s'.pingerLife = s.pingerLife) : Pings s s' e []

/-- **What an event does to the pinger.** Only its own moves touch it. -/
theorem pings_of_act? {e : Event} (hperiod : 0 < s.pingInterval) (hsupervised : Supervised s)
    (h : s.act? e = some s') : Pings s s' e (s.pings e) := by
  cases e with
  | move now m =>
    have h : s.step? now m = some s' := h
    cases moves_of_step? h with
    | stage hmove =>
      obtain ⟨_, _, _, _, rfl⟩ := eq_of_stepStage? hmove
      exact .stands (by simp) rfl rfl
    | sender hmove =>
      obtain ⟨_, _, rfl⟩ := eq_of_stepSender? hmove
      exact .stands (by simp) rfl rfl
    | receiver hmove =>
      obtain ⟨_, _, _, _, rfl⟩ := eq_of_stepReceiver? hmove
      exact .stands (by simp) rfl rfl
    | decoder hmove =>
      obtain ⟨_, _, _, _, _, rfl⟩ := eq_of_stepDecoder? hmove
      exact .stands (by simp) rfl rfl
    | pinger hmove =>
      have hstarted : s.hasStarted = true := by
        simp only [State.step?] at h
        split at h
        next hstarted => exact hstarted
        next => cases h
      exact .moves hstarted (pingStep_of_stepPinger? hperiod hsupervised hmove)
  | client c =>
    obtain ⟨_, _, _, _, rfl⟩ := eq_of_serve? h
    exact .stands (by simp) rfl rfl
  | cancel =>
    cases h
    exact .stands (by simp) rfl rfl
  | drop =>
    simp only [State.act?] at h
    split at h <;> cases h
    exact .stands (by simp) rfl rfl

theorem Supervised.next {e : Event} (h : Supervised s) (hperiod : 0 < s.pingInterval)
    (hact : s.act? e = some s') : Supervised s' := by
  intro hticking'
  have hadvances := advances_of_act? hact
  have hpings := pings_of_act? hperiod h hact
  generalize s.pings e = ps at hpings
  cases hpings with
  | moves hstarted hstep =>
    refine ⟨hadvances.hasStarted hstarted, ?_⟩
    cases hstep with
    | starts _ _ hlife' => exact ⟨_, hlife'⟩
    | ticks hpinger _ _ hlife' =>
      rw [hlife']
      exact (h (by rw [hpinger]; rfl)).2
    | queues hpinger _ _ hlife' =>
      rw [hlife']
      exact (h (by rw [hpinger]; rfl)).2
    -- in all other cases it has no ticker
    | awakes _ hpinger' =>
      rcases hpinger' with hpinger' | hpinger' <;> rw [hpinger'] at hticking' <;> cases hticking'
    | completes _ _ hpinger' => rw [hpinger'] at hticking'; cases hticking'
    | stops _ hpinger' => rw [hpinger'] at hticking'; cases hticking'
  | stands _ hpinger hlife =>
    rw [hpinger] at hticking'
    obtain ⟨hstarted, hrunning⟩ := h hticking'
    exact ⟨hadvances.hasStarted hstarted, by rw [hlife]; exact hrunning⟩

/-! ## Runs -/

/-- The pings that were queued keep a whole period to the start of the pinger and to each other. -/
def Spaced (period start : Nat) (ps : List (Nat × Message)) : Prop :=
  ∀ i now m, ps[i]? = some (now, m) → m = .ping ∧ start + (i + 1) * period ≤ now

/-- Where the pinger stands after the events of a run, in which it queued `ps`. -/
structure Paced (period : Nat) (t : List Event) (ps : List (Nat × Message)) (s : State) : Prop where
  period_eq : s.pingInterval = period
  supervised : Supervised s
  starting : s.pinger = .starting → ps = [] ∧ ∀ now, .move now (.pinger .starts) ∉ t
  /-- The next tick is due a whole period after the last ping at the earliest. -/
  ticking : ∀ ticker, s.pinger = .ticking ticker → ticker.period = period ∧
    ∀ start, .move start (.pinger .starts) ∈ t → start + (ps.length + 1) * period ≤ ticker.due
  /-- The tick that was taken was due by then, and the one after it a whole period later. -/
  offering : ∀ ticker since, s.pinger = .offering ticker since → ticker.period = period ∧
    .move since (.pinger .ticks) ∈ t ∧
    ∀ start, .move start (.pinger .starts) ∈ t → start + (ps.length + 1) * period ≤ since ∧
      start + (ps.length + 2) * period ≤ ticker.due
  started : s.pinger.isTicking = true ∨ ps ≠ [] → ∃ start, .move start (.pinger .starts) ∈ t
  spaced : ∀ start, .move start (.pinger .starts) ∈ t → Spaced period start ps

theorem Spaced.concat {period start : Nat} {ps : List (Nat × Message)} (h : Spaced period start ps)
    (hdue : start + (ps.length + 1) * period ≤ now) :
    Spaced period start (ps ++ [(now, .ping)]) := by
  intro i now' m hi
  rcases Nat.lt_trichotomy i ps.length with hlt | rfl | hgt
  · rw [List.getElem?_append_left hlt] at hi
    exact h i now' m hi
  · rw [List.getElem?_concat_length] at hi
    cases hi
    exact ⟨rfl, hdue⟩
  · rw [List.getElem?_eq_none (by simp; omega)] at hi
    cases hi

theorem Spaced.of_concat {period start : Nat} {ps : List (Nat × Message)} {p : Nat × Message}
    (h : Spaced period start (ps ++ [p])) : Spaced period start ps := by
  intro i now m hi
  apply h i now m
  rw [List.getElem?_append_left (List.getElem?_eq_some_iff.mp hi).1]
  exact hi

/-- Up to any time, no more pings were queued than whole periods had passed. -/
theorem Spaced.countP_le {period start : Nat} {ps : List (Nat × Message)}
    (h : Spaced period start ps) (hperiod : 0 < period) (now : Nat) :
    ps.countP (·.1 ≤ now) ≤ (now - start) / period := by
  induction ps using List.reverseRecOn with
  | nil => exact Nat.zero_le _
  | append_singleton ps p ih =>
    by_cases hp : p.1 ≤ now
    · -- so many periods had passed when the last of them was queued
      have hcount : (ps ++ [p]).countP (·.1 ≤ now) ≤ ps.length + 1 := by
        have hle := List.countP_le_length (p := fun p => decide (p.1 ≤ now)) (l := ps ++ [p])
        rwa [List.length_append] at hle
      have hlast : start + (ps.length + 1) * period ≤ p.1 :=
        (h ps.length p.1 p.2 List.getElem?_concat_length).2
      have hmul := Nat.mul_le_mul_right period hcount
      rw [Nat.le_div_iff_mul_le hperiod]
      omega
    · rw [List.countP_append, List.countP_singleton, if_neg (by simpa using hp)]
      exact ih h.of_concat

namespace Paced

variable {period : Nat} {ps new : List (Nat × Message)} {e : Event}

theorem of_mem_concat {start : Nat} (he : ∀ now, e ≠ .move now (.pinger .starts))
    (h : .move start (.pinger .starts) ∈ t ++ [e]) : .move start (.pinger .starts) ∈ t := by
  rcases List.mem_append.mp h with h | h
  · exact h
  · exact absurd (List.mem_singleton.mp h).symm (he start)

theorem started_concat (h : Paced period t ps s) (hstarted : s.pinger.isTicking = true ∨ ps ≠ []) :
    ∃ start, .move start (.pinger .starts) ∈ t ++ [e] := by
  obtain ⟨start, hstart⟩ := h.started hstarted
  exact ⟨start, List.mem_append_left _ hstart⟩

/-- The pinger stays where it is. -/
theorem stays (h : Paced period t ps s) (he : ∀ now, e ≠ .move now (.pinger .starts))
    (hperiod : s'.pingInterval = period) (hsupervised : Supervised s')
    (hpinger : s'.pinger = s.pinger) : Paced period (t ++ [e]) ps s' where
  period_eq := hperiod
  supervised := hsupervised
  starting hstarting := by
    obtain ⟨hps, hnone⟩ := h.starting (hpinger.symm.trans hstarting)
    exact ⟨hps, fun now hmem => hnone now (of_mem_concat he hmem)⟩
  ticking ticker hticking := by
    obtain ⟨hticker, hdue⟩ := h.ticking ticker (hpinger.symm.trans hticking)
    exact ⟨hticker, fun start hstart => hdue start (of_mem_concat he hstart)⟩
  offering ticker since hoffering := by
    obtain ⟨hticker, hsince, hdue⟩ := h.offering ticker since (hpinger.symm.trans hoffering)
    exact ⟨hticker, List.mem_append_left _ hsince,
      fun start hstart => hdue start (of_mem_concat he hstart)⟩
  started hstarted := h.started_concat (by rwa [hpinger] at hstarted)
  spaced start hstart := h.spaced start (of_mem_concat he hstart)

/-- The pinger is over. -/
theorem ends (h : Paced period t ps s) (he : ∀ now, e ≠ .move now (.pinger .starts))
    (hperiod : s'.pingInterval = period) {exit : Exit} (hpinger' : s'.pinger = .finished exit) :
    Paced period (t ++ [e]) ps s' where
  period_eq := hperiod
  supervised hticking := by rw [hpinger'] at hticking; cases hticking
  starting := by simp [hpinger']
  ticking := by simp [hpinger']
  offering := by simp [hpinger']
  started hstarted := by
    rw [hpinger'] at hstarted
    exact h.started_concat (.inr (hstarted.resolve_left Bool.false_ne_true))
  spaced start hstart := h.spaced start (of_mem_concat he hstart)

theorem starts (h : Paced period t ps s) (hperiod : s'.pingInterval = period)
    (hsupervised : Supervised s') (hpinger : s.pinger = .starting)
    (hpinger' : s'.pinger = .ticking ⟨s.pingInterval, now + s.pingInterval⟩) :
    Paced period (t ++ [.move now (.pinger .starts)]) ps s' := by
  -- nothing was queued before, and this is the only start
  obtain ⟨rfl, hnone⟩ := h.starting hpinger
  refine ⟨hperiod, hsupervised, by simp [hpinger'], fun ticker hticking => ?_,
    by simp [hpinger'], fun _ => ⟨now, by simp⟩, fun _ _ _ _ _ hi => nomatch hi⟩
  rw [hpinger'] at hticking
  cases hticking
  refine ⟨h.period_eq, fun start hstart => ?_⟩
  rcases List.mem_append.mp hstart with hstart | hstart
  · exact absurd hstart (hnone start)
  · cases List.mem_singleton.mp hstart
    simp [h.period_eq]

/-- The next tick is a whole period after the one that is taken, or later. -/
theorem ticks (h : Paced period t ps s) (hperiod : s'.pingInterval = period)
    (hsupervised : Supervised s') {ticker : Ticker} (hpinger : s.pinger = .ticking ticker)
    (hdue : ticker.due ≤ now) (hpinger' : s'.pinger = .offering (ticker.tick now) now) :
    Paced period (t ++ [.move now (.pinger .ticks)]) ps s' := by
  have he : ∀ now', Event.move now (.pinger .ticks) ≠ .move now' (.pinger .starts) := by simp
  obtain ⟨hticker, hstart⟩ := h.ticking ticker hpinger
  refine ⟨hperiod, hsupervised, by simp [hpinger'], by simp [hpinger'],
    fun ticker' since hoffering => ?_, fun _ => h.started_concat (.inl (by rw [hpinger]; rfl)),
    fun start hs => h.spaced start (of_mem_concat he hs)⟩
  rw [hpinger'] at hoffering
  cases hoffering
  refine ⟨(ticker.period_tick now).trans hticker, by simp, fun start hs => ?_⟩
  have hnow := hstart start (of_mem_concat he hs)
  have hnext : ticker.due + period ≤ (ticker.tick now).due := hticker ▸ ticker.le_due_tick now
  have hperiods : (ps.length + 2) * period = (ps.length + 1) * period + period :=
    Nat.succ_mul (ps.length + 1) period
  omega

/-- The ping is queued once the tick for it has been taken. -/
theorem queues (h : Paced period t ps s) (hperiod : s'.pingInterval = period)
    (hsupervised : Supervised s') {ticker : Ticker} {since : Nat}
    (hpinger : s.pinger = .offering ticker since) (hpinger' : s'.pinger = .ticking ticker)
    (htimely : Timely (t ++ [.move now (.pinger .offers)])) :
    Paced period (t ++ [.move now (.pinger .offers)]) (ps ++ [(now, .ping)]) s' := by
  have he : ∀ now', Event.move now (.pinger .offers) ≠ .move now' (.pinger .starts) := by simp
  obtain ⟨hticker, hsince, hstart⟩ := h.offering ticker since hpinger
  have hle : since ≤ now := (timely_concat.mp htimely).2 now rfl _ hsince since rfl
  refine ⟨hperiod, hsupervised, by simp [hpinger'], fun ticker' hticking => ?_,
    by simp [hpinger'], fun _ => h.started_concat (.inl (by rw [hpinger]; rfl)),
    fun start hs => ?_⟩
  · rw [hpinger'] at hticking
    cases hticking
    rw [List.length_append, List.length_singleton]
    exact ⟨hticker, fun start hs => (hstart start (of_mem_concat he hs)).2⟩
  · have hs := of_mem_concat he hs
    exact (h.spaced start hs).concat (Nat.le_trans (hstart start hs).1 hle)

/-- **Every event keeps the pace.** -/
theorem next (h : Paced period t ps s) (hpos : 0 < period) (hact : s.act? e = some s')
    (htimely : Timely (t ++ [e])) : Paced period (t ++ [e]) (ps ++ s.pings e) s' := by
  have hinterval : 0 < s.pingInterval := by rw [h.period_eq]; exact hpos
  have hperiod : s'.pingInterval = period := (settings_of_act? hact).2.trans h.period_eq
  have hsupervised := h.supervised.next hinterval hact
  have hpings := pings_of_act? hinterval h.supervised hact
  generalize s.pings e = new at hpings
  cases hpings with
  | moves _ hstep =>
    cases hstep with
    | starts hpinger hpinger' =>
      rw [List.map_nil, List.append_nil]
      exact h.starts hperiod hsupervised hpinger hpinger'
    | awakes hpinger hpinger' =>
      rw [List.map_nil, List.append_nil]
      rcases hpinger' with hpinger' | hpinger'
      · exact h.stays (by simp) hperiod hsupervised (hpinger'.trans hpinger.symm)
      · exact h.ends (by simp) hperiod hpinger'
    | ticks hpinger hdue hpinger' =>
      rw [List.map_nil, List.append_nil]
      exact h.ticks hperiod hsupervised hpinger hdue hpinger'
    | queues hpinger _ hpinger' => exact h.queues hperiod hsupervised hpinger hpinger' htimely
    | completes _ _ hpinger' =>
      rw [List.map_nil, List.append_nil]
      exact h.ends (by simp) hperiod hpinger'
    | stops _ hpinger' =>
      rw [List.map_nil, List.append_nil]
      exact h.ends (by simp) hperiod hpinger'
  | stands he hpinger =>
    rw [List.append_nil]
    exact h.stays (fun now => he now .starts) hperiod hsupervised hpinger

end Paced

theorem paced_of_run? {s₀ : State} (hstarting : s₀.pinger = .starting) (hpos : 0 < s₀.pingInterval)
    (hrun : run? State.act? s₀ t = some s) (htimely : Timely t) :
    Paced s₀.pingInterval t (pinged s₀ t) s := by
  have hstart : Paced s₀.pingInterval [] [] s₀ :=
    { period_eq := rfl
      supervised := by simp [Supervised, hstarting, Pinger.isTicking]
      starting := fun _ => ⟨rfl, fun _ => List.not_mem_nil⟩
      ticking := by simp [hstarting]
      offering := by simp [hstarting]
      started := by simp [hstarting, Pinger.isTicking]
      spaced := fun _ hstart => absurd hstart List.not_mem_nil }
  refine run?_invariant
    (motive := fun t s => Timely t → Paced s₀.pingInterval t (pinged s₀ t) s)
    (fun _ => hstart) ?_ hrun htimely
  intro past s₁ e s₂ hpast hpaced hact htimely
  rw [pinged_concat hpast]
  exact (hpaced (timely_concat.mp htimely).1).next hpos hact htimely

/-! ## The end of the pinger -/

namespace Pings

variable {e : Event} {ps : List (Nat × Message)} {exit : Exit}

/-- A pinger that is over stays as it is, and queues nothing. -/
theorem of_finished (h : Pings s s' e ps) (hpinger : s.pinger = .finished exit) :
    ps = [] ∧ s'.pinger = .finished exit := by
  cases h with
  | moves _ hstep => cases hstep <;> simp_all [Pinger.isTicking]
  | stands _ hstays => exact ⟨rfl, hstays.trans hpinger⟩

theorem of_stops (h : Pings s s' (.move now (.pinger .stops)) ps) :
    s'.pinger = .finished .stopped := by
  cases h with
  | moves _ hstep => cases hstep with | stops _ hpinger' => exact hpinger'
  | stands he => exact absurd rfl (he now .stops)

theorem strands_eq_nil (he : ∀ now m, e ≠ .move now (.pinger m)) : s.strands e = [] := by
  cases e with
  | move now m =>
    cases m with
    | pinger m => exact absurd rfl (he now m)
    | _ => rfl
  | _ => rfl

/-- The pinger completes at the event at which it sends into a queue without a consumer. -/
theorem complete_iff (h : Pings s s' e ps) : s'.pinger = .finished .complete ↔
    s.pinger = .finished .complete ∨ s.strands e ≠ [] := by
  cases h with
  | moves _ hstep =>
    cases hstep with
    | starts hpinger hpinger' => simp [hpinger, hpinger', State.strands]
    | awakes hpinger hpinger' =>
      rcases hpinger' with hpinger' | hpinger' <;> simp [hpinger, hpinger', State.strands]
    | ticks hpinger _ hpinger' => simp [hpinger, hpinger', State.strands]
    | queues hpinger hlistening hpinger' =>
      simp [hpinger, hpinger', State.strands, hlistening]
    | completes _ hgone hpinger' => simp [hpinger', State.strands, hgone]
    | stops hticking hpinger' =>
      have hrunning : s.pinger ≠ .finished .complete := by
        intro hover
        rw [hover] at hticking
        cases hticking
      simp [hrunning, hpinger', State.strands]
  | stands he hpinger => simp [hpinger, strands_eq_nil he]

end Pings

/-- How the pinger has ended after the events of a run. -/
structure Outcome (period : Nat) (t : List Event) (strands : List Nat) (s : State) : Prop where
  period_eq : s.pingInterval = period
  supervised : Supervised s
  stopped : (∃ now, .move now (.pinger .stops) ∈ t) → s.pinger = .finished .stopped
  complete_iff : s.pinger = .finished .complete ↔ strands ≠ []

theorem Outcome.next {period : Nat} {strands : List Nat} {e : Event}
    (h : Outcome period t strands s) (hpos : 0 < period) (hact : s.act? e = some s') :
    Outcome period (t ++ [e]) (strands ++ s.strands e) s' := by
  have hinterval : 0 < s.pingInterval := by rw [h.period_eq]; exact hpos
  have hpings := pings_of_act? hinterval h.supervised hact
  refine ⟨(settings_of_act? hact).2.trans h.period_eq, h.supervised.next hinterval hact, ?_, ?_⟩
  · rintro ⟨now, hmem⟩
    rcases List.mem_append.mp hmem with hmem | hmem
    · exact (hpings.of_finished (h.stopped ⟨now, hmem⟩)).2
    · cases List.mem_singleton.mp hmem
      exact hpings.of_stops
  · rw [hpings.complete_iff, h.complete_iff, ne_eq (strands ++ _), List.append_eq_nil_iff,
      not_and_or]

theorem outcome_of_run? {s₀ : State} (hstarting : s₀.pinger = .starting)
    (hpos : 0 < s₀.pingInterval) (hrun : run? State.act? s₀ t = some s) :
    Outcome s₀.pingInterval t (stranded s₀ t) s := by
  refine run?_invariant
    (motive := fun t s => Outcome s₀.pingInterval t (stranded s₀ t) s) ?_ ?_ hrun
  · exact ⟨rfl, by simp [Supervised, hstarting, Pinger.isTicking], by simp,
      by simp [hstarting, stranded, history]⟩
  · intro past s₁ e s₂ hpast houtcome hact
    rw [stranded_concat hpast]
    exact houtcome.next hpos hact

/-- Nothing is queued any more once the pinger is over. -/
theorem rests_of_finished {exit : Exit} {es : List Event} (hpos : 0 < s.pingInterval)
    (hover : s.pinger = .finished exit) (hrun : run? State.act? s es = some s') :
    pinged s es = [] ∧ s'.pinger = .finished exit := by
  suffices hinv : s'.pingInterval = s.pingInterval ∧ pinged s es = [] ∧ s'.pinger = .finished exit
    from hinv.2
  refine run?_invariant (motive := fun es s' => s'.pingInterval = s.pingInterval ∧
    pinged s es = [] ∧ s'.pinger = .finished exit) ⟨rfl, rfl, hover⟩ ?_ hrun
  intro past s₁ e s₂ hpast hinv hact
  obtain ⟨hperiod, hnone, hover⟩ := hinv
  have hsupervised : Supervised s₁ := by simp [Supervised, hover, Pinger.isTicking]
  have hpings := pings_of_act? (by rw [hperiod]; exact hpos) hsupervised hact
  obtain ⟨hnone', hover'⟩ := hpings.of_finished hover
  refine ⟨(settings_of_act? hact).2.trans hperiod, ?_, hover'⟩
  rw [pinged_concat hpast, hnone, hnone', List.append_nil]

/-- A pinger that waits for a queue without a consumer can complete. -/
theorem completes_of_offering {ticker : Ticker} {since : Nat} (hsupervised : Supervised s)
    (hpinger : s.pinger = .offering ticker since) (hgone : s.outgoing.listening = false)
    (now : Nat) :
    ∃ s', s.act? (.move now (.pinger .offers)) = some s' ∧ s'.pinger = .finished .complete := by
  obtain ⟨hstarted, failures, hlife⟩ := hsupervised (by rw [hpinger]; rfl)
  have hsend : s.send .ping = .refused := Queue.offer_of_not_listening hgone .ping
  refine ⟨s.endPinger now .complete, ?_, pinger_endPinger hlife (by simp)⟩
  simp only [State.act?, State.step?, hstarted, if_true, State.stepPinger?, hpinger, hsend]

/-- **The pings keep their pace.** Take any run of a session, with a clock that never goes back, in
which the pinger has not started at first, and let the period not be empty. Wherever the queue of
outgoing messages held the pinger up,

* what it queued are pings, and the `i`-th of them, counted from nought, was queued `i + 1` periods
  after the pinger had started or later;
* so up to any time no more pings were queued than whole periods had passed;
* if the pinger saw that it was told to stop, it is stopped, and whatever happens once it is over,
  nothing more is queued;
* it is complete exactly if it sent a ping into a queue that had lost its consumer, and while it
  waits for such a queue it can do so at any time. -/
theorem pings_keep_pace {s₀ : State} (hstarting : s₀.pinger = .starting)
    (hpos : 0 < s₀.pingInterval) (hrun : run? State.act? s₀ t = some s) (htimely : Timely t) :
    let pings := pinged s₀ t
    (pings ≠ [] → ∃ start, .move start (.pinger .starts) ∈ t) ∧
    (∀ start, .move start (.pinger .starts) ∈ t →
      (∀ i now m, pings[i]? = some (now, m) →
        m = .ping ∧ start + (i + 1) * s₀.pingInterval ≤ now) ∧
      ∀ now, pings.countP (·.1 ≤ now) ≤ (now - start) / s₀.pingInterval) ∧
    ((∃ now, .move now (.pinger .stops) ∈ t) → s.pinger = .finished .stopped) ∧
    (∀ exit, s.pinger = .finished exit → ∀ es s', run? State.act? s es = some s' →
      pinged s es = [] ∧ s'.pinger = .finished exit) ∧
    (s.pinger = .finished .complete ↔ stranded s₀ t ≠ []) ∧
    ∀ ticker since, s.pinger = .offering ticker since → s.outgoing.listening = false →
      ∀ now, ∃ s', s.act? (.move now (.pinger .offers)) = some s' ∧
        s'.pinger = .finished .complete := by
  intro pings
  have hpaced := paced_of_run? hstarting hpos hrun htimely
  have houtcome := outcome_of_run? hstarting hpos hrun
  refine ⟨fun hne => hpaced.started (.inr hne), fun start hstart => ?_, houtcome.stopped, ?_,
    houtcome.complete_iff, ?_⟩
  · have hspaced : Spaced s₀.pingInterval start pings := hpaced.spaced start hstart
    exact ⟨hspaced, hspaced.countP_le hpos⟩
  · intro exit hover es s' hlater
    apply rests_of_finished ?_ hover hlater
    rw [houtcome.period_eq]
    exact hpos
  · intro ticker since hpinger hgone now
    exact completes_of_offering houtcome.supervised hpinger hgone now

set_option maxRecDepth 1000 in
/-- A pinger with a period of ten takes its first tick forty late, finds the queue full until a
hundred, and so queues two pings where ten periods have passed. Then the agent is gone. -/
theorem pings_keep_pace_after_stall :
    let filled : List Event := List.replicate outgoingCapacity (.client (.send .exit))
    let t : List Event :=
      filled ++ [.move 0 (.stage .start), .move 0 (.pinger .starts), .move 50 (.pinger .ticks),
        .move 100 (.sender .takes), .move 100 (.pinger .offers), .move 100 (.pinger .ticks),
        .move 101 (.sender (.wrote (.ok 9))), .move 101 (.sender .takes),
        .move 101 (.pinger .offers), .move 102 (.sender (.wrote (.error .endOfStream))),
        .move 110 (.pinger .ticks), .move 110 (.pinger .offers)]
    ∃ s₀ s, new? 7 ⟨false, false⟩ { pingInterval := 10 } {} {} = some s₀ ∧
      run? State.act? s₀ t = some s ∧ Timely t ∧
      pinged s₀ t = [(100, .ping), (101, .ping)] ∧ stranded s₀ t = [110] ∧
      (pinged s₀ t).countP (·.1 ≤ 101) ≤ 101 / 10 ∧ s.pinger = .finished .complete := by
  intro filled t
  obtain ⟨s₀, s, hnew, hrun, hpinged, hstranded, hstarting, hinterval⟩ : ∃ s₀ s,
      new? 7 ⟨false, false⟩ { pingInterval := 10 } {} {} = some s₀ ∧
      run? State.act? s₀ t = some s ∧ pinged s₀ t = [(100, .ping), (101, .ping)] ∧
      stranded s₀ t = [110] ∧ s₀.pinger = .starting ∧ s₀.pingInterval = 10 :=
    ⟨_, _, rfl, rfl, rfl, rfl, rfl, rfl⟩
  have htimely : Timely t := by decide
  obtain ⟨-, hpace, -, -, hcomplete, -⟩ :=
    pings_keep_pace hstarting (by rw [hinterval]; decide) hrun htimely
  refine ⟨s₀, s, hnew, hrun, htimely, hpinged, hstranded, ?_, ?_⟩
  · have hcount := (hpace 0 (by simp [t])).2 101
    rw [hinterval] at hcount
    exact hcount
  · rw [hcomplete, hstranded]
    simp

end Wiretap.Session
