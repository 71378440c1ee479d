import Wiretap.Proofs.Session.Outgoing
import Wiretap.Proofs.Session.Stage

/-!
# Priming the agent

A session primes its agent once: after a delay it queues one message for each option that it
switches on, and gives up where the sender is gone.

Results:

* `primeStep_of_stepStage?`: what a move of the session's own task does to the priming.
* `primes_of_run?`: what the priming has queued is the beginning of its list of options.
* `delayed_of_run?`: with a clock that never goes back, nothing of it is queued before the delay is
  over.
-/

namespace Wiretap.Session

/-- The messages by which an agent is primed. -/
def handshake : List Message := primedOptions.map .enableOption

/-- What an event queues for the priming, with the time. -/
def State.primes (s : State) : Event → List (Nat × Message)
  | .move now (.stage m) => (s.enqueued (.move now (.stage m))).map (now, ·)
  | _ => []

/-- What was queued for the priming in the course of a run, with the times. -/
def primed (s : State) (t : List Event) : List (Nat × Message) :=
  history State.act? State.primes s t

variable {s s' : State} {t : List Event}

theorem primed_concat (h : run? State.act? s t = some s') (e : Event) :
    primed s (t ++ [e]) = primed s t ++ s'.primes e := history_concat t e h

/-- The time of an event, where it has one. -/
def Event.time? : Event → Option Nat
  | .move now _ => some now
  | _ => none

/-- The clock never goes back in the course of a run. -/
def Timely (t : List Event) : Prop := (t.filterMap Event.time?).Pairwise (· ≤ ·)

instance (t : List Event) : Decidable (Timely t) :=
  inferInstanceAs (Decidable ((t.filterMap Event.time?).Pairwise (· ≤ ·)))

theorem timely_concat {e : Event} : Timely (t ++ [e]) ↔
    Timely t ∧ ∀ now, e.time? = some now → ∀ e' ∈ t, ∀ past, e'.time? = some past → past ≤ now := by
  unfold Timely
  rw [List.filterMap_append, List.pairwise_append]
  have hlast : ([e].filterMap Event.time?).Pairwise (· ≤ ·) := by
    cases htime : e.time? <;> simp [htime]
  refine and_congr_right fun _ => ⟨fun h now hnow e' he' past hpast => ?_, fun h => ⟨hlast, ?_⟩⟩
  · refine h.2 past (List.mem_filterMap.mpr ⟨e', he', hpast⟩) now ?_
    exact List.mem_filterMap.mpr ⟨e, List.mem_singleton_self e, hnow⟩
  · intro past hpast now hnow
    obtain ⟨e', he', hpast⟩ := List.mem_filterMap.mp hpast
    obtain ⟨e'', he'', hnow⟩ := List.mem_filterMap.mp hnow
    rw [List.mem_singleton.mp he''] at hnow
    exact h now hnow e' he' past hpast

/-! ## One event -/

/-- The priming is done, was given up, or will never begin. -/
def Stage.isPrimed : Stage → Bool
  | .created | .delaying _ | .priming _ _ => false
  | _ => true

/-- What a move of the session's own task does to the priming, where it queues these messages and
leads to that stage. -/
inductive PrimeStep (now : Nat) (s : State) : StageMove → List Message → Stage → Prop where
  | starts (hstage : s.stage = .created) :
      PrimeStep now s .start [] (.delaying (now + s.handshakeDelay))
  | begins {due : Nat} (hstage : s.stage = .delaying due) (hdue : due ≤ now) :
      PrimeStep now s .prime [] (.priming primedOptions now)
  | queues {option : UInt32} {options : List UInt32} {since : Nat}
      (hstage : s.stage = .priming (option :: options) since) :
      PrimeStep now s .prime [.enableOption option] (.priming options since)
  | passes {m : StageMove} {stage : Stage} (hm : m ≠ .start) (hstage : s.stage ≠ .created)
      (hprimed : stage.isPrimed = true) : PrimeStep now s m [] stage

variable {now : Nat}

theorem isPrimed_stageAfter (c : Closing) : (State.stageAfter c).isPrimed = true := by
  cases c <;> rfl

theorem primeStep_of_stepStage? {m : StageMove} (h : s.stepStage? now m = some s') :
    PrimeStep now s m (s.enqueued (.move now (.stage m))) s'.stage := by
  have hpasses {m : StageMove} {stage : Stage} (hm : m ≠ .start) (hstage : s.stage ≠ .created)
      (hprimed : stage.isPrimed = true) : PrimeStep now s m [] stage := .passes hm hstage hprimed
  unfold State.stepStage? at h
  split at h
  -- it starts
  next hstage =>
    cases h
    exact .starts hstage
  -- it heeds that it is cancelled
  next hstage =>
    split at h <;> cases h
    exact hpasses (by simp) (by simp [hstage]) rfl
  next hstage =>
    split at h <;> cases h
    exact hpasses (by simp) (by simp [hstage]) rfl
  next hstage =>
    split at h <;> cases h
    exact hpasses (by simp) (by simp [hstage]) rfl
  -- it primes the agent
  next due hstage =>
    split at h <;> cases h
    next hdue =>
      simp only [State.enqueued, hstage]
      exact .begins hstage hdue
  next options since hstage =>
    have hcreated : s.stage ≠ .created := by simp [hstage]
    cases options with
    | nil =>
      cases h
      simp only [State.enqueued, hstage]
      exact hpasses (by simp) hcreated rfl
    | cons option options =>
      simp only [State.enqueued, hstage]
      simp only [State.primeNext?] at h
      split at h <;> cases h
      next outgoing hsend =>
        rw [accepts_of_offer hsend]
        exact .queues hstage
      next hsend =>
        rw [accepts_of_refused hsend]
        exact hpasses (by simp) hcreated rfl
  -- it closes the connection
  next hstage =>
    split at h <;> cases h
    exact hpasses (by simp) (by simp [hstage]) (isPrimed_stageAfter _)
  next hstage =>
    cases h
    exact hpasses (by simp) (by simp [hstage]) rfl
  next hstage =>
    cases h
    exact hpasses (by simp) (by simp [hstage]) rfl
  next => cases h

/-- What an event does to the priming. -/
inductive Primes (s : State) : Event → List (Nat × Message) → Stage → Prop where
  | moves {now : Nat} {m : StageMove} {ms : List Message} {stage : Stage}
      (hstep : PrimeStep now s m ms stage) :
      Primes s (.move now (.stage m)) (ms.map (now, ·)) stage
  | stands {e : Event} (hstart : ∀ now m, e ≠ .move now (.stage m)) : Primes s e [] s.stage
  | drops : Primes s .drop [] .dropped

theorem primes_of_act? {e : Event} (h : s.act? e = some s') :
    Primes s e (s.primes e) s'.stage := by
  cases e with
  | move now m =>
    cases moves_of_step? h with
    | stage hmove => exact .moves (primeStep_of_stepStage? hmove)
    | sender hmove =>
      obtain ⟨_, _, rfl⟩ := eq_of_stepSender? hmove
      exact .stands fun _ _ => nofun
    | receiver hmove =>
      obtain ⟨_, _, _, _, rfl⟩ := eq_of_stepReceiver? hmove
      exact .stands fun _ _ => nofun
    | decoder hmove =>
      obtain ⟨_, _, _, _, _, rfl⟩ := eq_of_stepDecoder? hmove
      exact .stands fun _ _ => nofun
    | pinger hmove =>
      obtain ⟨_, _, _, rfl⟩ := eq_of_stepPinger? hmove
      exact .stands fun _ _ => nofun
  | client c =>
    obtain ⟨_, _, _, _, rfl⟩ := eq_of_serve? h
    exact .stands fun _ _ => nofun
  | cancel =>
    cases h
    exact .stands fun _ _ => nofun
  | drop =>
    simp only [State.act?] at h
    split at h <;> cases h
    exact .drops

/-! ## Runs -/

/-- How far the priming is, where it has queued these messages. -/
structure Priming (queued : List Message) (s : State) : Prop where
  isPrefix : queued <+: handshake
  before : s.stage.isPrimed = false → (∀ options since, s.stage ≠ .priming options since) →
    queued = []
  during : ∀ options since, s.stage = .priming options since →
    queued ++ options.map .enableOption = handshake

theorem Priming.next {queued : List Message} {e : Event} {ps : List (Nat × Message)}
    (h : Priming queued s) (hstep : Primes s e ps s'.stage) :
    Priming (queued ++ ps.map Prod.snd) s' := by
  generalize hstage' : s'.stage = stage' at hstep
  cases hstep with
  | @moves now m ms stage hstep =>
    have hms : (ms.map fun m => (now, m)).map Prod.snd = ms := by
      rw [List.map_map]
      exact List.map_id ms
    rw [hms]
    cases hstep with
    | starts hstage =>
      rw [List.append_nil]
      have hqueued : queued = [] := h.before (by rw [hstage]; rfl) (by rw [hstage]; nofun)
      exact ⟨h.isPrefix, fun _ _ => hqueued, by rw [hstage']; nofun⟩
    | begins hstage hdue =>
      rw [List.append_nil]
      have hqueued : queued = [] := h.before (by rw [hstage]; rfl) (by rw [hstage]; nofun)
      refine ⟨h.isPrefix, fun _ hpriming => absurd hstage' (hpriming _ _), fun options since hs => ?_⟩
      rw [hstage'] at hs
      cases hs
      rw [hqueued]
      rfl
    | @queues option options since hstage =>
      have hrest := h.during _ _ hstage
      rw [List.map_cons, List.append_cons] at hrest
      refine ⟨⟨_, hrest⟩, fun _ hpriming => absurd hstage' (hpriming _ _), fun options since hs => ?_⟩
      rw [hstage'] at hs
      cases hs
      exact hrest
    | passes hm hstage hprimed =>
      rw [List.append_nil]
      refine ⟨h.isPrefix, fun hnot => ?_, fun options since hs => ?_⟩
      · rw [hstage', hprimed] at hnot
        cases hnot
      · rw [← hstage', hs] at hprimed
        cases hprimed
  | stands =>
    rw [List.map_nil, List.append_nil]
    exact ⟨h.isPrefix, by rw [hstage']; exact h.before, by rw [hstage']; exact h.during⟩
  | drops =>
    rw [List.map_nil, List.append_nil]
    exact ⟨h.isPrefix, by rw [hstage']; nofun, by rw [hstage']; nofun⟩

section Runs

variable {id : UInt32} {conn : Connection} {hook : HookConfig} {r : Block.Registry}
variable {policy : RestartPolicy} {s₀ : State}

theorem primes_of_run? (hnew : new? id conn hook r policy = some s₀)
    (hrun : run? State.act? s₀ t = some s) : Priming ((primed s₀ t).map Prod.snd) s := by
  have hstart : Priming [] s₀ := by
    obtain ⟨-, rfl⟩ := eq_of_new? hnew
    exact ⟨List.nil_prefix, fun _ _ => rfl, nofun⟩
  refine run?_invariant (motive := fun t s => Priming ((primed s₀ t).map Prod.snd) s) hstart ?_ hrun
  intro past s₁ e s₂ hpast hprimes hact
  rw [primed_concat hpast, List.map_append]
  exact hprimes.next (primes_of_act? hact)

/-- The session has started at that time, and at no other. -/
def StartedAt (start : Nat) (t : List Event) : Prop :=
  ∀ now, .move now (.stage .start) ∈ t ↔ now = start

theorem StartedAt.concat {start : Nat} (h : StartedAt start t) {e : Event}
    (he : ∀ now, e ≠ .move now (.stage .start)) : StartedAt start (t ++ [e]) := by
  intro now
  rw [List.mem_append, List.mem_singleton, h now]
  exact or_iff_left (he now).symm

/-- What the times of a run have to do with the delay of the priming, where `ps` was queued for
it. -/
structure Delayed (delay : Nat) (t : List Event) (ps : List (Nat × Message)) (s : State) :
    Prop where
  delay_eq : s.handshakeDelay = delay
  created : s.stage = .created → ∀ now, .move now (.stage .start) ∉ t
  delaying : ∀ due, s.stage = .delaying due → ∃ start, StartedAt start t ∧ due = start + delay
  priming : ∀ options since, s.stage = .priming options since →
    .move since (.stage .prime) ∈ t ∧ ∃ start, StartedAt start t ∧ start + delay ≤ since
  queued : ∀ p ∈ ps, ∃ start, StartedAt start t ∧ start + delay ≤ p.1

namespace Delayed

variable {delay : Nat} {e : Event} {ps : List (Nat × Message)}

/-- The delay still counts from the same start. -/
theorem later (hstart : ∀ now, e ≠ .move now (.stage .start)) {limit : Nat}
    (h : ∃ start, StartedAt start t ∧ start + delay ≤ limit) :
    ∃ start, StartedAt start (t ++ [e]) ∧ start + delay ≤ limit := by
  obtain ⟨start, hstarted, hle⟩ := h
  exact ⟨start, hstarted.concat hstart, hle⟩

/-- After the priming there is nothing to wait for. -/
theorem primed (h : Delayed delay t ps s) (hdelay : s'.handshakeDelay = s.handshakeDelay)
    (hstart : ∀ now, e ≠ .move now (.stage .start)) (hprimed : s'.stage.isPrimed = true) :
    Delayed delay (t ++ [e]) ps s' := by
  refine ⟨hdelay.trans h.delay_eq, fun hs => ?_, fun _ hs => ?_, fun _ _ hs => ?_,
    fun p hp => later hstart (h.queued p hp)⟩
  all_goals
    rw [hs] at hprimed
    cases hprimed

theorem stands (h : Delayed delay t ps s) (hdelay : s'.handshakeDelay = s.handshakeDelay)
    (hstart : ∀ now, e ≠ .move now (.stage .start)) (hstage : s'.stage = s.stage) :
    Delayed delay (t ++ [e]) ps s' := by
  refine ⟨hdelay.trans h.delay_eq, fun hs now hmem => ?_, fun due hs => ?_,
    fun options since hs => ?_, fun p hp => later hstart (h.queued p hp)⟩
  · rcases List.mem_append.mp hmem with hmem | hmem
    · exact h.created (hstage.symm.trans hs) now hmem
    · exact hstart now (List.mem_singleton.mp hmem).symm
  · obtain ⟨start, hst, hdue⟩ := h.delaying due (hstage.symm.trans hs)
    exact ⟨start, hst.concat hstart, hdue⟩
  · obtain ⟨hsince, hstarted⟩ := h.priming options since (hstage.symm.trans hs)
    exact ⟨List.mem_append_left _ hsince, later hstart hstarted⟩

theorem starts (h : Delayed delay t ps s) (hdelay : s'.handshakeDelay = s.handshakeDelay)
    {now : Nat} (hstage : s.stage = .created)
    (hstage' : s'.stage = .delaying (now + s.handshakeDelay)) :
    Delayed delay (t ++ [.move now (.stage .start)]) ps s' := by
  have hnone := h.created hstage
  have hstarted : StartedAt now (t ++ [.move now (.stage .start)]) := by
    intro now'
    rw [List.mem_append, List.mem_singleton, or_iff_right (hnone now')]
    exact ⟨fun heq => by cases heq; rfl, fun heq => by rw [heq]⟩
  refine ⟨hdelay.trans h.delay_eq, by simp [hstage'], fun due hs => ⟨now, hstarted, ?_⟩,
    by simp [hstage'], fun p hp => ?_⟩
  · rw [hstage'] at hs
    cases hs
    rw [h.delay_eq]
  · -- nothing was queued for the priming of a session that has not started
    obtain ⟨start, hs, -⟩ := h.queued p hp
    exact absurd ((hs start).mpr rfl) (hnone start)

theorem next {new : List (Nat × Message)} (h : Delayed delay t ps s)
    (hdelay : s'.handshakeDelay = s.handshakeDelay) (hstep : Primes s e new s'.stage)
    (htimely : Timely (t ++ [e])) : Delayed delay (t ++ [e]) (ps ++ new) s' := by
  generalize hstage' : s'.stage = stage' at hstep
  cases hstep with
  | @moves now m ms stage hstep =>
    cases hstep with
    | starts hstage =>
      rw [List.map_nil, List.append_nil]
      exact h.starts hdelay hstage hstage'
    | @begins due hstage hdue =>
      rw [List.map_nil, List.append_nil]
      have hstart : ∀ now', Event.move now (.stage .prime) ≠ .move now' (.stage .start) := by simp
      refine ⟨hdelay.trans h.delay_eq, by simp [hstage'], by simp [hstage'],
        fun options since hs => ?_, fun p hp => later hstart (h.queued p hp)⟩
      rw [hstage'] at hs
      cases hs
      obtain ⟨start, hs, rfl⟩ := h.delaying due hstage
      exact ⟨List.mem_append_right t (List.mem_singleton_self _), start, hs.concat hstart, hdue⟩
    | @queues option options since hstage =>
      have hstart : ∀ now', Event.move now (.stage .prime) ≠ .move now' (.stage .start) := by simp
      obtain ⟨hsince, hstarted⟩ := h.priming _ _ hstage
      refine ⟨hdelay.trans h.delay_eq, by simp [hstage'], by simp [hstage'],
        fun options since' hs => ?_, fun p hp => ?_⟩
      · rw [hstage'] at hs
        cases hs
        exact ⟨List.mem_append_left _ hsince, later hstart hstarted⟩
      · rcases List.mem_append.mp hp with hp | hp
        · exact later hstart (h.queued p hp)
        · rw [List.map_singleton, List.mem_singleton] at hp
          have hle : since ≤ now := (timely_concat.mp htimely).2 now rfl _ hsince since rfl
          obtain ⟨start, hs, hdue⟩ := later hstart hstarted
          rw [hp]
          exact ⟨start, hs, Nat.le_trans hdue hle⟩
    | passes hm hstage hprimed =>
      rw [List.map_nil, List.append_nil]
      refine h.primed hdelay (fun now' heq => ?_) (hstage' ▸ hprimed)
      cases heq
      exact hm rfl
  | stands hstart =>
    rw [List.append_nil]
    exact h.stands hdelay (fun now => hstart now .start) hstage'
  | drops =>
    rw [List.append_nil]
    exact h.primed hdelay (by simp) (by rw [hstage']; rfl)

end Delayed

theorem delayed_of_run? (hnew : new? id conn hook r policy = some s₀)
    (hrun : run? State.act? s₀ t = some s) (htimely : Timely t) :
    Delayed hook.handshakeDelay.toNat t (primed s₀ t) s := by
  have hstart : Delayed hook.handshakeDelay.toNat [] [] s₀ := by
    obtain ⟨-, rfl⟩ := eq_of_new? hnew
    exact ⟨rfl, fun _ _ => List.not_mem_nil, nofun, nofun,
      fun p hp => absurd hp List.not_mem_nil⟩
  refine run?_invariant
    (motive := fun t s => Timely t → Delayed hook.handshakeDelay.toNat t (primed s₀ t) s)
    (fun _ => hstart) ?_ hrun htimely
  intro past s₁ e s₂ hpast hdelayed hact htimely
  rw [primed_concat hpast]
  exact (hdelayed (timely_concat.mp htimely).1).next (settings_of_act? hact).1
    (primes_of_act? hact) htimely

end Runs

end Wiretap.Session
