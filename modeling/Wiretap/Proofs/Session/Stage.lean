import Wiretap.Proofs.Session.Event

/-!
# The stages of a session

The session's own task goes from stage to stage, and only it does: it brings the session up, waits,
tells the services to stop, and closes the connection. The services leave alone where the session
stands.

Results:

* `stageStep_of_stepStage?`: what a move of the session's own task does.
* `standing_stepSender?`, `standing_stepReceiver?`, `standing_stepDecoder?`, `standing_stepPinger?`:
  the services change nothing of it.
* `advances_of_act?`: what any event does to where the session stands.
-/

namespace Wiretap.Session

/-- The session runs and has not seen that it is cancelled. -/
def Stage.isActive : Stage → Bool
  | .delaying _ | .priming _ _ | .primed => true
  | _ => false

/-- What the session's own task can do. -/
inductive StageStep (now : Nat) (s : State) : State → Prop where
  | starts (hstage : s.stage = .created) :
      StageStep now s { s with stage := .delaying (now + s.handshakeDelay) }
  | heeds (hactive : s.stage.isActive = true) (hcancelled : s.cancelled = true) :
      StageStep now s { s with stage := .stopping, halted := true }
  | primes {outgoing : Queue Message} {stage : Stage} (hactive : s.stage.isActive = true)
      (hactive' : stage.isActive = true) : StageStep now s { s with outgoing, stage }
  | gathers (hstage : s.stage = .stopping) (hover : s.servicesOver = true) :
      StageStep now s
        { s with conn := s.conn.beginClose.1, stage := State.stageAfter s.conn.beginClose.2 }
  | bids (hstage : s.stage = .closing .farewell) :
      StageStep now s { s with stage := .closing .hangUp }
  | finishes (hstage : s.stage = .closing .hangUp) : StageStep now s { s with stage := .finished }

/-- What decides how far a session is, and what it has handed out. -/
structure Standing where
  stage : Stage
  cancelled : Bool
  halted : Bool
  subscribed : List Block.Direction

def State.standing (s : State) : Standing := ⟨s.stage, s.cancelled, s.halted, s.subscribed⟩

variable {s s' : State} {now : Nat}

theorem stageStep_of_stepStage? {m : StageMove} (h : s.stepStage? now m = some s') :
    StageStep now s s' := by
  unfold State.stepStage? at h
  split at h
  -- it starts
  next hstage =>
    cases h
    exact .starts hstage
  -- it heeds that it is cancelled
  next hstage =>
    split at h <;> cases h
    next hcancelled => exact .heeds (congrArg Stage.isActive hstage) hcancelled
  next hstage =>
    split at h <;> cases h
    next hcancelled => exact .heeds (congrArg Stage.isActive hstage) hcancelled
  next hstage =>
    split at h <;> cases h
    next hcancelled => exact .heeds (congrArg Stage.isActive hstage) hcancelled
  -- it primes the agent
  next hstage =>
    split at h <;> cases h
    exact .primes (congrArg Stage.isActive hstage) rfl
  next options since hstage =>
    have hactive := congrArg Stage.isActive hstage
    cases options with
    | nil =>
      cases h
      exact .primes hactive rfl
    | cons option options =>
      simp only [State.primeNext?] at h
      split at h <;> cases h
      · exact .primes hactive rfl
      · exact .primes hactive rfl
  -- it closes the connection
  next hstage =>
    split at h <;> cases h
    next hover => exact .gathers hstage hover
  next hstage =>
    cases h
    exact .bids hstage
  next hstage =>
    cases h
    exact .finishes hstage
  next => cases h

theorem standing_stepSender? {m : SenderMove} (h : s.stepSender? m = some s') :
    s'.standing = s.standing := by
  obtain ⟨_, _, rfl⟩ := eq_of_stepSender? h
  rfl

theorem standing_stepReceiver? {m : ReceiverMove} (h : s.stepReceiver? m = some s') :
    s'.standing = s.standing := by
  obtain ⟨_, _, _, _, rfl⟩ := eq_of_stepReceiver? h
  rfl

theorem standing_stepDecoder? {m : DecoderMove} (h : s.stepDecoder? m = some s') :
    s'.standing = s.standing := by
  obtain ⟨_, _, _, _, _, rfl⟩ := eq_of_stepDecoder? h
  rfl

theorem standing_stepPinger? {m : PingerMove} (h : s.stepPinger? now m = some s') :
    s'.standing = s.standing := by
  obtain ⟨_, _, _, rfl⟩ := eq_of_stepPinger? h
  rfl

theorem standing_serve? {c : ClientEvent} (h : s.serve? c = some s')
    (hc : ∀ d, c ≠ .subscribe d) : s'.standing = s.standing := by
  unfold State.serve? at h
  split at h
  next d => exact absurd rfl (hc d)
  next =>
    split at h
    next =>
      split at h <;> cases h
      obtain ⟨_, _, hset⟩ := State.eq_of_setBlocks s _ _
      rw [hset]
      rfl
    next => cases h
  next =>
    split at h <;> cases h
    obtain ⟨_, _, hset⟩ := State.eq_of_setBlocks s _ _
    rw [hset]
    rfl
  next =>
    split at h <;> cases h
    rfl

/-- What an event does to where the session stands. -/
inductive Advances (s : State) : Event → State → Prop where
  | moves {now : Nat} {m : StageMove} {s' : State} (hstep : StageStep now s s') :
      Advances s (.move now (.stage m)) s'
  | stands {e : Event} {s' : State} (hsubscribe : ∀ d, e ≠ .client (.subscribe d))
      (hstanding : s'.standing = s.standing) : Advances s e s'
  | subscribes {d : Block.Direction} :
      Advances s (.client (.subscribe d)) { s with subscribed := d :: s.subscribed }
  | cancels : Advances s .cancel { s with cancelled := true }
  | drops (hstage : s.stage = .created) : Advances s .drop s.dropped

theorem advances_of_act? {e : Event} (h : s.act? e = some s') : Advances s e s' := by
  cases e with
  | move now m =>
    cases moves_of_step? h with
    | stage hmove => exact .moves (stageStep_of_stepStage? hmove)
    | sender hmove => exact .stands (fun _ => nofun) (standing_stepSender? hmove)
    | receiver hmove => exact .stands (fun _ => nofun) (standing_stepReceiver? hmove)
    | decoder hmove => exact .stands (fun _ => nofun) (standing_stepDecoder? hmove)
    | pinger hmove => exact .stands (fun _ => nofun) (standing_stepPinger? hmove)
  | client c =>
    have h : s.serve? c = some s' := h
    cases c with
    | subscribe d =>
      simp only [State.serve?, State.subscribe?] at h
      split at h <;> cases h
      exact .subscribes
    | receive d b => exact .stands (fun _ => nofun) (standing_serve? h fun _ => nofun)
    | unsubscribe d => exact .stands (fun _ => nofun) (standing_serve? h fun _ => nofun)
    | send m => exact .stands (fun _ => nofun) (standing_serve? h fun _ => nofun)
  | cancel =>
    cases h
    exact .cancels
  | drop =>
    simp only [State.act?] at h
    split at h <;> cases h
    next hstage => exact .drops hstage

/-! ## What stays -/

theorem State.standing_eq_iff : s'.standing = s.standing ↔
    s'.stage = s.stage ∧ s'.cancelled = s.cancelled ∧ s'.halted = s.halted ∧
      s'.subscribed = s.subscribed := by
  simp [State.standing]

theorem State.hasStarted_congr (h : s'.stage = s.stage) : s'.hasStarted = s.hasStarted := by
  unfold State.hasStarted
  rw [h]

theorem hasStarted_of_isActive (h : s.stage.isActive = true) : s.hasStarted = true := by
  unfold State.hasStarted
  split <;> simp_all [Stage.isActive]

theorem StageStep.hasStarted (h : StageStep now s s') : s'.hasStarted = true := by
  cases h with
  | primes _ hactive' => exact hasStarted_of_isActive hactive'
  | gathers =>
    cases hclosing : s.conn.beginClose.2 <;> simp [State.hasStarted, State.stageAfter]
  | _ => rfl

theorem StageStep.stage_ne_dropped (h : StageStep now s s') : s.stage ≠ .dropped := by
  intro hdropped
  cases h <;> simp_all [Stage.isActive]

namespace Advances

variable {e : Event}

theorem hasStarted (h : Advances s e s') (hs : s.hasStarted = true) : s'.hasStarted = true := by
  cases h with
  | moves hstep => exact hstep.hasStarted
  | stands _ hstanding => rw [State.hasStarted_congr (congrArg Standing.stage hstanding), hs]
  | subscribes => exact hs
  | cancels => exact hs
  | drops hstage => simp [State.hasStarted, hstage] at hs

theorem dropped (h : Advances s e s') (hs : s.stage = .dropped) : s'.stage = .dropped := by
  cases h with
  | moves hstep => exact absurd hs hstep.stage_ne_dropped
  | stands _ hstanding => exact (congrArg Standing.stage hstanding).trans hs
  | subscribes => exact hs
  | cancels => exact hs
  | drops => rfl

theorem halted (h : Advances s e s') (hs : s.halted = true) : s'.halted = true := by
  cases h with
  | moves hstep => cases hstep <;> first | rfl | exact hs
  | stands _ hstanding => exact (congrArg Standing.halted hstanding).trans hs
  | subscribes => exact hs
  | cancels => exact hs
  | drops => exact hs

/-- Only a cancelled session tells its services to stop. -/
theorem cancelled_of_halted (h : Advances s e s') (hs : s.halted = true → s.cancelled = true)
    (hs' : s'.halted = true) : s'.cancelled = true := by
  cases h with
  | moves hstep =>
    cases hstep with
    | heeds _ hcancelled => exact hcancelled
    | _ => exact hs hs'
  | stands _ hstanding =>
    obtain ⟨-, hcancelled, hhalted, -⟩ := State.standing_eq_iff.mp hstanding
    rw [hhalted] at hs'
    rw [hcancelled, hs hs']
  | subscribes => exact hs hs'
  | cancels => rfl
  | drops => exact hs hs'

/-- Only a session that has started tells its services to stop. -/
theorem hasStarted_of_halted (h : Advances s e s') (hs : s.halted = true → s.hasStarted = true)
    (hs' : s'.halted = true) : s'.hasStarted = true := by
  cases h with
  | moves hstep => exact hstep.hasStarted
  | stands _ hstanding =>
    obtain ⟨hstage, -, hhalted, -⟩ := State.standing_eq_iff.mp hstanding
    rw [hhalted] at hs'
    rw [State.hasStarted_congr hstage, hs hs']
  | subscribes => exact hs hs'
  | cancels => exact hs hs'
  | drops hstage =>
    have hstarted := hs hs'
    rw [State.hasStarted, hstage] at hstarted
    cases hstarted

theorem eq_cancel (h : Advances s e s') (hs' : s'.cancelled = true) :
    s.cancelled = true ∨ e = .cancel := by
  cases h with
  | moves hstep => cases hstep <;> exact .inl hs'
  | stands _ hstanding => exact .inl ((congrArg Standing.cancelled hstanding).symm.trans hs')
  | subscribes => exact .inl hs'
  | cancels => exact .inr rfl
  | drops => exact .inl hs'

theorem mem_subscribed (h : Advances s e s') {d : Block.Direction}
    (hd : d ∈ s.subscribed ∨ e = .client (.subscribe d)) : d ∈ s'.subscribed := by
  cases h with
  | moves hstep =>
    have hd := hd.resolve_right nofun
    cases hstep <;> exact hd
  | stands hsubscribe hstanding =>
    rw [(State.standing_eq_iff.mp hstanding).2.2.2]
    exact hd.resolve_right (hsubscribe d)
  | @subscribes d' =>
    rcases hd with hd | hd
    · exact List.mem_cons_of_mem d' hd
    · cases hd
      exact List.mem_cons_self
  | cancels => exact hd.resolve_right nofun
  | drops => exact hd.resolve_right nofun

end Advances

end Wiretap.Session
