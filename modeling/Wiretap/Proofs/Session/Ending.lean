import Wiretap.Proofs.Session.Stage

/-!
# How a session ends

A session closes its connection once its services are over, and is over itself after that. From then
on nothing moves in it.

Results:

* `Orderly.next`: whatever happens to a session, it keeps to this order.
* `Orderly.step?_of_isOver`: a session that is over makes no move.
* `isOver_of_act?`: and it stays over.
* `Dutiful.next`, `Dutiful.not_isOver`: a session does not end before it is told to stop.
-/

namespace Wiretap.Session

/-- The services of the session are over, and it closes its connection or has done so. -/
def Stage.isClosing : Stage → Bool
  | .closing _ | .finished => true
  | _ => false

/-- A session is over with all its services, and its connection is closed. -/
structure State.HasEnded (s : State) : Prop where
  isOver : s.isOver = true
  services : s.servicesOver = true
  closed : s.conn.closed = true

/-- The order in which things come to an end. -/
structure Orderly (s : State) : Prop where
  closing : s.stage.isClosing = true → s.servicesOver = true ∧ s.conn.closed = true
  /-- A pinger that is not run again has stopped. -/
  pinger : s.pingerLife.isOver = true → ∃ e, s.pinger = .finished e

variable {s s' : State} {now : Nat}

theorem Stage.isClosing_of_isActive {stage : Stage} (h : stage.isActive = true) :
    stage.isClosing = false := by
  unfold isActive at h
  split at h
  next => rfl
  next => rfl
  next => rfl
  next => cases h

theorem State.isClosing_of_isOver (h : s.isOver = true) : s.stage.isClosing = true := by
  unfold State.isOver at h
  split at h
  next hstage => rw [hstage]; rfl
  next => cases h

theorem State.isOver_congr (h : s'.stage = s.stage) : s'.isOver = s.isOver := by
  unfold State.isOver
  rw [h]

/-! ## Services that are over -/

theorem State.servicesOver_iff : s.servicesOver = true ↔
    s.sender.isOver = true ∧ s.receiver.isOver = true ∧ s.decoder.isOver = true ∧
      s.pingerLife.isOver = true := by
  simp [State.servicesOver, and_assoc]

theorem stepSender?_of_isOver {m : SenderMove} (h : s.sender.isOver = true) :
    s.stepSender? m = none := by
  cases hsender : s.sender with
  | finished e => exact State.stepSender?_finished hsender
  | _ => rw [hsender] at h; cases h

theorem stepReceiver?_of_isOver {m : ReceiverMove} (h : s.receiver.isOver = true) :
    s.stepReceiver? m = none := by
  cases hreceiver : s.receiver with
  | finished e => exact State.stepReceiver?_finished hreceiver
  | _ => rw [hreceiver] at h; cases h

theorem stepDecoder?_of_isOver {m : DecoderMove} (h : s.decoder.isOver = true) :
    s.stepDecoder? m = none := by
  cases hdecoder : s.decoder with
  | finished e => exact State.stepDecoder?_finished hdecoder
  | _ => rw [hdecoder] at h; cases h

theorem State.finished_endPinger {e : Exit} (h : s.pingerLife.isOver = false)
    (hover : (s.endPinger now e).pingerLife.isOver = true) :
    ∃ e', (s.endPinger now e).pinger = .finished e' := by
  unfold State.endPinger at hover ⊢
  split at hover
  next failures hlife =>
    have hlast : (Life.ended s.policy now s.halted failures e).isOver = true := hover
    exact ⟨e, if_pos hlast⟩
  next =>
    rw [h] at hover
    cases hover

/-- A run that is the last one leaves the pinger stopped. -/
theorem finished_stepPinger? {m : PingerMove} (h : s.stepPinger? now m = some s')
    (hrunning : s.pingerLife.isOver = false) (hover : s'.pingerLife.isOver = true) :
    ∃ e, s'.pinger = .finished e := by
  have hsame : s'.pingerLife ≠ s.pingerLife := by
    intro hlife
    rw [hlife, hrunning] at hover
    cases hover
  unfold State.stepPinger? at h
  split at h
  -- it starts
  next =>
    split at h
    next =>
      split at h <;> cases h
      next => exact absurd rfl hsame
      next => exact State.finished_endPinger hrunning hover
    next => cases h
  -- it ticks, and queues a ping
  next =>
    split at h <;> cases h
    exact absurd rfl hsame
  next =>
    split at h <;> cases h
    next => exact absurd rfl hsame
    next => exact State.finished_endPinger hrunning hover
  -- it sees that it is told to stop
  next =>
    split at h <;> cases h
    exact State.finished_endPinger hrunning hover
  next =>
    split at h <;> cases h
    exact State.finished_endPinger hrunning hover
  -- its rest ends
  next =>
    obtain ⟨life, -, rfl⟩ := Option.map_eq_some_iff.mp h
    have hlast : life.isOver = true := hover
    exact ⟨.stopped, if_pos hlast⟩
  next => cases h

theorem StageStep.not_over (h : StageStep now s s') : s.isOver = false := by
  cases hover : s.isOver with
  | false => rfl
  | true =>
    have hclosing := State.isClosing_of_isOver hover
    cases h with
    | heeds hactive | primes hactive =>
      rw [Stage.isClosing_of_isActive hactive] at hclosing
      cases hclosing
    | starts hstage | gathers hstage | bids hstage | finishes hstage =>
      rw [State.isOver, hstage] at hover
      cases hover

/-! ## One event -/

namespace Orderly

/-- Where a service can still move, the session does not close its connection yet. -/
theorem not_closing (h : Orderly s) (hrunning : s.servicesOver = false) :
    s.stage.isClosing = false := by
  cases hclosing : s.stage.isClosing with
  | false => rfl
  | true =>
    rw [(h.closing hclosing).1] at hrunning
    cases hrunning

theorem stepPinger?_of_isOver (h : Orderly s) {m : PingerMove}
    (hover : s.pingerLife.isOver = true) : s.stepPinger? now m = none := by
  obtain ⟨e, hpinger⟩ := h.pinger hover
  exact State.stepPinger?_finished hpinger

/-- A service that can move is not over. -/
theorem servicesOver_of_moves (h : Orderly s) {m : Move} (hmoves : Moves now s s' m)
    (hm : ∀ m', m ≠ .stage m') : s.servicesOver = false := by
  cases hover : s.servicesOver with
  | false => rfl
  | true =>
    obtain ⟨hsender, hreceiver, hdecoder, hpinger⟩ := State.servicesOver_iff.mp hover
    cases hmoves with
    | @stage m' => exact absurd rfl (hm m')
    | sender hmove => rw [stepSender?_of_isOver hsender] at hmove; cases hmove
    | receiver hmove => rw [stepReceiver?_of_isOver hreceiver] at hmove; cases hmove
    | decoder hmove => rw [stepDecoder?_of_isOver hdecoder] at hmove; cases hmove
    | pinger hmove => rw [h.stepPinger?_of_isOver hpinger] at hmove; cases hmove

theorem of_not_closing (hclosing : s'.stage.isClosing = false)
    (hpinger : s'.pingerLife.isOver = true → ∃ e, s'.pinger = .finished e) : Orderly s' where
  closing hclosing' := by
    rw [hclosing] at hclosing'
    cases hclosing'
  pinger := hpinger

theorem stageStep (h : Orderly s) (hstep : StageStep now s s') : Orderly s' := by
  cases hstep with
  | starts => exact of_not_closing rfl h.pinger
  | heeds => exact of_not_closing rfl h.pinger
  | primes _ hactive' => exact of_not_closing (Stage.isClosing_of_isActive hactive') h.pinger
  | gathers _ hover => exact ⟨fun _ => ⟨hover, s.conn.closed_beginClose⟩, h.pinger⟩
  | bids hstage =>
    exact ⟨fun _ => h.closing (congrArg Stage.isClosing hstage), h.pinger⟩
  | finishes hstage =>
    exact ⟨fun _ => h.closing (congrArg Stage.isClosing hstage), h.pinger⟩

/-- **One move of a session** keeps to the order. -/
theorem step (h : Orderly s) {m : Move} (hstep : s.step? now m = some s') : Orderly s' := by
  have hmoves := moves_of_step? hstep
  have hclosing : (∀ m', m ≠ .stage m') → s.stage.isClosing = false :=
    fun hm => h.not_closing (h.servicesOver_of_moves hmoves hm)
  cases hmoves with
  | stage hmove => exact h.stageStep (stageStep_of_stepStage? hmove)
  | sender hmove =>
    obtain ⟨_, _, rfl⟩ := eq_of_stepSender? hmove
    exact of_not_closing (hclosing fun _ => nofun) h.pinger
  | receiver hmove =>
    obtain ⟨_, _, _, _, rfl⟩ := eq_of_stepReceiver? hmove
    exact of_not_closing (hclosing fun _ => nofun) h.pinger
  | decoder hmove =>
    obtain ⟨_, _, _, _, _, rfl⟩ := eq_of_stepDecoder? hmove
    exact of_not_closing (hclosing fun _ => nofun) h.pinger
  | pinger hmove =>
    have hstage := congrArg Standing.stage (standing_stepPinger? hmove)
    refine of_not_closing ((congrArg Stage.isClosing hstage).trans (hclosing fun _ => nofun))
      (finished_stepPinger? hmove ?_)
    cases hlife : s.pingerLife.isOver with
    | false => rfl
    | true =>
      rw [h.stepPinger?_of_isOver hlife] at hmove
      cases hmove

/-- What clients do has no say in it. -/
theorem serve (h : Orderly s) {c : ClientEvent} (hserve : s.serve? c = some s') : Orderly s' := by
  obtain ⟨_, _, _, _, rfl⟩ := eq_of_serve? hserve
  exact ⟨h.closing, h.pinger⟩

theorem cancel (h : Orderly s) (cancelled : Bool) : Orderly { s with cancelled } :=
  ⟨h.closing, h.pinger⟩

theorem next (h : Orderly s) {e : Event} (hact : s.act? e = some s') : Orderly s' := by
  cases e with
  | move now m => exact h.step hact
  | client c => exact h.serve hact
  | cancel =>
    cases hact
    exact h.cancel true
  | drop =>
    simp only [State.act?] at hact
    split at hact <;> cases hact
    exact of_not_closing rfl h.pinger

theorem hasEnded (h : Orderly s) (hover : s.isOver = true) : s.HasEnded where
  isOver := hover
  services := (h.closing (State.isClosing_of_isOver hover)).1
  closed := (h.closing (State.isClosing_of_isOver hover)).2

/-- **A session that is over makes no move.** -/
theorem step?_of_isOver (h : Orderly s) (hover : s.isOver = true) (m : Move) :
    s.step? now m = none := by
  cases hstep : s.step? now m with
  | none => rfl
  | some s' =>
    have hmoves := moves_of_step? hstep
    cases m with
    | stage m' =>
      rw [(stageStep_of_stepStage? hstep).not_over] at hover
      cases hover
    | _ =>
      have hrunning := h.servicesOver_of_moves hmoves fun _ => nofun
      rw [(h.hasEnded hover).services] at hrunning
      cases hrunning

end Orderly

/-- A session that does not run yet is in order. -/
theorem orderly_of_new? {id : UInt32} {conn : Connection} {hook : HookConfig}
    {registry : Block.Registry} {policy : RestartPolicy}
    (h : new? id conn hook registry policy = some s) : Orderly s := by
  obtain ⟨-, rfl⟩ := eq_of_new? h
  exact ⟨nofun, nofun⟩

/-- **A session that is over stays over.** -/
theorem isOver_of_act? {e : Event} (hact : s.act? e = some s') (hover : s.isOver = true) :
    s'.isOver = true := by
  cases advances_of_act? hact with
  | moves hstep =>
    rw [hstep.not_over] at hover
    cases hover
  | stands _ hstanding => rw [State.isOver_congr (congrArg Standing.stage hstanding), hover]
  | subscribes => exact hover
  | cancels => exact hover
  | drops hstage =>
    rw [State.isOver, hstage] at hover
    cases hover

/-! ## Sessions that were not told to stop -/

/-- The session does not begin to stop before it is told to. -/
def Dutiful (s : State) : Prop :=
  s.cancelled = false → s.stage = .created ∨ s.stage.isActive = true

theorem dutiful_of_created (h : s.stage = .created) : Dutiful s := fun _ => .inl h

namespace Dutiful

theorem not_isOver (h : Dutiful s) (hcancelled : s.cancelled = false) : s.isOver = false := by
  unfold State.isOver
  split
  next hstage =>
    rcases h hcancelled with hcreated | hactive
    · rw [hstage] at hcreated
      cases hcreated
    · rw [hstage] at hactive
      cases hactive
  next => rfl

theorem stageStep (h : Dutiful s) (hstep : StageStep now s s') : Dutiful s' := by
  -- a stage in which the session stops is neither of the two
  have hstops : ∀ {stage : Stage}, s.stage = stage → stage ≠ .created → stage.isActive = false →
      s.cancelled = true := by
    intro stage hstage hcreated hactive
    cases hcancelled : s.cancelled with
    | true => rfl
    | false =>
      rcases h hcancelled with hs | hs
      · exact absurd (hstage.symm.trans hs) hcreated
      · rw [hstage, hactive] at hs
        cases hs
  intro hcancelled
  cases hstep with
  | starts => exact .inr rfl
  | heeds _ htold => exact absurd (hcancelled.symm.trans htold) Bool.noConfusion
  | primes _ hactive' => exact .inr hactive'
  | gathers hstage => exact absurd (hcancelled.symm.trans (hstops hstage nofun rfl)) Bool.noConfusion
  | bids hstage => exact absurd (hcancelled.symm.trans (hstops hstage nofun rfl)) Bool.noConfusion
  | finishes hstage => exact absurd (hcancelled.symm.trans (hstops hstage nofun rfl)) Bool.noConfusion

/-- **A session does not end before it is told to stop**, unless it is given up. -/
theorem next (h : Dutiful s) {e : Event} (hact : s.act? e = some s') (he : e ≠ .drop) :
    Dutiful s' := by
  cases advances_of_act? hact with
  | moves hstep => exact h.stageStep hstep
  | stands _ hstanding =>
    obtain ⟨hstage, hcancelled, -, -⟩ := State.standing_eq_iff.mp hstanding
    intro hs'
    rw [hstage]
    exact h (hcancelled.symm.trans hs')
  | subscribes => exact h
  | cancels => exact fun hs' => absurd hs' Bool.noConfusion
  | drops => exact absurd rfl he

end Dutiful

/-- What a session is called, and whether it was told to stop, is not for its own moves or for its
clients to change. -/
theorem id_of_act? {e : Event} (hact : s.act? e = some s') (he : e ≠ .cancel) :
    s'.id = s.id ∧ s'.cancelled = s.cancelled := by
  cases e with
  | move now m =>
    cases moves_of_step? hact with
    | stage hmove => obtain ⟨_, _, _, _, rfl⟩ := eq_of_stepStage? hmove; exact ⟨rfl, rfl⟩
    | sender hmove => obtain ⟨_, _, rfl⟩ := eq_of_stepSender? hmove; exact ⟨rfl, rfl⟩
    | receiver hmove => obtain ⟨_, _, _, _, rfl⟩ := eq_of_stepReceiver? hmove; exact ⟨rfl, rfl⟩
    | decoder hmove => obtain ⟨_, _, _, _, _, rfl⟩ := eq_of_stepDecoder? hmove; exact ⟨rfl, rfl⟩
    | pinger hmove => obtain ⟨_, _, _, rfl⟩ := eq_of_stepPinger? hmove; exact ⟨rfl, rfl⟩
  | client c => obtain ⟨_, _, _, _, rfl⟩ := eq_of_serve? hact; exact ⟨rfl, rfl⟩
  | cancel => exact absurd rfl he
  | drop =>
    simp only [State.act?] at hact
    split at hact <;> cases hact
    exact ⟨rfl, rfl⟩

/-- A session that does not run yet carries the name that it was given. -/
theorem created_of_new? {id : UInt32} {conn : Connection} {hook : HookConfig}
    {registry : Block.Registry} {policy : RestartPolicy}
    (h : new? id conn hook registry policy = some s) : s.id = id ∧ s.stage = .created := by
  obtain ⟨-, rfl⟩ := eq_of_new? h
  exact ⟨rfl, rfl⟩

end Wiretap.Session
