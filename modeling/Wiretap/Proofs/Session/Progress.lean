import Wiretap.Proofs.Session.Flow

/-!
# Draining a session

Between two reads a session can hand on what it holds: the receiver decodes and offers, the decoder
takes and emits, and a subscriber receives. Each of these moves leaves less to be done.

Results:

* `backlog_lt_of_drains`: a move that drains a session lowers its backlog.
* `length_le_backlog`: so a session is drained after that many moves, in whatever order they are
  made.
* `not_draining_of_stuck` and what follows it: what holds up each of them.
-/

namespace Wiretap.Session

/-- The event moves traffic on towards the subscriber of this direction, or is what that subscriber
receives. -/
def Event.drains (d : Block.Direction) : Event → Bool
  | .move _ (.receiver .decodes) | .move _ (.receiver .offers) => true
  | .move _ (.decoder .takes) | .move _ (.decoder .emits) => true
  | .client (.receive d' _) => d' = d
  | _ => false

/-- The moves that the receiver can still make, beside those that its buffer gives rise to. -/
def Receiver.work : Receiver → Nat
  | .draining => 1
  | .offering _ => 5
  | _ => 0

def Decoder.work : Decoder → Nat
  | .waiting => 1
  | .emitting _ _ => 3
  | .finished _ => 0

/-- A bound on the moves that can drain the session. A frame has more than four bytes, a message
takes three moves from the queue on, and a block takes one. -/
def State.backlog (d : Block.Direction) (s : State) : Nat :=
  2 * s.buffer.length + s.receiver.work + 3 * s.inbound.items.length + s.decoder.work
    + (s.blocks d).items.length

variable {r : Block.Registry} {s s' : State} {d : Block.Direction}

theorem backlog_decodes (h : s.stepReceiver? .decodes = some s') : s'.backlog d < s.backlog d := by
  unfold State.stepReceiver? at h
  cases hreceiver : s.receiver with
  | draining =>
    rw [hreceiver] at h
    rcases Frame.decode_cases s.buffer with hdecode | ⟨item, rest, hdecode⟩
    · rw [hdecode] at h
      cases h
      show 2 * s.buffer.length + 0 + 3 * s.inbound.items.length + s.decoder.work
        + (s.blocks d).items.length < s.backlog d
      rw [State.backlog, hreceiver, Receiver.work]
      omega
    · have hshorter := Frame.decode_answer_shorter hdecode
      rw [Frame.lengthWidth] at hshorter
      cases item with
      | message m =>
        rw [hdecode] at h
        cases h
        show 2 * rest.length + 5 + 3 * s.inbound.items.length + s.decoder.work
          + (s.blocks d).items.length < s.backlog d
        rw [State.backlog, hreceiver, Receiver.work]
        omega
      | corrupt declared =>
        rw [hdecode] at h
        cases h
        show 2 * rest.length + 1 + 3 * s.inbound.items.length + s.decoder.work
          + (s.blocks d).items.length < s.backlog d
        rw [State.backlog, hreceiver, Receiver.work]
        omega
  | _ =>
    rw [hreceiver] at h
    cases h

theorem backlog_offers (h : s.stepReceiver? .offers = some s') : s'.backlog d < s.backlog d := by
  unfold State.stepReceiver? at h
  cases hreceiver : s.receiver with
  | offering m =>
    simp only [hreceiver] at h
    split at h
    next q hoffer =>
      obtain ⟨-, rfl⟩ := Queue.eq_of_offer hoffer
      cases h
      show 2 * s.buffer.length + 1 + 3 * (s.inbound.items ++ [m]).length + s.decoder.work
        + (s.blocks d).items.length < s.backlog d
      rw [State.backlog, hreceiver, Receiver.work, List.length_append, List.length_singleton]
      omega
    next =>
      cases h
      show 2 * s.buffer.length + 1 + 3 * s.inbound.items.length + s.decoder.work
        + (s.blocks d).items.length < s.backlog d
      rw [State.backlog, hreceiver, Receiver.work]
      omega
    next => cases h
  | _ =>
    rw [hreceiver] at h
    cases h

theorem work_emission_le (forwarded : Option (Block.Direction × Block)) :
    (Pipeline.emission forwarded).work ≤ 3 := by
  cases forwarded <;> simp [Pipeline.emission, Decoder.work]

theorem backlog_takes (h : s.stepDecoder? .takes = some s') : s'.backlog d < s.backlog d := by
  unfold State.stepDecoder? at h
  cases hdecoder : s.decoder with
  | waiting =>
    simp only [hdecoder] at h
    split at h
    next m q htake =>
      obtain ⟨hitems, -⟩ := Queue.eq_of_take? htake
      have hwork := work_emission_le (s.decoding.step s.registry m).2
      cases h
      show 2 * s.buffer.length + s.receiver.work + 3 * q.items.length
        + (Pipeline.emission (s.decoding.step s.registry m).2).work + (s.blocks d).items.length < s.backlog d
      rw [State.backlog, hdecoder, Decoder.work, hitems, List.length_cons]
      omega
    next =>
      split at h <;> cases h
      have hblocks : ((s.endDecoder .complete).blocks d).items = (s.blocks d).items := by
        cases d <;> rfl
      show 2 * s.buffer.length + s.receiver.work + 0 + 0
        + ((s.endDecoder .complete).blocks d).items.length < s.backlog d
      rw [State.backlog, hdecoder, Decoder.work, hblocks]
      omega
  | _ =>
    rw [hdecoder] at h
    cases h

theorem backlog_setBlocks (s : State) (d d' : Block.Direction) (q : Queue Block)
    (decoder : Decoder) :
    ({ s.setBlocks d' q with decoder } : State).backlog d =
      2 * s.buffer.length + s.receiver.work + 3 * s.inbound.items.length + decoder.work
        + (if d = d' then q else s.blocks d).items.length := by
  cases d <;> cases d' <;> rfl

theorem backlog_emits (h : s.stepDecoder? .emits = some s') : s'.backlog d < s.backlog d := by
  unfold State.stepDecoder? at h
  cases hdecoder : s.decoder with
  | emitting d' b =>
    simp only [hdecoder] at h
    split at h
    next q hoffer =>
      obtain ⟨-, rfl⟩ := Queue.eq_of_offer hoffer
      cases h
      rw [backlog_setBlocks, State.backlog, hdecoder, Decoder.work, Decoder.work]
      split
      next hd =>
        subst hd
        rw [List.length_append, List.length_singleton]
        omega
      next => omega
    next =>
      cases h
      show 2 * s.buffer.length + s.receiver.work + 3 * s.inbound.items.length + 1
        + (s.blocks d).items.length < s.backlog d
      rw [State.backlog, hdecoder, Decoder.work]
      omega
    next => cases h
  | _ =>
    rw [hdecoder] at h
    cases h

theorem backlog_receive {b : Block} (h : s.serve? (.receive d b) = some s') :
    s'.backlog d < s.backlog d := by
  simp only [State.serve?] at h
  split at h
  next b' q htake =>
    obtain ⟨hitems, -⟩ := Queue.eq_of_take? htake
    split at h <;> cases h
    have hback := backlog_setBlocks s d d q s.decoder
    rw [if_pos rfl, show ({ s.setBlocks d q with decoder := s.decoder } : State) = s.setBlocks d q by
      cases d <;> rfl] at hback
    rw [hback, State.backlog, hitems, List.length_cons]
    omega
  next => cases h

theorem backlog_lt_of_drains {e : Event} (he : e.drains d = true) (h : s.act? e = some s') :
    s'.backlog d < s.backlog d := by
  unfold Event.drains at he
  split at he
  next =>
    simp only [State.act?, State.step?] at h
    split at h
    next => exact backlog_decodes h
    next => cases h
  next =>
    simp only [State.act?, State.step?] at h
    split at h
    next => exact backlog_offers h
    next => cases h
  next =>
    simp only [State.act?, State.step?] at h
    split at h
    next => exact backlog_takes h
    next => cases h
  next =>
    simp only [State.act?, State.step?] at h
    split at h
    next => exact backlog_emits h
    next => cases h
  next d' b =>
    obtain rfl : d' = d := by simpa using he
    exact backlog_receive h
  next => cases he

/-- In whatever order a session is drained, it is drained after that many moves. -/
theorem length_le_backlog {es : List Event} (hes : ∀ e ∈ es, e.drains d = true)
    (h : run? State.act? s es = some s') : es.length + s'.backlog d ≤ s.backlog d := by
  induction es generalizing s with
  | nil =>
    cases h
    simp
  | cons e es ih =>
    rw [run?_cons] at h
    obtain ⟨s₁, he, hes'⟩ := Option.bind_eq_some_iff.mp h
    have hlt : s₁.backlog d < s.backlog d := backlog_lt_of_drains (hes e List.mem_cons_self) he
    have hle := ih (fun e' he' => hes e' (List.mem_cons_of_mem e he')) hes'
    rw [List.length_cons]
    omega

/-! ## Where nothing can be drained -/

theorem not_draining_of_stuck (h : s.stepReceiver? .decodes = none) : s.receiver ≠ .draining := by
  intro hreceiver
  unfold State.stepReceiver? at h
  rw [hreceiver] at h
  rcases Frame.decode_cases s.buffer with hdecode | ⟨item, rest, hdecode⟩
  · rw [hdecode] at h
    cases h
  · cases item <;> rw [hdecode] at h <;> cases h

theorem full_of_stuck_receiver {m : Message} (h : s.stepReceiver? .offers = none)
    (hreceiver : s.receiver = .offering m) : s.inbound.offer m = .full := by
  unfold State.stepReceiver? at h
  simp only [hreceiver] at h
  split at h
  next => cases h
  next => cases h
  next hoffer => exact hoffer

theorem empty_of_stuck_decoder (h : s.stepDecoder? .takes = none)
    (hdecoder : s.decoder = .waiting) :
    s.inbound.items = [] ∧ s.inbound.feeding = true := by
  unfold State.stepDecoder? at h
  simp only [hdecoder] at h
  split at h
  next => cases h
  next hnone =>
    rw [Queue.take?_eq_none_iff] at hnone
    split at h
    next => cases h
    next hended =>
      rw [Queue.ended_iff] at hended
      exact ⟨hnone, by simpa [hnone] using hended⟩

theorem full_of_stuck_decoder {b : Block} (h : s.stepDecoder? .emits = none)
    (hdecoder : s.decoder = .emitting d b) : (s.blocks d).offer b = .full := by
  unfold State.stepDecoder? at h
  simp only [hdecoder] at h
  split at h
  next => cases h
  next => cases h
  next hoffer => exact hoffer

theorem empty_of_stuck_subscriber (h : ∀ b, s.serve? (.receive d b) = none)
    (hsubscribed : d ∈ s.subscribed) : (s.blocks d).items = [] := by
  cases htake : (s.blocks d).take? with
  | none => exact Queue.take?_eq_none_iff.mp htake
  | some taken =>
    obtain ⟨b, q⟩ := taken
    have hb := h b
    simp [State.serve?, htake, hsubscribed] at hb

/-- Nothing can be drained, towards the subscriber of this direction. -/
structure Stuck (d : Block.Direction) (s : State) : Prop where
  decodes : s.stepReceiver? .decodes = none
  offers : s.stepReceiver? .offers = none
  takes : s.stepDecoder? .takes = none
  emits : s.stepDecoder? .emits = none
  receive : ∀ b, s.serve? (.receive d b) = none

theorem stuck_of_act? (hstarted : s.hasStarted = true)
    (h : ∀ e : Event, e.drains d = true → s.act? e = none) : Stuck d s := by
  have hstep : ∀ m, (Event.move 0 m).drains d = true → s.step? 0 m = none := fun m hm => h _ hm
  refine ⟨?_, ?_, ?_, ?_, ?_⟩
  · simpa [State.step?, hstarted] using hstep (.receiver .decodes) rfl
  · simpa [State.step?, hstarted] using hstep (.receiver .offers) rfl
  · simpa [State.step?, hstarted] using hstep (.decoder .takes) rfl
  · simpa [State.step?, hstarted] using hstep (.decoder .emits) rfl
  · intro b
    exact h (.client (.receive d b)) (by simp [Event.drains])

section Drained

variable {xs : List Exchange} {handled : List Message}

/-- Once nothing is left on the way to the decoder, it has handled everything. -/
theorem Flow.handled_eq (h : Flow r xs handled s.pipeline false) (hitems : s.inbound.items = [])
    (hdrained : s.receiver.hasDrained = true) : handled = messagesIn (bytesRead xs) := by
  cases hover : s.receiver.isOver with
  | true =>
    have hwhole : handled ++ s.inbound.items = _ := h.inlet.whole_over rfl hover
    rw [hitems, List.append_nil] at hwhole
    exact hwhole
  | false =>
    have hdecoder : s.decoder.isOver = false := by
      cases hend : s.decoder.isOver with
      | false => rfl
      | true => exact absurd (hover.symm.trans (h.inlet.spent rfl hend).2) Bool.false_ne_true
    have hwhole : handled ++ s.inbound.items ++ (s.receiver.pending ++ messagesIn s.buffer) = _ :=
      h.inlet.whole hdecoder hover
    have hbuffer : messagesIn s.buffer = [] := h.inlet.drained hdrained hover
    rw [hitems, Receiver.pending_of_hasDrained hdrained, hbuffer, List.append_nil, List.append_nil,
      List.append_nil] at hwhole
    exact hwhole

/-- Once nothing is left on the way to the subscriber either, it has received everything. -/
theorem Flow.received_eq (h : Flow r xs handled s.pipeline false) (hitems : s.inbound.items = [])
    (hdrained : s.receiver.hasDrained = true) (hlistening : (s.blocks d).listening = true)
    (hempty : (s.blocks d).items = []) (hpending : s.decoder.pending d = []) :
    received d xs = blocksIn r d (bytesRead xs) := by
  have hwhole : received d xs ++ (s.blocks d).items ++ s.decoder.pending d = _ :=
    (h.outlet d).whole hlistening (.inr rfl)
  rw [hempty, hpending, List.append_nil, List.append_nil, h.handled_eq hitems hdrained] at hwhole
  exact hwhole

/-- A stream that has ended has given everything. -/
theorem Flow.received_of_ended (h : Flow r xs handled s.pipeline false)
    (hlistening : (s.blocks d).listening = true) (hended : (s.blocks d).ended = true) :
    received d xs = blocksIn r d (bytesRead xs) := by
  obtain ⟨hempty, hfeeding⟩ := Queue.ended_iff.mp hended
  have hdecoder : s.decoder.isOver = true := by
    have hfeeding' : (s.blocks d).feeding = !s.decoder.isOver := (h.outlet d).feeding_eq
    rw [hfeeding] at hfeeding'
    simpa using hfeeding'
  obtain ⟨hitems, hreceiver⟩ := h.inlet.spent rfl hdecoder
  exact h.received_eq hitems (Receiver.hasDrained_of_isOver hreceiver) hlistening hempty
    (Decoder.pending_of_isOver hdecoder)

/-- The decoder does not hold a block: it would have to wait for this subscriber, who has nothing
left to receive, or for one who has gone. -/
theorem Flow.pending_of_stuck (h : Flow r xs handled s.pipeline false) (hstuck : Stuck d s)
    (hempty : (s.blocks d).items = [])
    (hother : ∀ d', d' ≠ d → (s.blocks d').listening = false) (d' : Block.Direction) (b : Block) :
    s.decoder ≠ .emitting d' b := by
  intro hdecoder
  obtain ⟨hlistening, hfull⟩ := Queue.full_of_offer (full_of_stuck_decoder hstuck.emits hdecoder)
  by_cases hd : d' = d
  · subst hd
    have hroom := (h.outlet d').room
    rw [show s.pipeline.blocks d' = s.blocks d' from rfl] at hroom
    rw [hempty, List.length_nil] at hfull
    omega
  · rw [hother d' hd] at hlistening
    cases hlistening

/-- A drained session has delivered all that it has read. -/
theorem Flow.delivered_of_stuck (h : Flow r xs handled s.pipeline false) (hstuck : Stuck d s)
    (hsubscribed : d ∈ s.subscribed) (hlistening : (s.blocks d).listening = true)
    (hother : ∀ d', d' ≠ d → (s.blocks d').listening = false) :
    received d xs = blocksIn r d (bytesRead xs) ∧
      (s.receiver.isOver = true → (s.blocks d).ended = true) := by
  have hempty := empty_of_stuck_subscriber hstuck.receive hsubscribed
  have hnone := h.pending_of_stuck hstuck hempty hother
  have hpending : s.decoder.pending d = [] := by
    cases hdecoder : s.decoder with
    | emitting d' b => exact absurd hdecoder (hnone d' b)
    | _ => rfl
  -- nothing is queued for the decoder
  have hitems : s.inbound.items = [] := by
    cases hdecoder : s.decoder with
    | waiting => exact (empty_of_stuck_decoder hstuck.takes hdecoder).1
    | emitting d' b => exact absurd hdecoder (hnone d' b)
    | finished e => exact (h.inlet.spent rfl (congrArg Decoder.isOver hdecoder)).1
  -- nor is anything held back for it
  have hdrained : s.receiver.hasDrained = true := by
    cases hreceiver : s.receiver with
    | draining => exact absurd hreceiver (not_draining_of_stuck hstuck.decodes)
    | offering m =>
      obtain ⟨-, hfull⟩ := Queue.full_of_offer (full_of_stuck_receiver hstuck.offers hreceiver)
      have hroom := h.inlet.room
      rw [show s.pipeline.inbound = s.inbound from rfl] at hroom
      rw [hitems, List.length_nil] at hfull
      omega
    | _ => rfl
  refine ⟨h.received_eq hitems hdrained hlistening hempty hpending, fun hover => ?_⟩
  have hfeeding : s.inbound.feeding = !s.receiver.isOver := h.inlet.feeding_eq
  have hdecoder : s.decoder.isOver = true := by
    cases hdecoder : s.decoder with
    | waiting =>
      rw [hover, (empty_of_stuck_decoder hstuck.takes hdecoder).2] at hfeeding
      cases hfeeding
    | emitting d' b => exact absurd hdecoder (hnone d' b)
    | finished e => rfl
  have hended : (s.blocks d).feeding = !s.decoder.isOver := (h.outlet d).feeding_eq
  rw [hdecoder] at hended
  exact Queue.ended_iff.mpr ⟨hempty, hended⟩

end Drained

end Wiretap.Session
