import Wiretap.Proofs.Frame.Partition
import Wiretap.Proofs.Session.Event

/-!
# The receive buffer

The receiver reads items off its buffer one by one, and more bytes from the agent only when it has
to wait for them. The agent declares the lengths, and can declare whatever it likes.

Results:

* `digests_of_act?`: what an event does to the buffer.
* `Digests.drain_eq`: the items that have been read off the buffer are the first ones of a drain at
  once.
* `buffer_bounded`: the receiver never waits with as many bytes as the longest frame in its buffer,
  and pays four bytes for every item.
-/

namespace Wiretap.Session

/-- The items that an event reads off the buffer. -/
def State.answers (s : State) : Event → List Frame.Item
  | .move _ (.receiver .decodes) =>
    match (Frame.decode s.buffer).1 with
    | .ok m => [.message m]
    | .error (.invalidLength declared) => [.corrupt declared]
    | .error _ => []
  | _ => []

/-- The items that were read off the buffer in the course of a run. -/
def answered (s : State) (t : List Event) : List Frame.Item :=
  history State.act? State.answers s t

variable {s s' : State} {now : Nat}

theorem answered_concat {t : List Event} (h : run? State.act? s t = some s') (e : Event) :
    answered s (t ++ [e]) = answered s t ++ s'.answers e := history_concat t e h

theorem answers_of_decode {item : Frame.Item} {rest : Bytes}
    (h : Frame.decode s.buffer = (item.answer, rest)) :
    s.answers (.move now (.receiver .decodes)) = [item] := by
  simp only [State.answers, h]
  cases item <;> rfl

theorem answers_of_incomplete (h : Frame.decode s.buffer = (.error .incomplete, s.buffer)) :
    s.answers (.move now (.receiver .decodes)) = [] := by
  simp only [State.answers, h]

/-! ## One event -/

/-- What an event does to the buffer, where it brings these bytes and reads these items off it. -/
inductive Digests (s : State) : Bytes → List Frame.Item → State → Prop where
  | reads {data : Bytes} {s' : State} (hbuffer : s'.buffer = s.buffer ++ data)
      (hreceiver : s'.receiver ≠ .reading) : Digests s data [] s'
  | answers {item : Frame.Item} {s' : State}
      (hdecode : Frame.decode s.buffer = (item.answer, s'.buffer))
      (hreceiver : s'.receiver ≠ .reading) : Digests s [] [item] s'
  | runsDry {s' : State} (hdecode : Frame.decode s.buffer = (.error .incomplete, s.buffer))
      (hbuffer : s'.buffer = s.buffer) : Digests s [] [] s'
  | stands {s' : State} (hbuffer : s'.buffer = s.buffer)
      (hreceiver : s'.receiver = .reading → s.receiver = .reading) : Digests s [] [] s'

theorem digests_of_stepReceiver? {m : ReceiverMove} (h : s.stepReceiver? m = some s') :
    Digests s (bytesRead [(Event.move now (.receiver m)).exchange])
      (s.answers (.move now (.receiver m))) s' := by
  unfold State.stepReceiver? at h
  split at h
  -- it reads an item off the buffer
  next hreceiver =>
    rcases Frame.decode_cases s.buffer with hdecode | ⟨item, rest, hdecode⟩
    · rw [hdecode] at h
      cases h
      rw [answers_of_incomplete hdecode]
      exact .runsDry hdecode rfl
    · rw [answers_of_decode hdecode]
      cases item <;> rw [hdecode] at h <;> cases h
      · exact .answers hdecode (by simp)
      · exact .answers hdecode (by simp [hreceiver])
  -- it offers a message
  next =>
    split at h <;> cases h
    · exact .stands rfl (by simp)
    · exact .stands rfl (by simp)
  -- it reads from the agent
  next r hreceiver =>
    cases hreceived : Connection.received r with
    | ok data =>
      simp only [hreceived] at h
      cases h
      simp only [Event.exchange, hreceived, bytesRead, List.flatMap_singleton]
      exact .reads rfl (by simp)
    | error f =>
      simp only [hreceived] at h
      simp only [Event.exchange, hreceived]
      split at h
      next =>
        split at h <;> cases h
        · exact .stands rfl (by simp [State.endReceiver])
        · exact .stands rfl (by simp)
      next => cases h; exact .stands rfl (by simp)
  -- it sees that it is told to stop
  next =>
    split at h <;> cases h
    exact .stands rfl (by simp [State.endReceiver])
  next =>
    split at h <;> cases h
    exact .stands rfl (by simp [State.endReceiver])
  -- it closes the connection
  next =>
    cases h
    exact .stands rfl (by simp)
  next =>
    cases h
    exact .stands rfl (by simp [State.endReceiver])
  next => cases h

/-- **What an event does to the buffer.** Only the receiver touches it. -/
theorem digests_of_act? {e : Event} (h : s.act? e = some s') :
    Digests s (bytesRead [e.exchange]) (s.answers e) s' := by
  cases e with
  | move now m =>
    cases moves_of_step? h with
    | stage hmove =>
      obtain ⟨_, _, _, _, rfl⟩ := eq_of_stepStage? hmove
      exact .stands rfl id
    | sender hmove =>
      obtain ⟨_, _, rfl⟩ := eq_of_stepSender? hmove
      exact .stands rfl id
    | receiver hmove => exact digests_of_stepReceiver? hmove
    | decoder hmove =>
      obtain ⟨_, _, _, _, _, rfl⟩ := eq_of_stepDecoder? hmove
      exact .stands rfl id
    | pinger hmove =>
      obtain ⟨_, _, _, rfl⟩ := eq_of_stepPinger? hmove
      exact .stands rfl id
  | client c =>
    obtain ⟨_, _, _, _, rfl⟩ := eq_of_serve? h
    cases c <;> exact .stands rfl id
  | cancel =>
    cases h
    exact .stands rfl id
  | drop =>
    simp only [State.act?] at h
    split at h <;> cases h
    exact .stands rfl id

namespace Digests

variable {data : Bytes} {items : List Frame.Item}

/-- Items that are read off one by one are those that a drain at once gives. -/
theorem drain_eq (h : Digests s data items s') :
    Frame.drain (s.buffer ++ data) =
      (items ++ (Frame.drain s'.buffer).1, (Frame.drain s'.buffer).2) := by
  cases h with
  | reads hbuffer => rw [hbuffer, List.nil_append]
  | answers hdecode =>
    rw [List.append_nil, Frame.drain_of_answer hdecode, List.singleton_append]
  | runsDry _ hbuffer => rw [hbuffer, List.append_nil, List.nil_append]
  | stands hbuffer => rw [hbuffer, List.append_nil, List.nil_append]

/-- The receiver reads from the agent only when it has to wait. -/
theorem waits (h : Digests s data items s')
    (hwaits : s.receiver = .reading → Frame.decode s.buffer = (.error .incomplete, s.buffer))
    (hreading : s'.receiver = .reading) :
    Frame.decode s'.buffer = (.error .incomplete, s'.buffer) := by
  cases h with
  | reads _ hreceiver => exact absurd hreading hreceiver
  | answers _ hreceiver => exact absurd hreading hreceiver
  | runsDry hdecode hbuffer => rw [hbuffer, hdecode]
  | stands hbuffer hreceiver => rw [hbuffer, hwaits (hreceiver hreading)]

end Digests

/-! ## Runs -/

/-- However a run interleaves them, the items that were read off the buffer and the bytes that are
left in it are what a drain makes of all the bytes at once. -/
theorem drain_of_run? {es : List Event} (hrun : run? State.act? s es = some s') :
    Frame.drain (s.buffer ++ bytesRead (es.map Event.exchange)) =
      (answered s es ++ (Frame.drain s'.buffer).1, (Frame.drain s'.buffer).2) := by
  refine run?_invariant (motive := fun es s' =>
    Frame.drain (s.buffer ++ bytesRead (es.map Event.exchange)) =
      (answered s es ++ (Frame.drain s'.buffer).1, (Frame.drain s'.buffer).2)) ?_ ?_ hrun
  · show Frame.drain (s.buffer ++ []) = ([] ++ (Frame.drain s.buffer).1, (Frame.drain s.buffer).2)
    rw [List.append_nil, List.nil_append]
  · intro past s₁ e s₂ hpast hdrain hact
    have hnext := Frame.drain_append_of_drain hdrain (bytesRead [e.exchange])
    rw [(digests_of_act? hact).drain_eq] at hnext
    rw [answered_concat hpast, List.map_append, List.map_singleton, bytesRead_append,
      ← List.append_assoc, hnext, ← List.append_assoc]

/-- Each item that a run reads off the buffer takes four of its bytes or more. -/
theorem length_answered_le {es : List Event} (hrun : run? State.act? s es = some s') :
    Frame.lengthWidth * (answered s es).length ≤
      (s.buffer ++ bytesRead (es.map Event.exchange)).length := by
  have hle := Frame.length_items_drain (s.buffer ++ bytesRead (es.map Event.exchange))
  rw [drain_of_run? hrun, List.length_append, Nat.mul_add] at hle
  omega

section New

variable {id : UInt32} {conn : Connection} {hook : HookConfig} {r : Block.Registry}
  {policy : RestartPolicy} {s₀ : State} {t : List Event}

/-- A receiver that reads from the agent has found no item in its buffer. -/
theorem decode_of_reading (hnew : new? id conn hook r policy = some s₀)
    (hrun : run? State.act? s₀ t = some s) (hreading : s.receiver = .reading) :
    Frame.decode s.buffer = (.error .incomplete, s.buffer) := by
  refine run?_invariant (motive := fun _ s => s.receiver = .reading →
    Frame.decode s.buffer = (.error .incomplete, s.buffer)) ?_ ?_ hrun hreading
  · intro hreading
    obtain ⟨-, rfl⟩ := eq_of_new? hnew
    cases hreading
  · intro past s₁ e s₂ _ hwaits hact
    exact (digests_of_act? hact).waits hwaits

end New

/-- A receiver that drains its buffer can go on at once. It reads from the agent where it has to
wait, and else has taken bytes off the buffer. -/
theorem decodes_of_draining (hstarted : s.hasStarted = true) (hdraining : s.receiver = .draining)
    (now : Nat) :
    ∃ s', s.act? (.move now (.receiver .decodes)) = some s' ∧
      (s'.receiver = .reading ↔ (Frame.decode s.buffer).1 = .error .incomplete) ∧
      s'.buffer = (Frame.decode s.buffer).2 := by
  simp only [State.act?, State.step?, hstarted, if_true, State.stepReceiver?, hdraining]
  rcases Frame.decode_cases s.buffer with hdecode | ⟨item, rest, hdecode⟩
  · rw [hdecode]
    exact ⟨_, rfl, by simp, rfl⟩
  · cases item <;> rw [hdecode]
    · exact ⟨_, rfl, by simp [Frame.Item.answer], rfl⟩
    · exact ⟨_, rfl, by simp [Frame.Item.answer], rfl⟩

/-- **The receiver never stalls, and its buffer stays bounded.** Whatever the buffer holds,

* an answer to it, other than that it is incomplete, takes four bytes or more off its front;
* with as many bytes as the longest frame there is such an answer;
* a drain gives at most one item for every four bytes, and leaves less than the longest frame.

Take any run of a new session. Then

* a receiver that reads from the agent has less than the longest frame in its buffer;
* one that drains its buffer can go on, and does not read from the agent with as many bytes as the
  longest frame in the buffer, but takes four or more of them off it;
* whatever happens from then on, the items that are read off the buffer are the first ones of those
  that a drain finds in all that was in it and came into it, so that they are at most one for every
  four bytes of that. -/
theorem buffer_bounded {id : UInt32} {conn : Connection} {hook : HookConfig} {r : Block.Registry}
    {policy : RestartPolicy} {s₀ : State} {t : List Event}
    (hnew : new? id conn hook r policy = some s₀) (hrun : run? State.act? s₀ t = some s) :
    (∀ buf, (Frame.decode buf).1 ≠ .error .incomplete →
      ∃ span, span ++ (Frame.decode buf).2 = buf ∧ 4 ≤ span.length) ∧
    (∀ buf, Frame.maxLength ≤ buf.length → (Frame.decode buf).1 ≠ .error .incomplete) ∧
    (∀ buf, (Frame.drain buf).1.length ≤ buf.length / 4 ∧
      (Frame.drain buf).2.length < Frame.maxLength) ∧
    (s.receiver = .reading → s.buffer.length < Frame.maxLength) ∧
    (s.hasStarted = true → s.receiver = .draining → ∀ now,
      ∃ s', s.act? (.move now (.receiver .decodes)) = some s' ∧
        (Frame.maxLength ≤ s.buffer.length →
          s'.receiver ≠ .reading ∧ s'.buffer.length + 4 ≤ s.buffer.length)) ∧
    ∀ es s', run? State.act? s es = some s' →
      let all := s.buffer ++ bytesRead (es.map Event.exchange)
      Frame.drain all = (answered s es ++ (Frame.drain s'.buffer).1, (Frame.drain s'.buffer).2) ∧
        (answered s es).length ≤ all.length / 4 := by
  refine ⟨fun _ => Frame.consumes_of_decode, fun _ => Frame.decode_ne_incomplete, ?_, ?_, ?_, ?_⟩
  · intro buf
    have hitems := Frame.length_items_drain buf
    unfold Frame.lengthWidth at hitems
    exact ⟨by omega, Frame.length_drain_lt buf⟩
  · intro hreading
    apply Frame.length_lt_of_unfinished
    exact Frame.unfinished_of_decode (decode_of_reading hnew hrun hreading)
  · intro hstarted hdraining now
    obtain ⟨s', hact, hreading, hbuffer⟩ := decodes_of_draining hstarted hdraining now
    refine ⟨s', hact, fun hlong => ?_⟩
    have hanswer := Frame.decode_ne_incomplete hlong
    refine ⟨fun hreading' => hanswer (hreading.mp hreading'), ?_⟩
    rw [hbuffer]
    exact Frame.decode_shorter hanswer
  · intro es s' hlater
    have hle := length_answered_le hlater
    unfold Frame.lengthWidth at hle
    exact ⟨drain_of_run? hlater, by omega⟩

/-- Two lengths that no frame has, in front of the beginning of a frame. -/
theorem buffer_bounded_corrupt :
    let t : List Event :=
      [.move 0 (.stage .start), .move 0 (.receiver .decodes),
        .move 0 (.receiver (.read (.ok [255, 255, 255, 255, 2, 0, 0, 0, 9, 0])))]
    let es : List Event :=
      [.move 0 (.receiver .decodes), .move 0 (.receiver .decodes), .move 0 (.receiver .decodes)]
    ∃ s₀ s s', new? 7 ⟨false, false⟩ {} {} {} = some s₀ ∧ run? State.act? s₀ t = some s ∧
      run? State.act? s es = some s' ∧
      answered s es = [.corrupt 4294967295, .corrupt 2] ∧ s'.buffer = [9, 0] ∧
      (answered s es).length ≤ s.buffer.length / 4 ∧ s'.buffer.length < Frame.maxLength := by
  intro t es
  obtain ⟨s₀, s, s', hnew, hrun, hlater, hanswered, hbuffer, hreading⟩ : ∃ s₀ s s',
      new? 7 ⟨false, false⟩ {} {} {} = some s₀ ∧ run? State.act? s₀ t = some s ∧
      run? State.act? s es = some s' ∧ answered s es = [.corrupt 4294967295, .corrupt 2] ∧
      s'.buffer = [9, 0] ∧ s'.receiver = .reading :=
    ⟨_, _, _, rfl, rfl, rfl, rfl, rfl, rfl⟩
  have hall : run? State.act? s₀ (t ++ es) = some s' := by
    rw [run?_append, hrun]
    exact hlater
  obtain ⟨-, -, -, -, -, hitems⟩ := buffer_bounded hnew hrun
  obtain ⟨-, -, -, hshort, -⟩ := buffer_bounded hnew hall
  refine ⟨s₀, s, s', hnew, hrun, hlater, hanswered, hbuffer, ?_, hshort hreading⟩
  have hread : bytesRead (es.map Event.exchange) = [] := rfl
  have hle := (hitems es s' hlater).2
  rw [hread, List.append_nil] at hle
  exact hle

end Wiretap.Session
