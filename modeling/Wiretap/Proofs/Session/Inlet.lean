import Wiretap.Proofs.Session.Pipeline

/-!
# From the agent to the decoder

The first half of the pipeline: what the receiver makes of the bytes, and what of it has come to the
decoder.

Results:

* `messagesIn_append`: the messages in a stream are those in its first part and those that the rest
  completes.
* `Inlet.passes`: in every order of moves the decoder is handed the messages in the bytes that were
  read, in order, and none is lost as long as the services were not told to stop.
-/

namespace Wiretap.Session

/-- The messages in the bytes. -/
def messagesIn (bytes : Bytes) : List Message := Frame.messages (Frame.drain bytes).1

/-- The message that the receiver holds. -/
def Receiver.pending : Receiver → List Message
  | .offering m => [m]
  | _ => []

theorem Receiver.pending_of_hasDrained {r : Receiver} (h : r.hasDrained = true) :
    r.pending = [] := by
  cases r <;> first | rfl | cases h

theorem Receiver.hasDrained_of_isOver {r : Receiver} (h : r.isOver = true) :
    r.hasDrained = true := by
  cases r <;> first | rfl | cases h

/-! ## Messages in a buffer -/

section Buffer

variable {buf rest : Bytes}

@[simp] theorem messagesIn_nil : messagesIn [] = [] := by
  rw [messagesIn, Frame.drain_of_incomplete rfl, Frame.messages_nil]

theorem messagesIn_of_message {m : Message} (h : Frame.decode buf = (.ok m, rest)) :
    messagesIn buf = m :: messagesIn rest := by
  have hanswer : Frame.decode buf = ((Frame.Item.message m).answer, rest) := h
  rw [messagesIn, Frame.drain_of_answer hanswer, Frame.messages_message, messagesIn]

theorem messagesIn_of_corrupt {declared : Nat}
    (h : Frame.decode buf = (.error (.invalidLength declared), rest)) :
    messagesIn buf = messagesIn rest := by
  have hanswer : Frame.decode buf = ((Frame.Item.corrupt declared).answer, rest) := h
  rw [messagesIn, Frame.drain_of_answer hanswer, Frame.messages_corrupt, messagesIn]

theorem messagesIn_of_incomplete (h : Frame.decode buf = (.error .incomplete, buf)) :
    messagesIn buf = [] := by
  rw [messagesIn, Frame.drain_of_incomplete h, Frame.messages_nil]

theorem left_of_answer {item : Frame.Item} (h : Frame.decode buf = (item.answer, rest)) :
    (Frame.drain buf).2 = (Frame.drain rest).2 := by
  rw [Frame.drain_of_answer h]

theorem messagesIn_append (buf more : Bytes) :
    messagesIn (buf ++ more) = messagesIn buf ++ messagesIn ((Frame.drain buf).2 ++ more) := by
  rw [messagesIn, Frame.drain_append, Frame.messages_append]
  rfl

theorem left_append (buf more : Bytes) :
    (Frame.drain (buf ++ more)).2 = (Frame.drain ((Frame.drain buf).2 ++ more)).2 := by
  rw [Frame.drain_append]

end Buffer

/-! ## The invariant -/

/-- How the bytes that were read relate to the messages that the decoder has handled. -/
structure Inlet (bytes : Bytes) (handled : List Message) (p : Pipeline) (halted : Bool) : Prop where
  left_eq : (Frame.drain bytes).2 = (Frame.drain p.buffer).2
  queued_isPrefix : handled ++ p.inbound.items <+: messagesIn bytes
  /-- Between two services that run nothing is lost. -/
  whole : p.decoder.isOver = false → p.receiver.isOver = false →
    handled ++ p.inbound.items ++ (p.receiver.pending ++ messagesIn p.buffer) = messagesIn bytes
  /-- A receiver that was not told to stop leaves nothing behind. -/
  whole_over : halted = false → p.receiver.isOver = true →
    handled ++ p.inbound.items = messagesIn bytes
  drained : p.receiver.hasDrained = true → p.receiver.isOver = false → messagesIn p.buffer = []
  /-- Nor does such a decoder. -/
  spent : halted = false → p.decoder.isOver = true →
    p.inbound.items = [] ∧ p.receiver.isOver = true
  feeding_eq : p.inbound.feeding = !p.receiver.isOver
  listening_eq : p.inbound.listening = !p.decoder.isOver
  room : 0 < p.inbound.capacity

namespace Inlet

variable {bytes : Bytes} {handled : List Message} {p : Pipeline} {halted : Bool}

/-- The receiver goes on and neither reads nor hands on anything. -/
theorem goesOn (h : Inlet bytes handled p halted) {buffer : Bytes} {receiver : Receiver}
    (hrunning : p.receiver.isOver = false) (hrunning' : receiver.isOver = false)
    (hleft : (Frame.drain p.buffer).2 = (Frame.drain buffer).2)
    (hheld : p.receiver.pending ++ messagesIn p.buffer = receiver.pending ++ messagesIn buffer)
    (hdrained : receiver.hasDrained = true → messagesIn buffer = []) :
    Inlet bytes handled { p with buffer, receiver } halted where
  left_eq := h.left_eq.trans hleft
  queued_isPrefix := h.queued_isPrefix
  whole hdecoder _ := by
    rw [← h.whole hdecoder hrunning, hheld]
  whole_over _ hover := absurd (hrunning'.symm.trans hover) Bool.false_ne_true
  drained hreceiver _ := hdrained hreceiver
  spent hhalted hdecoder :=
    absurd (hrunning.symm.trans (h.spent hhalted hdecoder).2) Bool.false_ne_true
  feeding_eq := by rw [h.feeding_eq, hrunning, hrunning']
  listening_eq := h.listening_eq
  room := h.room

theorem decodes (h : Inlet bytes handled p halted) {m : Message} {rest : Bytes}
    (hreceiver : p.receiver = .draining) (hdecode : Frame.decode p.buffer = (.ok m, rest)) :
    Inlet bytes handled { p with buffer := rest, receiver := .offering m } halted := by
  have hanswer : Frame.decode p.buffer = ((Frame.Item.message m).answer, rest) := hdecode
  refine h.goesOn (congrArg Receiver.isOver hreceiver) rfl (left_of_answer hanswer) ?_ nofun
  rw [hreceiver, messagesIn_of_message hdecode]
  rfl

theorem discards (h : Inlet bytes handled p halted) {declared : Nat} {rest : Bytes}
    (hreceiver : p.receiver = .draining)
    (hdecode : Frame.decode p.buffer = (.error (.invalidLength declared), rest)) :
    Inlet bytes handled { p with buffer := rest } halted := by
  have hanswer : Frame.decode p.buffer = ((Frame.Item.corrupt declared).answer, rest) := hdecode
  have hrunning : p.receiver.isOver = false := congrArg Receiver.isOver hreceiver
  refine h.goesOn hrunning hrunning (left_of_answer hanswer) ?_ ?_
  · rw [messagesIn_of_corrupt hdecode]
  · rw [hreceiver]
    nofun

/-- The receiver turns to a stage in which it has no message, with a buffer that holds none. -/
theorem rests (h : Inlet bytes handled p halted) {receiver : Receiver}
    (hrunning : p.receiver.isOver = false) (hrunning' : receiver.isOver = false)
    (hpending : p.receiver.pending = []) (hpending' : receiver.pending = [])
    (hempty : messagesIn p.buffer = []) : Inlet bytes handled { p with receiver } halted := by
  refine h.goesOn hrunning hrunning' rfl ?_ fun _ => hempty
  rw [hpending, hpending']

/-- A message goes over into the queue. -/
theorem offers (h : Inlet bytes handled p halted) {m : Message} {q : Queue Message}
    (hreceiver : p.receiver = .offering m) (hoffer : p.inbound.offer m = .accepted q) :
    Inlet bytes handled { p with inbound := q, receiver := .draining } halted := by
  have hrunning : p.receiver.isOver = false := congrArg Receiver.isOver hreceiver
  obtain ⟨hlistening, rfl⟩ := Queue.eq_of_offer hoffer
  have hdecoder : p.decoder.isOver = false := by
    rw [h.listening_eq] at hlistening
    simpa using hlistening
  have hwhole : handled ++ (p.inbound.items ++ [m]) ++ messagesIn p.buffer = messagesIn bytes := by
    have hwhole := h.whole hdecoder hrunning
    rw [hreceiver] at hwhole
    simpa [Receiver.pending] using hwhole
  exact {
    left_eq := h.left_eq
    queued_isPrefix := ⟨_, hwhole⟩
    whole := fun _ _ => hwhole
    whole_over := fun _ hover => nomatch hover
    drained := fun hdrained => nomatch hdrained
    spent := fun _ hover => absurd (hdecoder.symm.trans hover) Bool.false_ne_true
    feeding_eq := h.feeding_eq.trans (congrArg not hrunning)
    listening_eq := h.listening_eq
    room := h.room }

/-- A message is lost only where the decoder has been told to stop. -/
theorem loses (h : Inlet bytes handled p halted) {m : Message}
    (hreceiver : p.receiver = .offering m) (hgone : p.inbound.listening = false) :
    Inlet bytes handled { p with receiver := .draining } halted := by
  have hrunning : p.receiver.isOver = false := congrArg Receiver.isOver hreceiver
  have hdecoder : p.decoder.isOver = true := by
    rw [h.listening_eq] at hgone
    simpa using hgone
  exact {
    left_eq := h.left_eq
    queued_isPrefix := h.queued_isPrefix
    whole := fun hdecoder' => absurd (hdecoder'.symm.trans hdecoder) Bool.false_ne_true
    whole_over := fun _ hover => nomatch hover
    drained := fun hdrained => nomatch hdrained
    spent := fun hhalted _ =>
      absurd (hrunning.symm.trans (h.spent hhalted hdecoder).2) Bool.false_ne_true
    feeding_eq := h.feeding_eq.trans (congrArg not hrunning)
    listening_eq := h.listening_eq
    room := h.room }

theorem reads (h : Inlet bytes handled p halted) {data : Bytes}
    (hreceiver : p.receiver = .reading) :
    Inlet (bytes ++ data) handled { p with buffer := p.buffer ++ data, receiver := .draining }
      halted := by
  have hrunning : p.receiver.isOver = false := congrArg Receiver.isOver hreceiver
  have hgrown : messagesIn (bytes ++ data) =
      messagesIn bytes ++ messagesIn ((Frame.drain p.buffer).2 ++ data) := by
    rw [messagesIn_append, h.left_eq]
  exact {
    left_eq := by rw [left_append, h.left_eq, ← left_append]
    queued_isPrefix := by
      rw [hgrown]
      exact h.queued_isPrefix.trans (List.prefix_append _ _)
    whole := by
      intro hdecoder _
      have hwhole := h.whole hdecoder hrunning
      rw [hreceiver] at hwhole
      show handled ++ p.inbound.items ++ ([] ++ messagesIn (p.buffer ++ data)) = _
      rw [hgrown, ← hwhole, messagesIn_append, List.append_assoc _ _ (messagesIn _)]
      rfl
    whole_over := fun _ hover => nomatch hover
    drained := fun hdrained => nomatch hdrained
    spent := fun hhalted hdecoder =>
      absurd (hrunning.symm.trans (h.spent hhalted hdecoder).2) Bool.false_ne_true
    feeding_eq := h.feeding_eq.trans (congrArg not hrunning)
    listening_eq := h.listening_eq
    room := h.room }

theorem receiverEnds (h : Inlet bytes handled p halted) {exit : Exit}
    (hrunning : p.receiver.isOver = false)
    (hend : p.receiver.hasDrained = true ∨ halted = true) :
    Inlet bytes handled (p.endReceiver exit) halted where
  left_eq := h.left_eq
  queued_isPrefix := h.queued_isPrefix
  whole _ hover := nomatch hover
  whole_over hhalted _ := by
    have hdrained : p.receiver.hasDrained = true :=
      hend.resolve_right (by rw [hhalted]; exact Bool.false_ne_true)
    have hdecoder : p.decoder.isOver = false := by
      cases hover : p.decoder.isOver with
      | false => rfl
      | true => exact absurd (hrunning.symm.trans (h.spent hhalted hover).2) Bool.false_ne_true
    have hwhole := h.whole hdecoder hrunning
    rw [Receiver.pending_of_hasDrained hdrained, h.drained hdrained hrunning] at hwhole
    rw [← hwhole, List.append_nil, List.append_nil]
    rfl
  drained _ hover := nomatch hover
  spent hhalted hdecoder := ⟨(h.spent hhalted hdecoder).1, rfl⟩
  feeding_eq := rfl
  listening_eq := h.listening_eq
  room := h.room

theorem takes (h : Inlet bytes handled p halted) {m : Message} {q : Queue Message}
    {decoding : Block.State} {decoder : Decoder} (hrunning : p.decoder.isOver = false)
    (hrunning' : decoder.isOver = false) (htake : p.inbound.take? = some (m, q)) :
    Inlet bytes (handled ++ [m]) { p with inbound := q, decoding, decoder } halted := by
  obtain ⟨hitems, hq⟩ := Queue.eq_of_take? htake
  have hqueued : handled ++ [m] ++ q.items = handled ++ p.inbound.items := by
    rw [hitems, List.append_assoc, List.singleton_append]
  exact {
    left_eq := h.left_eq
    queued_isPrefix := by
      rw [hqueued]
      exact h.queued_isPrefix
    whole := by
      intro _ hreceiver
      rw [hqueued]
      exact h.whole hrunning hreceiver
    whole_over := by
      intro hhalted hover
      rw [hqueued]
      exact h.whole_over hhalted hover
    drained := h.drained
    spent := fun _ hover => absurd (hrunning'.symm.trans hover) Bool.false_ne_true
    feeding_eq := by
      rw [hq]
      exact h.feeding_eq
    listening_eq := by
      rw [hq, h.listening_eq, hrunning, hrunning']
    room := by
      rw [hq]
      exact h.room }

/-- The decoder goes on with the message that it has. -/
theorem decoderGoesOn (h : Inlet bytes handled p halted) {decoder : Decoder}
    {blocks : Block.Direction → Queue Block} (hrunning : p.decoder.isOver = false)
    (hrunning' : decoder.isOver = false) :
    Inlet bytes handled { p with decoder, blocks } halted where
  left_eq := h.left_eq
  queued_isPrefix := h.queued_isPrefix
  whole _ hreceiver := h.whole hrunning hreceiver
  whole_over := h.whole_over
  drained := h.drained
  spent _ hover := absurd (hrunning'.symm.trans hover) Bool.false_ne_true
  feeding_eq := h.feeding_eq
  listening_eq := by rw [h.listening_eq, hrunning, hrunning']
  room := h.room

theorem ended (h : Inlet bytes handled p halted) (hended : p.inbound.ended = true) :
    p.inbound.items = [] ∧ p.receiver.isOver = true := by
  obtain ⟨hitems, hfeeding⟩ := Queue.ended_iff.mp hended
  rw [h.feeding_eq] at hfeeding
  exact ⟨hitems, by simpa using hfeeding⟩

theorem decoderEnds (h : Inlet bytes handled p halted) {exit : Exit}
    (hspent : halted = false → p.inbound.items = [] ∧ p.receiver.isOver = true) :
    Inlet bytes handled (p.endDecoder exit) halted where
  left_eq := h.left_eq
  queued_isPrefix := by
    have hclosed : p.inbound.close.items = [] := rfl
    show handled ++ p.inbound.close.items <+: messagesIn bytes
    rw [hclosed, List.append_nil]
    exact (List.prefix_append _ _).trans h.queued_isPrefix
  whole hover := nomatch hover
  whole_over hhalted hover := by
    obtain ⟨hitems, -⟩ := hspent hhalted
    have hwhole := h.whole_over hhalted hover
    rw [hitems] at hwhole
    exact hwhole
  drained := h.drained
  spent hhalted _ := ⟨rfl, (hspent hhalted).2⟩
  feeding_eq := h.feeding_eq
  listening_eq := rfl
  room := h.room

end Inlet
end Wiretap.Session
