import Wiretap.Proofs.Session.Event

/-!
# The pipeline of a session

Traffic passes through a part of the session only: the buffer and the receiver, the queue of
messages, the decoder, and the two queues of blocks. `Passes` lists what can happen there. Whatever
else happens to a session leaves that part alone.

Results:

* `passes_of_stepReceiver?`, `passes_of_stepDecoder?`, `passes_of_serve?`: the moves of the two
  services and the doings of clients are among the ones that are listed.
* `passes_of_act?`: so is everything that happens to a session that was not given up.
-/

namespace Wiretap.Session

/-- What lies between the agent and the subscribers. -/
structure Pipeline where
  registry : Block.Registry
  buffer : Bytes
  receiver : Receiver
  inbound : Queue Message
  decoding : Block.State
  decoder : Decoder
  blocks : Block.Direction → Queue Block

def State.pipeline (s : State) : Pipeline where
  registry := s.registry
  buffer := s.buffer
  receiver := s.receiver
  inbound := s.inbound
  decoding := s.decoding
  decoder := s.decoder
  blocks := s.blocks

namespace Pipeline

def setBlocks (p : Pipeline) (d : Block.Direction) (q : Queue Block) : Pipeline :=
  { p with blocks := fun d' => if d' = d then q else p.blocks d' }

/-- Where the decoder stands after a message was decoded. -/
def emission : Option (Block.Direction × Block) → Decoder
  | some (d, b) => .emitting d b
  | none => .waiting

def endReceiver (p : Pipeline) (e : Exit) : Pipeline :=
  { p with receiver := .finished e, inbound := p.inbound.finish }

def endDecoder (p : Pipeline) (e : Exit) : Pipeline :=
  { p with
    decoder := .finished e
    inbound := p.inbound.close
    blocks := fun d => (p.blocks d).finish }

end Pipeline

/-- The receiver has handed on all that its buffer holds. -/
def Receiver.hasDrained : Receiver → Bool
  | .draining | .offering _ => false
  | _ => true

/-- What can happen to the pipeline of a session whose services were told to stop, or not. -/
inductive Passes (halted : Bool) (p : Pipeline) : Exchange → Pipeline → Prop where
  | still : Passes halted p .nothing p
  | decodes {m : Message} {rest : Bytes} (hreceiver : p.receiver = .draining)
      (hdecode : Frame.decode p.buffer = (.ok m, rest)) :
      Passes halted p .nothing { p with buffer := rest, receiver := .offering m }
  | discards {declared : Nat} {rest : Bytes} (hreceiver : p.receiver = .draining)
      (hdecode : Frame.decode p.buffer = (.error (.invalidLength declared), rest)) :
      Passes halted p .nothing { p with buffer := rest }
  | runsDry (hreceiver : p.receiver = .draining)
      (hdecode : Frame.decode p.buffer = (.error .incomplete, p.buffer)) :
      Passes halted p .nothing { p with receiver := .reading }
  | offers {m : Message} {q : Queue Message} (hreceiver : p.receiver = .offering m)
      (hoffer : p.inbound.offer m = .accepted q) :
      Passes halted p .nothing { p with inbound := q, receiver := .draining }
  | loses {m : Message} (hreceiver : p.receiver = .offering m)
      (hgone : p.inbound.listening = false) :
      Passes halted p .nothing { p with receiver := .draining }
  | reads {data : Bytes} (hreceiver : p.receiver = .reading) :
      Passes halted p (.read data) { p with buffer := p.buffer ++ data, receiver := .draining }
  /-- A read that failed is repeated. -/
  | repeats (hreceiver : p.receiver = .reading) :
      Passes halted p .nothing { p with receiver := .draining }
  | closes {stage : Closing} (hdrained : p.receiver.hasDrained = true)
      (hrunning : p.receiver.isOver = false) :
      Passes halted p .nothing { p with receiver := .closing stage }
  | receiverEnds {exit : Exit} (hrunning : p.receiver.isOver = false)
      (hend : p.receiver.hasDrained = true ∨ halted = true) :
      Passes halted p .nothing (p.endReceiver exit)
  | takes {m : Message} {q : Queue Message} (hdecoder : p.decoder = .waiting)
      (htake : p.inbound.take? = some (m, q)) :
      Passes halted p .nothing
        { p with
          inbound := q
          decoding := (p.decoding.step p.registry m).1
          decoder := Pipeline.emission (p.decoding.step p.registry m).2 }
  | emits {d : Block.Direction} {b : Block} {q : Queue Block} (hdecoder : p.decoder = .emitting d b)
      (hoffer : (p.blocks d).offer b = .accepted q) :
      Passes halted p .nothing { p.setBlocks d q with decoder := .waiting }
  | drops {d : Block.Direction} {b : Block} (hdecoder : p.decoder = .emitting d b)
      (hgone : (p.blocks d).listening = false) :
      Passes halted p .nothing { p with decoder := .waiting }
  | decoderEnds {exit : Exit} (hrunning : p.decoder.isOver = false)
      (hend : p.decoder = .waiting ∧ p.inbound.ended = true ∨ halted = true) :
      Passes halted p .nothing (p.endDecoder exit)
  | receives {d : Block.Direction} {b : Block} {q : Queue Block}
      (htake : (p.blocks d).take? = some (b, q)) :
      Passes halted p (.received d b) (p.setBlocks d q)
  | unsubscribes {d : Block.Direction} :
      Passes halted p (.unsubscribed d) (p.setBlocks d (p.blocks d).close)

/-! ## The services -/

variable {s s' : State} {now : Nat}

theorem State.pipeline_setBlocks (s : State) (d : Block.Direction) (q : Queue Block) :
    (s.setBlocks d q).pipeline = s.pipeline.setBlocks d q := by
  have hblocks : (s.setBlocks d q).blocks = (s.pipeline.setBlocks d q).blocks := by
    funext d'
    exact s.blocks_setBlocks d d' q
  cases d <;> simp only [State.pipeline, Pipeline.setBlocks, State.setBlocks] at hblocks ⊢ <;>
    rw [← hblocks]

theorem State.pipeline_endDecoder (s : State) (e : Exit) :
    (s.endDecoder e).pipeline = s.pipeline.endDecoder e := by
  have hblocks : (s.endDecoder e).blocks = (s.pipeline.endDecoder e).blocks := by
    funext d
    cases d <;> rfl
  simp only [State.pipeline, Pipeline.endDecoder, State.endDecoder] at hblocks ⊢
  rw [← hblocks]

theorem passes_of_stepReceiver? {m : ReceiverMove} (h : s.stepReceiver? m = some s') :
    Passes s.halted s.pipeline (Event.move now (.receiver m)).exchange s'.pipeline := by
  unfold State.stepReceiver? at h
  split at h
  -- it decodes
  next hreceiver =>
    rcases Frame.decode_cases s.buffer with hdecode | ⟨item, rest, hdecode⟩
    · rw [hdecode] at h
      cases h
      exact .runsDry hreceiver hdecode
    · cases item with
      | message m =>
        rw [hdecode] at h
        cases h
        exact .decodes hreceiver hdecode
      | corrupt declared =>
        rw [hdecode] at h
        cases h
        exact .discards hreceiver hdecode
  -- it offers a message
  next m hreceiver =>
    split at h
    next q hoffer =>
      cases h
      exact .offers hreceiver hoffer
    next hoffer =>
      cases h
      exact .loses hreceiver (Queue.not_listening_of_offer hoffer)
    next => cases h
  -- it reads
  next r hreceiver =>
    have hdrained : s.pipeline.receiver.hasDrained = true := congrArg Receiver.hasDrained hreceiver
    have hrunning : s.pipeline.receiver.isOver = false := congrArg Receiver.isOver hreceiver
    cases hreceived : Connection.received r with
    | ok data =>
      simp only [hreceived] at h
      cases h
      simp only [Event.exchange, hreceived]
      exact .reads hreceiver
    | error f =>
      simp only [hreceived] at h
      simp only [Event.exchange, hreceived]
      split at h
      next =>
        split at h
        next => cases h; exact .receiverEnds hrunning (.inl hdrained)
        next => cases h; exact .closes hdrained hrunning
      next => cases h; exact .repeats hreceiver
  -- it sees that it is told to stop
  next m hreceiver =>
    split at h
    next hhalted =>
      cases h
      exact .receiverEnds (congrArg Receiver.isOver hreceiver) (.inr hhalted)
    next => cases h
  next hreceiver =>
    split at h
    next hhalted =>
      cases h
      exact .receiverEnds (congrArg Receiver.isOver hreceiver) (.inr hhalted)
    next => cases h
  -- it closes the connection
  next hreceiver =>
    cases h
    exact .closes (congrArg Receiver.hasDrained hreceiver) (congrArg Receiver.isOver hreceiver)
  next hreceiver =>
    cases h
    exact .receiverEnds (congrArg Receiver.isOver hreceiver)
      (.inl (congrArg Receiver.hasDrained hreceiver))
  next => cases h

theorem passes_of_stepDecoder? {m : DecoderMove} (h : s.stepDecoder? m = some s') :
    Passes s.halted s.pipeline (Event.move now (.decoder m)).exchange s'.pipeline := by
  unfold State.stepDecoder? at h
  split at h
  -- it takes a message, or sees that there are no more
  next hdecoder =>
    split at h
    next m q htake =>
      have hpasses : Passes s.halted s.pipeline .nothing _ := .takes hdecoder htake
      simp only at h
      cases h
      exact hpasses
    next =>
      split at h
      next hended =>
        cases h
        rw [State.pipeline_endDecoder]
        exact .decoderEnds (congrArg Decoder.isOver hdecoder) (.inl ⟨hdecoder, hended⟩)
      next => cases h
  -- it hands on a block
  next d b hdecoder =>
    split at h
    next q hoffer =>
      cases h
      have hpasses : Passes s.halted s.pipeline .nothing _ := .emits hdecoder hoffer
      rw [← State.pipeline_setBlocks] at hpasses
      exact hpasses
    next hoffer =>
      cases h
      exact .drops hdecoder (Queue.not_listening_of_offer hoffer)
    next => cases h
  -- it sees that it is told to stop
  next hdecoder =>
    split at h
    next hhalted =>
      cases h
      rw [State.pipeline_endDecoder]
      exact .decoderEnds (congrArg Decoder.isOver hdecoder) (.inr hhalted)
    next => cases h
  next d b hdecoder =>
    split at h
    next hhalted =>
      cases h
      rw [State.pipeline_endDecoder]
      exact .decoderEnds (congrArg Decoder.isOver hdecoder) (.inr hhalted)
    next => cases h
  next => cases h

/-! ## The rest of a session -/

theorem passes_of_serve? {c : ClientEvent} (h : s.serve? c = some s') :
    Passes s.halted s.pipeline (Event.client c).exchange s'.pipeline := by
  cases c with
  | subscribe d =>
    simp only [State.serve?, State.subscribe?] at h
    split at h <;> cases h
    exact .still
  | receive d b =>
    simp only [State.serve?] at h
    split at h
    next b' q htake =>
      split at h
      next hb =>
        obtain ⟨-, rfl⟩ := hb
        cases h
        rw [State.pipeline_setBlocks]
        exact .receives htake
      next => cases h
    next => cases h
  | unsubscribe d =>
    simp only [State.serve?] at h
    split at h <;> cases h
    rw [State.pipeline_setBlocks]
    exact .unsubscribes
  | send m =>
    simp only [State.serve?] at h
    split at h <;> cases h
    exact .still

/-- The session's own task, the sender and the pinger leave the pipeline alone. -/
theorem pipeline_stepStage? {m : StageMove} (h : s.stepStage? now m = some s') :
    s'.pipeline = s.pipeline := by
  obtain ⟨_, _, _, _, rfl⟩ := eq_of_stepStage? h
  rfl

theorem pipeline_stepSender? {m : SenderMove} (h : s.stepSender? m = some s') :
    s'.pipeline = s.pipeline := by
  obtain ⟨_, _, rfl⟩ := eq_of_stepSender? h
  rfl

theorem pipeline_stepPinger? {m : PingerMove} (h : s.stepPinger? now m = some s') :
    s'.pipeline = s.pipeline := by
  obtain ⟨_, _, _, rfl⟩ := eq_of_stepPinger? h
  rfl

/-- What happens to a session that is not given up, happens to its pipeline as listed. -/
theorem passes_of_act? {e : Event} (h : s.act? e = some s') (he : e ≠ .drop) :
    Passes s.halted s.pipeline e.exchange s'.pipeline := by
  cases e with
  | move now m =>
    cases moves_of_step? h with
    | stage hmove =>
      rw [pipeline_stepStage? hmove]
      exact .still
    | sender hmove =>
      rw [pipeline_stepSender? hmove]
      exact .still
    | receiver hmove => exact passes_of_stepReceiver? hmove
    | decoder hmove => exact passes_of_stepDecoder? hmove
    | pinger hmove =>
      rw [pipeline_stepPinger? hmove]
      exact .still
  | client c => exact passes_of_serve? h
  | cancel =>
    cases h
    exact .still
  | drop => exact absurd rfl he

end Wiretap.Session
