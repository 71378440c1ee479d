import Wiretap.Session.State

/-!
# Moves of a session

A session moves one task at a time. A move that reads, writes or closes the channel carries what the
channel answered. Every order of moves that `State.step?` allows can happen.

Results:

* `stepSender?_finished`, `stepReceiver?_finished`, `stepDecoder?_finished`, `stepPinger?_finished`:
  a service that is over makes no move.
-/

namespace Wiretap.Session

/-- A move of the session's own task. -/
inductive StageMove where
  | start
  /-- It sees that it is cancelled, and tells its services to stop. -/
  | heed
  /-- Its next step to prime the agent. -/
  | prime
  /-- Its services are over, and it goes on to close the connection. -/
  | gather
  | wroteFarewell (r : Except Fault Nat)
  | hungUp (r : Except Fault Unit)

inductive SenderMove where
  | takes
  | wrote (r : Except Fault Nat)
  | stops

inductive ReceiverMove where
  | decodes
  | offers
  | read (r : Except Fault Bytes)
  | stops
  | wroteFarewell (r : Except Fault Nat)
  | hungUp (r : Except Fault Unit)

inductive DecoderMove where
  | takes
  | emits
  | stops

inductive PingerMove where
  | starts
  | ticks
  | offers
  | stops
  /-- Its rest after a failure ends. -/
  | awakes

inductive Move where
  | stage (m : StageMove)
  | sender (m : SenderMove)
  | receiver (m : ReceiverMove)
  | decoder (m : DecoderMove)
  | pinger (m : PingerMove)

namespace State

/-- What a call of `ChannelConnection::close` by the session comes to. -/
def stageAfter : Closing → Stage
  | .done _ => .finished
  | stage => .closing stage

/-- Model of the loop of `handshake`: queues the next option, or gives up if the sender is gone. -/
def primeNext? (s : State) (since : Nat) : List UInt32 → Option State
  | [] => some { s with stage := .primed }
  | option :: options =>
    match s.send (.enableOption option) with
    | .accepted outgoing => some { s with outgoing, stage := .priming options since }
    | .refused => some { s with stage := .primed }
    | .full => none

/-- Model of `Session::serve`: `handshake`, up to where the session is cancelled, then the end of
its services and the closing of the connection. -/
def stepStage? (now : Nat) (m : StageMove) (s : State) : Option State :=
  match m, s.stage with
  | .start, .created => some { s with stage := .delaying (now + s.handshakeDelay) }
  | .heed, .delaying _ | .heed, .priming _ _ | .heed, .primed =>
    if s.cancelled then some { s with stage := .stopping, halted := true } else none
  | .prime, .delaying due =>
    if due ≤ now then some { s with stage := .priming primedOptions now } else none
  | .prime, .priming options since => s.primeNext? since options
  | .gather, .stopping =>
    if s.servicesOver then
      let (conn, closing) := s.conn.beginClose
      some { s with conn, stage := stageAfter closing }
    else none
  | .wroteFarewell _, .closing .farewell => some { s with stage := .closing .hangUp }
  | .hungUp _, .closing .hangUp => some { s with stage := .finished }
  | _, _ => none

/-- Model of `Sender::serve`. A message that is too large for a frame is dropped. A write that falls
short or fails is not repeated; only the end of the stream ends the sender. -/
def stepSender? (m : SenderMove) (s : State) : Option State :=
  match m, s.sender with
  | .takes, .waiting =>
    match s.outgoing.take? with
    | some (message, outgoing) =>
      match Frame.encode message with
      | .ok _ => some { s with outgoing, sender := .writing message }
      | .error _ => some { s with outgoing }
    | none => none
  | .wrote r, .writing _ =>
    match Connection.written r with
    | .error f =>
      some (if f.isEndOfStream then s.endSender .complete else { s with sender := .waiting })
    | .ok _ => some { s with sender := .waiting }
  | .stops, .waiting | .stops, .writing _ => if s.halted then some (s.endSender .stopped) else none
  | _, _ => none

/-- Model of `Receiver::serve`. The receiver hands on what its buffer holds (`Receiver::drain`)
before it reads again. A read that fails is repeated; at the end of the stream the receiver closes
the connection and is done. -/
def stepReceiver? (m : ReceiverMove) (s : State) : Option State :=
  match m, s.receiver with
  | .decodes, .draining =>
    match Frame.decode s.buffer with
    | (.ok message, buffer) => some { s with buffer, receiver := .offering message }
    | (.error .incomplete, _) => some { s with receiver := .reading }
    | (.error _, buffer) => some { s with buffer }
  | .offers, .offering message =>
    match s.inbound.offer message with
    | .accepted inbound => some { s with inbound, receiver := .draining }
    | .refused => some { s with receiver := .draining }
    | .full => none
  | .read r, .reading =>
    match Connection.received r with
    | .ok data => some { s with buffer := s.buffer ++ data, receiver := .draining }
    | .error f =>
      if f.isEndOfStream then
        let (conn, closing) := s.conn.beginClose
        let s := { s with conn }
        match closing with
        | .done _ => some (s.endReceiver .complete)
        | closing => some { s with receiver := .closing closing }
      else some { s with receiver := .draining }
  | .stops, .offering _ | .stops, .reading =>
    if s.halted then some (s.endReceiver .stopped) else none
  | .wroteFarewell _, .closing .farewell => some { s with receiver := .closing .hangUp }
  | .hungUp _, .closing .hangUp => some (s.endReceiver .complete)
  | _, _ => none

/-- Model of `ProtocolDecoder::serve`. The decoder waits for room for a block before it takes the
next message. A block without a subscriber is dropped. -/
def stepDecoder? (m : DecoderMove) (s : State) : Option State :=
  match m, s.decoder with
  | .takes, .waiting =>
    match s.inbound.take? with
    | some (message, inbound) =>
      let (decoding, forwarded) := s.decoding.step s.registry message
      let decoder := match forwarded with
        | some (d, b) => .emitting d b
        | none => .waiting
      some { s with inbound, decoding, decoder }
    | none => if s.inbound.ended then some (s.endDecoder .complete) else none
  | .emits, .emitting d b =>
    match (s.blocks d).offer b with
    | .accepted q => some { s.setBlocks d q with decoder := .waiting }
    | .refused => some { s with decoder := .waiting }
    | .full => none
  | .stops, .waiting | .stops, .emitting _ _ =>
    if s.halted then some (s.endDecoder .stopped) else none
  | _, _ => none

/-- Model of `Pinger::serve`, and of `supervise` where the pinger has failed. -/
def stepPinger? (now : Nat) (m : PingerMove) (s : State) : Option State :=
  match m, s.pinger with
  | .starts, .starting =>
    match s.pingerLife with
    | .running _ =>
      match Ticker.start? now s.pingInterval with
      | some t => some { s with pinger := .ticking t }
      | none => some (s.endPinger now (.failed "the period of a ticker must not be zero"))
    | _ => none
  | .ticks, .ticking t =>
    if t.due ≤ now then some { s with pinger := .offering (t.tick now) now } else none
  | .offers, .offering t _ =>
    match s.send .ping with
    | .accepted outgoing => some { s with outgoing, pinger := .ticking t }
    | .refused => some (s.endPinger now .complete)
    | .full => none
  | .stops, .ticking _ | .stops, .offering _ _ =>
    if s.halted then some (s.endPinger now .stopped) else none
  | .awakes, .starting =>
    (s.pingerLife.awake? now s.halted).map fun life =>
      { s with pingerLife := life, pinger := if life.isOver then .finished .stopped else .starting }
  | _, _ => none

/-- The session after a move, if the move can be made now. The services move only in a session that
has started. -/
def step? (now : Nat) (m : Move) (s : State) : Option State :=
  match m with
  | .stage m => s.stepStage? now m
  | .sender m => if s.hasStarted then s.stepSender? m else none
  | .receiver m => if s.hasStarted then s.stepReceiver? m else none
  | .decoder m => if s.hasStarted then s.stepDecoder? m else none
  | .pinger m => if s.hasStarted then s.stepPinger? now m else none

theorem stepSender?_finished {m : SenderMove} {s : State} {e : Exit} (h : s.sender = .finished e) :
    s.stepSender? m = none := by
  unfold stepSender?
  rw [h]
  cases m <;> rfl

theorem stepReceiver?_finished {m : ReceiverMove} {s : State} {e : Exit}
    (h : s.receiver = .finished e) : s.stepReceiver? m = none := by
  unfold stepReceiver?
  rw [h]
  cases m <;> rfl

theorem stepDecoder?_finished {m : DecoderMove} {s : State} {e : Exit}
    (h : s.decoder = .finished e) : s.stepDecoder? m = none := by
  unfold stepDecoder?
  rw [h]
  cases m <;> rfl

theorem stepPinger?_finished {now : Nat} {m : PingerMove} {s : State} {e : Exit}
    (h : s.pinger = .finished e) : s.stepPinger? now m = none := by
  unfold stepPinger?
  rw [h]
  cases m <;> rfl

end State
end Wiretap.Session
