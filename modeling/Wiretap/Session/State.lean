import Wiretap.Block.Decoder
import Wiretap.Connection
import Wiretap.Frame
import Wiretap.Queue
import Wiretap.Request
import Wiretap.Supervision
import Wiretap.Ticker

/-!
# Sessions

A session serves one agent over one connection. Four services run in it: the sender writes queued
messages to the agent, the receiver reads frames and hands their messages to the decoder, the
decoder hands blocks to the subscribers of either direction, and the pinger queues a ping per
period. The session's own task primes the agent once, and when it is cancelled it ends the four
services and closes the connection.

Results:

* `State.blocks_setBlocks`: only the queue of one direction changes.
* `new?_isSome_iff`: a session can be made exactly when a queue of that capacity can.
-/

namespace Wiretap.Session

/-- Capacity of the queue of outgoing messages (`OUTGOING_QUEUE_LEN`). -/
def outgoingCapacity : Nat := 64

/-- What `handshake` switches on, in this order. -/
def primedOptions : List UInt32 := [Message.ingressOption, Message.egressOption]

/-- Where `Sender::serve` stands. -/
inductive Sender where
  | waiting
  | writing (m : Message)
  | finished (e : Exit)
  deriving DecidableEq, Repr

/-- Where `Receiver::serve` stands. -/
inductive Receiver where
  /-- It reads frames off its buffer. -/
  | draining
  /-- It waits until the decoder has room for a message. -/
  | offering (m : Message)
  | reading
  /-- The agent is gone, and it closes the connection. -/
  | closing (stage : Closing)
  | finished (e : Exit)

/-- Where `ProtocolDecoder::serve` stands. -/
inductive Decoder where
  | waiting
  /-- It waits until a subscriber has room for a block. -/
  | emitting (d : Block.Direction) (b : Block)
  | finished (e : Exit)
  deriving DecidableEq, Repr

/-- Where the current run of `Pinger::serve` stands. -/
inductive Pinger where
  | starting
  | ticking (t : Ticker)
  /-- It waits, since that time, until a ping can be queued. -/
  | offering (t : Ticker) (since : Nat)
  | finished (e : Exit)
  deriving DecidableEq, Repr

def Sender.isOver : Sender → Bool
  | .finished _ => true
  | _ => false

def Receiver.isOver : Receiver → Bool
  | .finished _ => true
  | _ => false

def Decoder.isOver : Decoder → Bool
  | .finished _ => true
  | _ => false

/-- Where `Session::serve`, the session's own task, stands. -/
inductive Stage where
  | created
  /-- It was given up before it ran. -/
  | dropped
  /-- It leaves the agent time to come up. -/
  | delaying (due : Nat)
  /-- It waits, since that time, until the first of these options can be queued. -/
  | priming (options : List UInt32) (since : Nat)
  /-- The agent is primed. -/
  | primed
  /-- It waits until its services are over. -/
  | stopping
  | closing (stage : Closing)
  | finished

/-- Model of `Session`, with its four services and its `SessionHandle`. -/
structure State where
  id : UInt32
  policy : RestartPolicy
  registry : Block.Registry
  handshakeDelay : Nat
  pingInterval : Nat
  conn : Connection
  outgoing : Queue Message := { capacity := outgoingCapacity }
  /-- Messages on their way to the decoder. -/
  inbound : Queue Message
  ingress : Queue Block
  egress : Queue Block
  /-- Bytes that were read and not decoded yet. -/
  buffer : Bytes := []
  decoding : Block.State := {}
  sender : Sender := .waiting
  receiver : Receiver := .draining
  decoder : Decoder := .waiting
  pinger : Pinger := .starting
  pingerLife : Life := .fresh
  stage : Stage := .created
  /-- The directions whose stream of blocks has been handed out. -/
  subscribed : List Block.Direction := []
  /-- The session was told to stop. -/
  cancelled : Bool := false
  /-- Its services were told to stop. -/
  halted : Bool := false

/-- Model of `Session::new`: a session that does not run yet. -/
def new? (id : UInt32) (conn : Connection) (hook : HookConfig) (registry : Block.Registry)
    (policy : RestartPolicy) : Option State := do
  let inbound ← Queue.new? hook.blockBuffer.toNat
  let blocks ← Queue.new? hook.blockBuffer.toNat
  return {
    id, policy, registry, conn, inbound
    handshakeDelay := hook.handshakeDelay.toNat
    pingInterval := hook.pingInterval.toNat
    ingress := blocks
    egress := blocks }

/-- The name under which a session is supervised (`Session::name`). -/
def name (id : UInt32) : String := "stream-" ++ toString id.toNat

/-- What a send reports after the sender has gone (`Error::SenderClosed`). -/
def senderClosedText (id : UInt32) : String :=
  "Sender for stream " ++ toString id.toNat ++ " is closed"

namespace State

def isOver (s : State) : Bool :=
  match s.stage with
  | .finished => true
  | _ => false

/-- The services of the session have been started. -/
def hasStarted (s : State) : Bool :=
  match s.stage with
  | .created | .dropped => false
  | _ => true

/-- All four services are over. -/
def servicesOver (s : State) : Bool :=
  s.sender.isOver && s.receiver.isOver && s.decoder.isOver && s.pingerLife.isOver

/-- The subscriber's queue of one direction. -/
def blocks (s : State) : Block.Direction → Queue Block
  | .ingress => s.ingress
  | .egress => s.egress

def setBlocks (s : State) (d : Block.Direction) (q : Queue Block) : State :=
  match d with
  | .ingress => { s with ingress := q }
  | .egress => { s with egress := q }

/-- Model of `SessionHandle::subscribe_ingress` and `SessionHandle::subscribe_egress`: hands out the
stream of one direction. Only the first call gets it. -/
def subscribe? (s : State) (d : Block.Direction) : Option State :=
  if d ∈ s.subscribed then none else some { s with subscribed := d :: s.subscribed }

/-- `Sender::serve` returns: what is queued is lost, and nothing can be queued any more. -/
def endSender (s : State) (e : Exit) : State :=
  { s with sender := .finished e, outgoing := s.outgoing.close }

/-- `Receiver::serve` returns: no more messages come for the decoder. -/
def endReceiver (s : State) (e : Exit) : State :=
  { s with receiver := .finished e, inbound := s.inbound.finish }

/-- `ProtocolDecoder::serve` returns: messages for it are lost, and both streams of blocks end. -/
def endDecoder (s : State) (e : Exit) : State :=
  { s with
    decoder := .finished e
    inbound := s.inbound.close
    ingress := s.ingress.finish
    egress := s.egress.finish }

/-- A run of `Pinger::serve` returns, and `supervise` goes on from there. No other service of a
session fails. -/
def endPinger (s : State) (now : Nat) (e : Exit) : State :=
  match s.pingerLife with
  | .running failures =>
    let life := Life.ended s.policy now s.halted failures e
    { s with pingerLife := life, pinger := if life.isOver then .finished e else .starting }
  | _ => s

/-- Gives up a session that has not run. -/
def dropped (s : State) : State :=
  { s with
    stage := .dropped
    outgoing := s.outgoing.close
    inbound := s.inbound.finish.close
    ingress := s.ingress.finish
    egress := s.egress.finish }

/-- Model of `SenderHandle::send`: queues a message for the agent. -/
def send (s : State) (m : Message) : Offer Message := s.outgoing.offer m

theorem blocks_setBlocks (s : State) (d d' : Block.Direction) (q : Queue Block) :
    (s.setBlocks d q).blocks d' = if d' = d then q else s.blocks d' := by
  cases d <;> cases d' <;> rfl

end State

theorem new?_isSome_iff {id : UInt32} {conn : Connection} {hook : HookConfig}
    {registry : Block.Registry} {policy : RestartPolicy} :
    (new? id conn hook registry policy).isSome ↔
      (@Queue.new? Message hook.blockBuffer.toNat).isSome := by
  unfold new? Queue.new?
  split <;> simp

end Wiretap.Session
