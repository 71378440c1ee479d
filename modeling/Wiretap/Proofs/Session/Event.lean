import Wiretap.Proofs.Frame.Chunks
import Wiretap.Proofs.Run
import Wiretap.Session.Step

/-!
# Runs of a session

Around a session there are its subscribers, those who send messages to its agent, and whoever owns
it. Their events and the moves of the session happen in any order that `State.act?` allows.

Results:

* `eq_of_new?`: what a new session is like.
* `moves_of_step?`: each move is that of one of the five tasks.
* `eq_of_stepStage?`, `eq_of_stepSender?`, `eq_of_stepReceiver?`, `eq_of_stepDecoder?`,
  `eq_of_stepPinger?`, `eq_of_serve?`: what each task, and a client, can change.
* `settings_of_act?`: the settings of a session stay as they are.
* `bytesRead_append`, `received_append`: what the events exchange adds up.
-/

namespace Wiretap.Session

/-- Something that a client of a session does. -/
inductive ClientEvent where
  | subscribe (d : Block.Direction)
  /-- A subscriber takes the oldest block of its stream. -/
  | receive (d : Block.Direction) (b : Block)
  /-- A subscriber drops its stream. -/
  | unsubscribe (d : Block.Direction)
  | send (m : Message)

/-- Something that happens to a session. -/
inductive Event where
  | move (now : Nat) (m : Move)
  | client (c : ClientEvent)
  | cancel
  /-- It is given up before it ran. -/
  | drop

namespace State

/-- The session after its client did something. A block is received only where it is the
next one. -/
def serve? (s : State) : ClientEvent → Option State
  | .subscribe d => s.subscribe? d
  | .receive d b =>
    match (s.blocks d).take? with
    | some (b', q) => if d ∈ s.subscribed ∧ b' = b then some (s.setBlocks d q) else none
    | none => none
  | .unsubscribe d => if d ∈ s.subscribed then some (s.setBlocks d (s.blocks d).close) else none
  | .send m =>
    match s.send m with
    | .accepted outgoing => some { s with outgoing }
    | _ => none

/-- The session after an event, if that can happen now. -/
def act? (s : State) : Event → Option State
  | .move now m => s.step? now m
  | .client c => s.serve? c
  | .cancel => some { s with cancelled := true }
  | .drop =>
    match s.stage with
    | .created => some s.dropped
    | _ => none

end State

/-! ## What a move can change -/

variable {s s' : State} {now : Nat}

theorem eq_of_new? {id : UInt32} {conn : Connection} {hook : HookConfig} {r : Block.Registry}
    {policy : RestartPolicy} (h : new? id conn hook r policy = some s) :
    0 < hook.blockBuffer.toNat ∧ s =
      { id, policy, registry := r, conn
        handshakeDelay := hook.handshakeDelay.toNat
        pingInterval := hook.pingInterval.toNat
        inbound := { capacity := hook.blockBuffer.toNat }
        ingress := { capacity := hook.blockBuffer.toNat }
        egress := { capacity := hook.blockBuffer.toNat } } := by
  simp only [new?, Option.bind_eq_bind, Option.bind_eq_some_iff] at h
  obtain ⟨inbound, hinbound, blocks, hblocks, h⟩ := h
  obtain ⟨hroom, rfl⟩ := Queue.eq_of_new? hinbound
  obtain ⟨-, rfl⟩ := Queue.eq_of_new? hblocks
  cases h
  exact ⟨hroom, rfl⟩

/-- Which of its tasks makes a move of the session. -/
inductive Moves (now : Nat) (s s' : State) : Move → Prop where
  | stage {m : StageMove} (h : s.stepStage? now m = some s') : Moves now s s' (.stage m)
  | sender {m : SenderMove} (h : s.stepSender? m = some s') : Moves now s s' (.sender m)
  | receiver {m : ReceiverMove} (h : s.stepReceiver? m = some s') : Moves now s s' (.receiver m)
  | decoder {m : DecoderMove} (h : s.stepDecoder? m = some s') : Moves now s s' (.decoder m)
  | pinger {m : PingerMove} (h : s.stepPinger? now m = some s') : Moves now s s' (.pinger m)

theorem moves_of_step? {m : Move} (h : s.step? now m = some s') : Moves now s s' m := by
  unfold State.step? at h
  split at h
  next => exact .stage h
  next =>
    split at h
    next => exact .sender h
    next => cases h
  next =>
    split at h
    next => exact .receiver h
    next => cases h
  next =>
    split at h
    next => exact .decoder h
    next => cases h
  next =>
    split at h
    next => exact .pinger h
    next => cases h

theorem eq_of_stepStage? {m : StageMove} (h : s.stepStage? now m = some s') :
    ∃ stage halted outgoing conn, s' = { s with stage, halted, outgoing, conn } := by
  unfold State.stepStage? State.primeNext? at h
  split at h
  all_goals repeat' split at h
  all_goals cases h <;> exact ⟨_, _, _, _, rfl⟩

theorem eq_of_stepSender? {m : SenderMove} (h : s.stepSender? m = some s') :
    ∃ sender outgoing, s' = { s with sender, outgoing } := by
  unfold State.stepSender? State.endSender at h
  split at h
  all_goals repeat' split at h
  all_goals cases h <;> exact ⟨_, _, rfl⟩

theorem eq_of_stepReceiver? {m : ReceiverMove} (h : s.stepReceiver? m = some s') :
    ∃ receiver buffer inbound conn, s' = { s with receiver, buffer, inbound, conn } := by
  unfold State.stepReceiver? State.endReceiver at h
  split at h
  all_goals repeat' split at h
  all_goals cases h <;> exact ⟨_, _, _, _, rfl⟩

theorem State.eq_of_setBlocks (s : State) (d : Block.Direction) (q : Queue Block) :
    ∃ ingress egress, s.setBlocks d q = { s with ingress, egress } := by
  cases d <;> exact ⟨_, _, rfl⟩

theorem eq_of_stepDecoder? {m : DecoderMove} (h : s.stepDecoder? m = some s') :
    ∃ decoder decoding inbound ingress egress,
      s' = { s with decoder, decoding, inbound, ingress, egress } := by
  unfold State.stepDecoder? State.endDecoder at h
  split at h
  all_goals repeat' split at h
  all_goals cases h
  all_goals first
    | exact ⟨_, _, _, _, _, rfl⟩
    | obtain ⟨ingress, egress, hset⟩ := State.eq_of_setBlocks s _ _
      rw [hset]
      exact ⟨_, _, _, _, _, rfl⟩

theorem State.eq_of_endPinger (s : State) (now : Nat) (e : Exit) :
    ∃ pinger pingerLife, s.endPinger now e = { s with pinger, pingerLife } := by
  unfold State.endPinger
  split <;> exact ⟨_, _, rfl⟩

theorem eq_of_stepPinger? {m : PingerMove} (h : s.stepPinger? now m = some s') :
    ∃ pinger pingerLife outgoing, s' = { s with pinger, pingerLife, outgoing } := by
  have hends : ∀ e, some (s.endPinger now e) = some s' →
      ∃ pinger pingerLife outgoing, s' = { s with pinger, pingerLife, outgoing } := by
    intro e he
    cases he
    obtain ⟨pinger, pingerLife, hend⟩ := s.eq_of_endPinger now e
    exact ⟨pinger, pingerLife, _, hend⟩
  unfold State.stepPinger? at h
  split at h
  all_goals repeat' split at h
  all_goals first
    | exact hends _ h
    | cases h; exact ⟨_, _, _, rfl⟩
    | cases h
    | skip
  obtain ⟨life, -, rfl⟩ := Option.map_eq_some_iff.mp h
  exact ⟨_, _, _, rfl⟩

theorem eq_of_serve? {c : ClientEvent} (h : s.serve? c = some s') :
    ∃ outgoing ingress egress subscribed,
      s' = { s with outgoing, ingress, egress, subscribed } := by
  unfold State.serve? State.subscribe? at h
  split at h
  all_goals repeat' split at h
  all_goals cases h
  all_goals first
    | exact ⟨_, _, _, _, rfl⟩
    | obtain ⟨ingress, egress, hset⟩ := State.eq_of_setBlocks s _ _
      rw [hset]
      exact ⟨_, _, _, _, rfl⟩

/-- Nothing that happens to a session changes how long it waits before it primes its agent, and
between two pings. -/
theorem settings_of_act? {e : Event} (h : s.act? e = some s') :
    s'.handshakeDelay = s.handshakeDelay ∧ s'.pingInterval = s.pingInterval := by
  cases e with
  | move now m =>
    cases moves_of_step? h with
    | stage hmove => obtain ⟨_, _, _, _, rfl⟩ := eq_of_stepStage? hmove; exact ⟨rfl, rfl⟩
    | sender hmove => obtain ⟨_, _, rfl⟩ := eq_of_stepSender? hmove; exact ⟨rfl, rfl⟩
    | receiver hmove => obtain ⟨_, _, _, _, rfl⟩ := eq_of_stepReceiver? hmove; exact ⟨rfl, rfl⟩
    | decoder hmove => obtain ⟨_, _, _, _, _, rfl⟩ := eq_of_stepDecoder? hmove; exact ⟨rfl, rfl⟩
    | pinger hmove => obtain ⟨_, _, _, rfl⟩ := eq_of_stepPinger? hmove; exact ⟨rfl, rfl⟩
  | client c => obtain ⟨_, _, _, _, rfl⟩ := eq_of_serve? h; exact ⟨rfl, rfl⟩
  | cancel => cases h; exact ⟨rfl, rfl⟩
  | drop =>
    simp only [State.act?] at h
    split at h <;> cases h
    exact ⟨rfl, rfl⟩

/-! ## What goes in and out -/

/-- What an event brings into a session, or takes out of it. -/
inductive Exchange where
  | nothing
  | read (data : Bytes)
  | received (d : Block.Direction) (b : Block)
  | unsubscribed (d : Block.Direction)
  deriving DecidableEq

def Event.exchange : Event → Exchange
  | .move _ (.receiver (.read r)) =>
    match Connection.received r with
    | .ok data => .read data
    | .error _ => .nothing
  | .client (.receive d b) => .received d b
  | .client (.unsubscribe d) => .unsubscribed d
  | _ => .nothing

/-- The bytes that were read. -/
def bytesRead (xs : List Exchange) : Bytes :=
  xs.flatMap fun
    | .read data => data
    | _ => []

/-- The blocks that the subscriber of this direction received. -/
def received (d : Block.Direction) (xs : List Exchange) : List Block :=
  xs.flatMap fun
    | .received d' b => if d' = d then [b] else []
    | _ => []

@[simp] theorem bytesRead_append (xs ys : List Exchange) :
    bytesRead (xs ++ ys) = bytesRead xs ++ bytesRead ys := List.flatMap_append

@[simp] theorem received_append (d : Block.Direction) (xs ys : List Exchange) :
    received d (xs ++ ys) = received d xs ++ received d ys := List.flatMap_append

end Wiretap.Session
