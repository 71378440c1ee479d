import Wiretap.Scenario.Channel
import Wiretap.Scenario.Clock
import Wiretap.Session.Step

/-!
# Sessions on scripted channels

A session together with the channel that it serves. Where several moves are open the session's tasks
see first that they are to stop; of two tasks that wait for room in the outgoing queue the one that
has waited longer goes first.
-/

namespace Wiretap.Scenario

open Session

/-- A session and its channel. -/
structure Live where
  session : State
  channel : Channel

namespace Live

def make? (now : Nat) (m : Move) (l : Live) : Option Live :=
  (l.session.step? now m).map fun session => { l with session }

/-- A move that depends on what the channel does. -/
def exchange? {α : Type} (now : Nat) (answer : Option (α × Channel)) (m : α → Move) (l : Live) :
    Option Live :=
  match answer with
  | some (r, channel) => { l with channel }.make? now (m r)
  | none => none

def stageExchange? (now : Nat) (l : Live) : Option Live :=
  match l.session.stage with
  | .closing .farewell =>
    l.exchange? now (l.channel.write? (Frame.bytes .exit)) fun r => .stage (.wroteFarewell r)
  | .closing .hangUp => l.exchange? now (some l.channel.close) fun r => .stage (.hungUp r)
  | _ => none

def senderExchange? (now : Nat) (l : Live) : Option Live :=
  match l.session.sender with
  | .writing m => l.exchange? now (l.channel.write? (Frame.bytes m)) fun r => .sender (.wrote r)
  | _ => none

def receiverExchange? (now : Nat) (l : Live) : Option Live :=
  match l.session.receiver with
  | .reading => l.exchange? now l.channel.read? fun r => .receiver (.read r)
  | .closing .farewell =>
    l.exchange? now (l.channel.write? (Frame.bytes .exit)) fun r => .receiver (.wroteFarewell r)
  | .closing .hangUp => l.exchange? now (some l.channel.close) fun r => .receiver (.hungUp r)
  | _ => none

/-- The moves by which the two producers of the outgoing queue go on, the longer waiting first. -/
def producers (s : State) : List Move :=
  match s.stage, s.pinger with
  | .priming _ since, .offering _ since' =>
    if since' < since then [.pinger .offers, .stage .prime] else [.stage .prime, .pinger .offers]
  | _, _ => [.stage .prime, .pinger .offers]

/-- The moves that need no answer from the channel. -/
def ownMoves (s : State) : List Move :=
  [.stage .heed, .sender .stops, .receiver .stops, .decoder .stops, .pinger .stops,
    .decoder .emits, .decoder .takes, .receiver .offers, .receiver .decodes, .sender .takes]
    ++ producers s
    ++ [.pinger .starts, .pinger .ticks, .pinger .awakes, .stage .gather]

def move? (now : Nat) (l : Live) : Option Live :=
  (ownMoves l.session).findSome? (l.make? now)
    <|> l.senderExchange? now <|> l.receiverExchange? now <|> l.stageExchange? now

/-- The timers that a session waits for. -/
def alarms (s : State) : List Nat :=
  (match s.stage with
    | .delaying due => [due]
    | _ => [])
  ++ (if s.hasStarted then
      (match s.pinger with
        | .ticking t => [t.due]
        | _ => [])
      ++ (match s.pingerLife with
        | .resting _ due => [due]
        | _ => [])
    else [])

def alarm? (now : Nat) (l : Live) : Option Nat := ((alarms l.session).filter (now < ·)).min?

def world : World Live := ⟨move?, alarm?⟩

/-- Starts a session that does not run yet. -/
def start (now : Nat) (l : Live) : Live := (l.make? now (.stage .start)).getD l

/-- Gives up a session that does not run yet. -/
def drop (l : Live) : Live :=
  match l.session.stage with
  | .created => { l with session := l.session.dropped }
  | _ => l

/-- Tells a session to stop. -/
def cancel (l : Live) : Live := { l with session.cancelled := true }

/-- What becomes of a message for the agent. -/
inductive Sent where
  | ok
  | senderGone
  /-- The queue is full. -/
  | waits
  deriving DecidableEq, Repr

/-- Queues a message for the agent. -/
def send (m : Message) (l : Live) : Live × Sent :=
  match l.session.send m with
  | .accepted outgoing => ({ l with session.outgoing := outgoing }, .ok)
  | .refused => (l, .senderGone)
  | .full => (l, .waits)

/-- Why the taking of blocks ended. -/
inductive Taken where
  | enough
  | empty
  | closed
  deriving DecidableEq, Repr

/-- Takes up to `max` blocks of one direction that are queued now. -/
def recv (l : Live) (d : Block.Direction) (max : Option Nat) : Live × List Block × Taken :=
  let q := l.session.blocks d
  let taken := match max with
    | some n => q.items.take n
    | none => q.items
  let q' := { q with items := q.items.drop taken.length }
  let why :=
    if max.any (taken.length = ·) then .enough else if q'.ended then .closed else .empty
  ({ l with session := l.session.setBlocks d q' }, taken, why)

/-- A subscriber goes away. -/
def unsubscribe (l : Live) (d : Block.Direction) : Live :=
  { l with session := l.session.setBlocks d (l.session.blocks d).close }

end Live
end Wiretap.Scenario
