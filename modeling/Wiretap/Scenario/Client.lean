import Wiretap.Manager
import Wiretap.Scenario.Live

/-!
# Clients of sessions

A client of scripted sessions subscribes to blocks, sends messages and requests, plays the agent on
the other end of a channel, and looks at what was written to it. Sessions and their channels are
found by number in some world, which settles between the steps.
-/

namespace Wiretap.Scenario

/-- Access to the sessions of a world, and what lets the world settle. -/
structure Desk (σ : Type) where
  live? : σ → Nat → Option Live
  setLive : σ → Nat → Live → σ
  settle : σ → σ

/-- A step of a client. -/
inductive ClientStep where
  | subscribe (d : Block.Direction)
  | unsubscribe (d : Block.Direction)
  | receive (d : Block.Direction) (max : Option Nat)
  /-- The agent's reads that follow. -/
  | feed (reads : List (Except Fault Bytes))
  /-- The agent goes away. -/
  | hangUp
  | planWrites (plan : List WritePlan)
  | blockWrites (on : Bool)
  /-- Looks at what was written since the last look. -/
  | written
  | request (bytes : Bytes)
  | send (m : Message) (times : Nat)

inductive ClientAnswer where
  | nothing
  | flag (b : Bool)
  | blocks (bs : List Block) (why : Live.Taken)
  /-- Reads that were not taken yet. -/
  | unread (n : Nat)
  | written (pieces : List Bytes) (closes : Nat)
  /-- What is wrong with a request, if anything is. -/
  | reply (e : Option Manager.CallError)
  | sent (es : List (Option Manager.CallError))

/-- What a client holds. Streams are held under the process that they were asked for. -/
structure Client where
  held : List ((UInt32 × Block.Direction) × Nat) := []
  /-- How many pieces of a channel have been looked at. -/
  seen : List (Nat × Nat) := []

/-- Whom a step concerns: the process, its session as the client knows it, and the session whose
channel was opened last for the process. -/
structure Target where
  pid : UInt32
  session : Option Nat
  channel : Option Nat

namespace Client

variable {σ : Type}

def alter (desk : Desk σ) (i : Nat) (f : Live → Live) (w : σ) : σ :=
  match desk.live? w i with
  | some l => desk.setLive w i (f l)
  | none => w

/-- Queues a message once: what is wrong, if anything is. -/
def sendOnce (desk : Desk σ) (i : Nat) (m : Message) (w : σ) : σ × Option Manager.CallError :=
  match desk.live? w i with
  | none => (w, none)
  | some l =>
    match l.send m with
    | (l, .ok) => (desk.setLive w i l, none)
    | (l, .senderGone) => (w, some (.senderClosed l.session.id))
    | (_, .waits) => (w, some .waits)

/-- Queues a message, and gives up if it has to wait for more than the others can do at once. -/
def send (desk : Desk σ) (i : Nat) (m : Message) (w : σ) : σ × Option Manager.CallError :=
  match sendOnce desk i m w with
  | (w, some .waits) => sendOnce desk i m (desk.settle w)
  | r => r

def sendTimes (desk : Desk σ) (i : Nat) (m : Message) :
    Nat → σ → List (Option Manager.CallError) → σ × List (Option Manager.CallError)
  | 0, w, sent => (w, sent.reverse)
  | n + 1, w, sent =>
    let (w, e) := send desk i m w
    sendTimes desk i m n w (e :: sent)

def subscribe (c : Client) (desk : Desk σ) (target : Target) (d : Block.Direction) (w : σ) :
    Client × σ × ClientAnswer :=
  match target.session.bind fun i => (desk.live? w i).map fun l => (i, l) with
  | none => (c, w, .flag false)
  | some (i, l) =>
    match l.session.subscribe? d with
    | none => (c, w, .flag false)
    | some session =>
      let w := desk.setLive w i { l with session }
      let w := match c.held.lookup (target.pid, d) with
        | some old => if old = i then w else alter desk old (·.unsubscribe d) w
        | none => w
      ({ c with held := ((target.pid, d), i) :: c.held.filter (·.1 != (target.pid, d)) }, w,
        .flag true)

/-- Does something to the channel of the target, and lets the world settle. -/
def onChannel (desk : Desk σ) (target : Target) (f : Channel → Channel) (w : σ) : σ :=
  match target.channel with
  | some i => desk.settle (alter desk i (fun l => { l with channel := f l.channel }) w)
  | none => w

def step (c : Client) (desk : Desk σ) (target : Target) (w : σ) :
    ClientStep → Client × σ × ClientAnswer
  | .subscribe d => c.subscribe desk target d w
  | .unsubscribe d =>
    match c.held.lookup (target.pid, d) with
    | some i =>
      ({ c with held := c.held.filter (·.1 != (target.pid, d)) }, alter desk i (·.unsubscribe d) w,
        .flag true)
    | none => (c, w, .flag false)
  | .receive d max =>
    match (c.held.lookup (target.pid, d)).bind fun i => (desk.live? w i).map fun l => (i, l) with
    | some (i, l) =>
      let (l, blocks, why) := l.recv d max
      (c, desk.setLive w i l, .blocks blocks why)
    | none => (c, w, .blocks [] .closed)
  | .feed reads =>
    let w := onChannel desk target (fun ch => { ch with reads := ch.reads ++ reads }) w
    let left := (target.channel.bind (desk.live? w)).map (·.channel.reads.length)
    (c, w, .unread (left.getD 0))
  | .hangUp => (c, onChannel desk target ({ · with ended := true }) w, .nothing)
  | .planWrites plan =>
    (c, onChannel desk target (fun ch => { ch with writes := ch.writes ++ plan }) w, .nothing)
  | .blockWrites on => (c, onChannel desk target ({ · with blocked := on }) w, .nothing)
  | .written =>
    match target.channel.bind fun i => (desk.live? w i).map fun l => (i, l.channel) with
    | some (i, ch) =>
      ({ c with seen := (i, ch.pieces.length) :: c.seen.filter (·.1 != i) }, w,
        .written (ch.piecesSince ((c.seen.lookup i).getD 0)) ch.closes)
    | none => (c, w, .written [] 0)
  | .request bytes =>
    match target.session, Request.decode bytes with
    | none, _ => (c, w, .reply (some (.sessionNotFound target.pid)))
    | some _, .error e => (c, w, .reply (some (.request e)))
    | some i, .ok m =>
      let (w, e) := send desk i m w
      (c, w, .reply e)
  | .send m times =>
    match target.session with
    | some i =>
      let (w, sent) := sendTimes desk i m times w []
      (c, w, .sent sent)
    | none => (c, w, .sent [])

end Client
end Wiretap.Scenario
