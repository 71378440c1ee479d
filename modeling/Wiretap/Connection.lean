import Wiretap.Fault
import Wiretap.Message

/-!
# Connections

A connection is a channel to one agent. However the other end goes away, a reader and a writer see
the one fault that means end of stream. Closing takes effect once: the first call closes the
channel, and the others return at once. A connection that owns its agent first tells it to unload;
whether that message could be written does not matter.

Results:

* `closed_beginClose`: a call to close a connection leaves it closed.
-/

namespace Wiretap

/-- Where a call of `ChannelConnection::close` stands. -/
inductive Closing where
  /-- It waits until the farewell to the agent is written. -/
  | farewell
  /-- It waits until the channel is closed. -/
  | hangUp
  | done (result : Except Fault Unit)

/-- Model of `ChannelConnection`. Its channel is outside: what it answers comes with the moves. -/
structure Connection where
  /-- The agent was brought up by this service. -/
  owner : Bool
  closed : Bool := false
  deriving DecidableEq, Repr

namespace Connection

/-- Model of `ChannelConnection::normalize`: what a fault of the channel means. -/
def normalise (f : Fault) : Fault := if f.kind.isRemoteClosed then .endOfStream else f

/-- Model of `ChannelConnection::read`: what a read gives, from what the channel gives. Nothing read
is the end of the stream. -/
def received : Except Fault Bytes → Except Fault Bytes
  | .ok [] => .error .endOfStream
  | .ok data => .ok data
  | .error f => .error (normalise f)

/-- Model of `ChannelConnection::write`: what a write gives, from what the channel gives. -/
def written : Except Fault Nat → Except Fault Nat
  | .ok n => .ok n
  | .error f => .error (normalise f)

/-- Model of `ChannelConnection::close`, up to where it waits for the channel. -/
def beginClose (c : Connection) : Connection × Closing :=
  if c.closed then (c, .done (.ok ()))
  else ({ c with closed := true }, if c.owner then .farewell else .hangUp)

/-- The record text of a connection. -/
def describe (c : Connection) : String :=
  "ChannelConnection \x7b is_owner: " ++ toString c.owner ++ ", closed: " ++ toString c.closed
    ++ " \x7d"

theorem closed_beginClose (c : Connection) : c.beginClose.1.closed = true := by
  unfold beginClose
  split <;> simp_all

end Connection
end Wiretap
