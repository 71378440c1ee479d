import Wiretap.Connection
import Wiretap.Frame

/-!
# Channels that follow a script

A scripted channel knows beforehand what its reads and writes give. It keeps the pieces that were
written to it and counts how often it was closed.

Results:

* `pieces_write?`: a write that is taken adds one piece, a prefix of what was to be written.
-/

namespace Wiretap.Scenario

/-- What becomes of one write. -/
inductive WritePlan where
  | everything
  | upTo (n : Nat)
  | fails (f : Fault)
  deriving Repr

structure Channel where
  reads : List (Except Fault Bytes) := []
  /-- Past the list a read finds the end of the stream. Otherwise it waits. -/
  ended : Bool := false
  writes : List WritePlan := []
  closeFault : Option Fault := none
  /-- Writes wait. -/
  blocked : Bool := false
  /-- What was written, in reverse order. -/
  pieces : List Bytes := []
  closes : Nat := 0

namespace Channel

/-- What the next read gives, unless it waits. -/
def read? (ch : Channel) : Option (Except Fault Bytes × Channel) :=
  match ch.reads with
  | r :: rest => some (r, { ch with reads := rest })
  | [] => if ch.ended then some (.ok [], ch) else none

/-- What a write of this gives, unless it waits. -/
def write? (ch : Channel) (data : Bytes) : Option (Except Fault Nat × Channel) :=
  if ch.blocked then none
  else
    let ch' := { ch with writes := ch.writes.tail }
    match ch.writes.head?.getD .everything with
    | .everything => some (.ok data.length, { ch' with pieces := data :: ch.pieces })
    | .upTo n =>
      let piece := data.take n
      some (.ok piece.length, { ch' with pieces := piece :: ch.pieces })
    | .fails f => some (.error f, ch')

/-- Closes the channel. -/
def close (ch : Channel) : Except Fault Unit × Channel :=
  (match ch.closeFault with
    | some f => .error f
    | none => .ok (),
    { ch with closes := ch.closes + 1 })

/-- The pieces written since `earlier`, oldest first. -/
def piecesSince (ch : Channel) (earlier : Nat) : List Bytes :=
  (ch.pieces.take (ch.pieces.length - earlier)).reverse

theorem pieces_write? {ch ch' : Channel} {data : Bytes} {n : Nat}
    (h : ch.write? data = some (.ok n, ch')) :
    ∃ k, ch'.pieces = data.take k :: ch.pieces := by
  unfold write? at h
  split at h
  · cases h
  · simp only at h
    split at h
    · cases h
      exact ⟨data.length, by simp⟩
    · next k _ =>
      cases h
      exact ⟨k, rfl⟩
    · cases h

end Channel

/-- A connection over a scripted channel. -/
structure Line where
  conn : Connection
  channel : Channel

namespace Line

/-- A read of the connection, unless it waits. -/
def read? (l : Line) : Option (Except Fault Bytes × Line) :=
  l.channel.read?.map fun (r, channel) => (Connection.received r, { l with channel })

/-- A write to the connection, unless it waits. -/
def write? (l : Line) (data : Bytes) : Option (Except Fault Nat × Line) :=
  (l.channel.write? data).map fun (r, channel) => (Connection.written r, { l with channel })

/-- Goes on with a call to close the connection as far as it gets: its result, unless it waits. -/
def proceed (l : Line) : Closing → Option (Except Fault Unit) × Line
  | .farewell =>
    match l.channel.write? (Frame.bytes .exit) with
    | some (_, channel) =>
      let (r, channel) := channel.close
      (some r, { l with channel })
    | none => (none, l)
  | .hangUp =>
    let (r, channel) := l.channel.close
    (some r, { l with channel })
  | .done r => (some r, l)

/-- A call to close the connection: its result, unless it waits. -/
def close (l : Line) : Option (Except Fault Unit) × Line :=
  let (conn, stage) := l.conn.beginClose
  { l with conn }.proceed stage

inductive Step where
  | read
  | write (data : Bytes)
  | close
  | blockWrites (on : Bool)

inductive Answer where
  | nothing
  | count (n : Nat)
  | done
  | fault (f : Fault)
  /-- The call would wait, and is given up. -/
  | blocked

/-- A step, with a buffer to which reads append. A read that is given up loses the buffer. -/
def step (l : Line) (buffer : Bytes) : Step → Line × Bytes × Answer
  | .read =>
    match l.read? with
    | some (.ok data, l) => (l, buffer ++ data, .count data.length)
    | some (.error f, l) => (l, buffer, .fault f)
    | none => (l, [], .blocked)
  | .write data =>
    match l.write? data with
    | some (.ok n, l) => (l, buffer, .count n)
    | some (.error f, l) => (l, buffer, .fault f)
    | none => (l, buffer, .blocked)
  | .close =>
    match l.close with
    | (some (.ok _), l) => (l, buffer, .done)
    | (some (.error f), l) => (l, buffer, .fault f)
    | (none, l) => (l, buffer, .blocked)
  | .blockWrites on => ({ l with channel.blocked := on }, buffer, .nothing)

end Line
end Wiretap.Scenario
