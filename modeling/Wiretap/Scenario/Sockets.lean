import Wiretap.Bytes
import Wiretap.Fault
import Wiretap.Platform.Socket

/-!
# Sockets in a directory

Agents listen on sockets in one directory, and a channel is opened to one of them at a time. A
socket takes all that is written to it. An agent that goes away before it has read everything resets
the connection.
-/

namespace Wiretap.Scenario

/-- A connection to an agent. -/
structure Socket where
  toAgent : Bytes := []
  fromAgent : Bytes := []
  /-- The writing side has been closed. -/
  shut : Bool := false
  agentGone : Bool := false
  /-- The next read past what has arrived reports the reset. -/
  reset : Bool := false

structure Sockets where
  /-- The names on which agents listen. -/
  listening : List String := []
  /-- The names whose socket is there without an agent that listens. -/
  deserted : List String := []
  socket : Option Socket := none

namespace Sockets

inductive Step where
  | listen (name : String)
  | unlisten (name : String)
  | connect (name : String)
  | read
  | write (data : Bytes)
  | close
  | agentWrite (data : Bytes)
  | agentRead
  | agentDrop

inductive Answer where
  | nothing
  | opened (f : Option FaultKind)
  | data (bs : Bytes)
  | count (n : Nat)
  | done
  | fault (f : Fault)
  /-- The call would wait, and is given up. -/
  | blocked

/-- The length in bytes of a directory for temporary files with the dash after it. -/
def directoryLength : Nat := 16

/-- What is wrong with opening the channel of that name, if anything is. -/
def openingFault (s : Sockets) (name : String) : Option FaultKind :=
  let file := Platform.socketPath "" name
  let length := if file.toList.head? = some '/' then 0 else directoryLength
  if file.toList.contains '\x00' ∨ Platform.socketPathLimit ≤ length + file.utf8ByteSize then
    some .invalidInput
  else if name ∈ s.listening then none
  else if name ∈ s.deserted then some .connectionRefused
  else some .notFound

def connectionReset : Fault := ⟨.connectionReset, "Connection reset by peer (os error 104)"⟩

/-- What a read gives: what has arrived, up to a limit, or the way in which the agent has gone. -/
def readFrom (k : Socket) : Socket × Answer :=
  if k.fromAgent.isEmpty then
    if k.reset then ({ k with reset := false }, .fault connectionReset)
    else if k.agentGone then (k, .data []) else (k, .blocked)
  else
    ({ k with fromAgent := k.fromAgent.drop Platform.readChunk },
      .data (k.fromAgent.take Platform.readChunk))

/-- A step on the open channel. -/
def stepSocket (k : Socket) : Step → Socket × Answer
  | .read => readFrom k
  | .write data =>
    if k.shut || k.agentGone then (k, .fault .brokenSocket)
    else ({ k with toAgent := k.toAgent ++ data }, .count data.length)
  | .close => ({ k with shut := true }, .done)
  | .agentWrite data =>
    (if k.agentGone then k else { k with fromAgent := k.fromAgent ++ data }, .nothing)
  | .agentRead =>
    if k.toAgent.isEmpty && !k.shut then (k, .blocked)
    else
      ({ k with toAgent := k.toAgent.drop Platform.readChunk },
        .data (k.toAgent.take Platform.readChunk))
  | .agentDrop => ({ k with agentGone := true, reset := !k.toAgent.isEmpty }, .nothing)
  | _ => (k, .nothing)

def step (s : Sockets) (m : Step) : Sockets × Answer :=
  match m with
  | .listen name => ({ s with listening := name :: s.listening }, .nothing)
  | .unlisten name =>
    ({ s with
        listening := s.listening.filter (· != name)
        deserted := if name ∈ s.listening then name :: s.deserted else s.deserted },
      .nothing)
  | .connect name =>
    match s.openingFault name with
    | none => ({ s with socket := some {} }, .opened none)
    | some kind => (s, .opened (some kind))
  | m =>
    match s.socket with
    | some k =>
      let (k, answer) := stepSocket k m
      ({ s with socket := some k }, answer)
    | none => (s, .nothing)

end Sockets
end Wiretap.Scenario
