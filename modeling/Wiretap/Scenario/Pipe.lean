import Wiretap.Fault
import Wiretap.Bytes
import Wiretap.Platform.Socket

/-!
# Pipes within the process

A channel can run over a pair of pipes, one each way, which hold a limited number of bytes. A pipe
that is closed at either end takes nothing more, but what it holds can still be read.

Results:

* `held_write?`: a write adds a prefix of its data at the end.
-/

namespace Wiretap.Scenario

/-- A one-way pipe. -/
structure Pipe where
  capacity : Nat
  held : Bytes := []
  closed : Bool := false

namespace Pipe

/-- What a write gives, unless it waits: how many bytes it put in. -/
def write? (p : Pipe) (data : Bytes) : Option (Except Fault Nat × Pipe) :=
  if p.closed then some (.error .brokenPipe, p)
  else if p.capacity ≤ p.held.length then none
  else
    let taken := data.take (p.capacity - p.held.length)
    some (.ok taken.length, { p with held := p.held ++ taken })

/-- What a read of at most so many bytes gives, unless it waits. -/
def read? (p : Pipe) (max : Nat) : Option (Bytes × Pipe) :=
  if p.held.isEmpty && !p.closed then none
  else some (p.held.take max, { p with held := p.held.drop max })

theorem held_write? {p p' : Pipe} {data : Bytes} {n : Nat} (h : p.write? data = some (.ok n, p')) :
    ∃ k, p'.held = p.held ++ data.take k := by
  unfold write? at h
  split at h
  · cases h
  · split at h
    · cases h
    · cases h
      exact ⟨_, rfl⟩

end Pipe

/-- A channel to an agent over two pipes. -/
structure PipeChannel where
  toAgent : Pipe
  fromAgent : Pipe

namespace PipeChannel

inductive Step where
  | read
  | write (data : Bytes)
  | close
  | agentWrite (data : Bytes)
  | agentRead (max : Nat)
  /-- The agent goes away. -/
  | agentDrop

inductive Answer where
  | nothing
  | data (bs : Bytes)
  | count (n : Nat)
  | done
  | fault (f : Fault)
  /-- The call would wait, and is given up. -/
  | blocked

def ofCapacity (capacity : Nat) : PipeChannel := ⟨{ capacity }, { capacity }⟩

def afterWrite (put : Pipe → PipeChannel) (c : PipeChannel) :
    Option (Except Fault Nat × Pipe) → PipeChannel × Answer
  | some (.ok n, p) => (put p, .count n)
  | some (.error f, p) => (put p, .fault f)
  | none => (c, .blocked)

def afterRead (put : Pipe → PipeChannel) (c : PipeChannel) :
    Option (Bytes × Pipe) → PipeChannel × Answer
  | some (data, p) => (put p, .data data)
  | none => (c, .blocked)

def step (c : PipeChannel) : Step → PipeChannel × Answer
  | .read => afterRead ({ c with fromAgent := · }) c (c.fromAgent.read? Platform.readChunk)
  | .write data => afterWrite ({ c with toAgent := · }) c (c.toAgent.write? data)
  | .close => ({ c with toAgent.closed := true }, .done)
  | .agentWrite data => afterWrite ({ c with fromAgent := · }) c (c.fromAgent.write? data)
  | .agentRead max => afterRead ({ c with toAgent := · }) c (c.toAgent.read? max)
  | .agentDrop => ({ c with toAgent.closed := true, fromAgent.closed := true }, .nothing)

end PipeChannel
end Wiretap.Scenario
