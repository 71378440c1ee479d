import Wiretap.Proofs.Session.Event

/-!
# What the channel sees

A session calls its channel in some of its moves: it reads, it writes frames, and when it closes the
connection it writes the farewell and hangs up. A call is noted when it is over. One that a service
gives up, because it is told to stop, is noted without an answer.

Results:

* `calls_concat`: the calls of a run grow by those of its last event.
* `Call.isEnd_read`: which reads find the end of the stream.
* `parting?_of_isQuiet`: only the two moves that close the connection part from the agent.
-/

namespace Wiretap.Session

/-- A call of a session on its channel, with the answer. -/
inductive Call where
  | read (r : Option (Except Fault Bytes))
  | write (m : Message) (r : Option (Except Fault Nat))
  /-- The frame that tells the agent to unload is written. -/
  | farewell (r : Except Fault Nat)
  /-- The channel is closed. -/
  | hangUp (r : Except Fault Unit)

/-- The calls that end with an event. -/
def State.calls (s : State) : Event → List Call
  | .move _ (.receiver (.read r)) => [.read r]
  | .move _ (.receiver .stops) =>
    match s.receiver with
    | .reading => [.read none]
    | _ => []
  | .move _ (.sender (.wrote r)) =>
    match s.sender with
    | .writing m => [.write m r]
    | _ => []
  | .move _ (.sender .stops) =>
    match s.sender with
    | .writing m => [.write m none]
    | _ => []
  | .move _ (.stage (.wroteFarewell r)) | .move _ (.receiver (.wroteFarewell r)) => [.farewell r]
  | .move _ (.stage (.hungUp r)) | .move _ (.receiver (.hungUp r)) => [.hangUp r]
  | _ => []

/-- The calls of a session in the course of a run. -/
def calls (s : State) (t : List Event) : List Call := history State.act? State.calls s t

theorem calls_concat {s s' : State} {t : List Event} (h : run? State.act? s t = some s')
    (e : Event) : calls s (t ++ [e]) = calls s t ++ s'.calls e := history_concat t e h

/-- The frame that the call offers to the channel. -/
def Call.frame? : Call → Option Bytes
  | .write m _ => some (Frame.bytes m)
  | .farewell _ => some (Frame.bytes .exit)
  | _ => none

/-- The read has found the end of the stream. -/
def Call.isEnd : Call → Bool
  | .read (some r) =>
    match Connection.received r with
    | .ok _ => false
    | .error f => f.isEndOfStream
  | _ => false

theorem Call.isEnd_read {r : Except Fault Bytes} {f : Fault}
    (hreceived : Connection.received r = .error f) :
    (Call.read (some r)).isEnd = f.isEndOfStream := by
  simp only [isEnd, hreceived]

/-! ## Partings -/

/-- What is done to close a connection. -/
inductive Parting where
  | farewell
  | hangUp
  deriving DecidableEq, Repr

def Call.parting? : Call → Option Parting
  | .farewell _ => some .farewell
  | .hangUp _ => some .hangUp
  | _ => none

def partings (cs : List Call) : List Parting := cs.filterMap Call.parting?

@[simp] theorem partings_append (cs cs' : List Call) :
    partings (cs ++ cs') = partings cs ++ partings cs' := List.filterMap_append

theorem partings_singleton {c : Call} {p : Parting} (h : c.parting? = some p) :
    partings [c] = [p] := by
  rw [partings, List.filterMap_cons_some h]
  rfl

theorem partings_eq_nil {cs : List Call} (h : ∀ c ∈ cs, c.parting? = none) : partings cs = [] :=
  List.filterMap_eq_nil_iff.mpr h

/-- The event is not a move that closes the connection. -/
def Event.isQuiet : Event → Bool
  | .move _ (.stage (.wroteFarewell _)) | .move _ (.receiver (.wroteFarewell _)) => false
  | .move _ (.stage (.hungUp _)) | .move _ (.receiver (.hungUp _)) => false
  | _ => true

theorem parting?_of_isQuiet {s : State} {e : Event} (h : e.isQuiet = true) {c : Call}
    (hc : c ∈ s.calls e) : c.parting? = none := by
  unfold State.calls at hc
  split at hc
  next => rw [List.mem_singleton.mp hc]; rfl
  next =>
    split at hc
    next => rw [List.mem_singleton.mp hc]; rfl
    next => cases hc
  next =>
    split at hc
    next => rw [List.mem_singleton.mp hc]; rfl
    next => cases hc
  next =>
    split at hc
    next => rw [List.mem_singleton.mp hc]; rfl
    next => cases hc
  all_goals first | cases h | cases hc

end Wiretap.Session
