import Wiretap.Block.Registry
import Wiretap.Message

/-!
# Decoding blocks

A message that carries traffic holds one block: a header of 32 bytes and a body. The decoder of a
session keeps three things from block to block: whether the zone obfuscates control blocks, the
obfuscation byte once a cast has given it away, and the time of the last movement that the client
sent, by which repeated movements are dropped.

Results:

* `State.step_of_parse_none`: a message without a block changes nothing and forwards nothing.
-/

namespace Wiretap

/-- Model of `ProtocolBlock`: one decoded unit of traffic. The timestamp is in milliseconds since
the epoch. -/
structure Block where
  subjectId : UInt32
  currentId : UInt32
  timestamp : UInt64
  serverId : UInt16
  opcode : UInt16
  body : Block.Body
  deriving DecidableEq, Repr

namespace Block

/-- Bytes of the header (`BLOCK_HEADER_LEN`). -/
def headerLength : Nat := 32

/-- Shorter blocks are dropped (`MIN_BLOCK_LEN`). -/
def minLength : Nat := 48

/-- The zones that obfuscate control blocks (`OBFUSCATED_TERRITORIES`). -/
def obfuscatedTerritories : List UInt16 := [946, 947, 948, 949]

/-- The control subtype whose first parameter carries the obfuscation byte. -/
def lockOn : UInt16 := 0x22

/-- The direction of the traffic that a message of this kind carries, if it carries any. -/
def direction? : MessageKind → Option Direction
  | .recv => some .ingress
  | .send => some .egress
  | _ => none

/-- The body of a block: what the registered decoder makes of it, or its bytes when there is none
or it fails. -/
def readBody (r : Registry) (key : RegistryKey) (data : Bytes) : Body :=
  match r.lookup key with
  | none => .raw data
  | some d =>
    match d.decode data with
    | .ok body => body
    | .error _ => .raw data

/-- Model of `ProtocolDecoder::decode_block`: the block that a message carries, as it was sent. -/
def parse (r : Registry) (m : Message) : Option (Direction × Block) :=
  match direction? m.kind with
  | none => none
  | some direction =>
    if m.data.length < minLength then none
    else
      let opcode := Bytes.u16At 18 m.data
      some (direction,
        { subjectId := Bytes.u32At 0 m.data
          currentId := Bytes.u32At 4 m.data
          timestamp := Bytes.u64At 8 m.data
          serverId := Bytes.u16At 22 m.data
          opcode := opcode
          body := readBody r ⟨m.subchannel, opcode, direction⟩ (m.data.drop headerLength) })

/-- Model of `ObfuscationState`: what a decoder remembers. -/
structure State where
  obfuscated : Bool := false
  key : Option UInt8 := none
  lastMove : UInt64 := 0
  deriving DecidableEq, Repr

namespace State

/-- Model of `ProtocolDecoder::correct_obfuscation`: undoes the obfuscation of a body, and learns
from it. -/
def unveil (s : State) : Body → State × Body
  | .initZone z =>
    ({ s with obfuscated := z.territoryTypeId ∈ obfuscatedTerritories, key := none }, .initZone z)
  | .casting c =>
    if s.obfuscated ∧ s.key = none then ({ s with key := some c.key }, .casting c)
    else (s, .casting c)
  | .control c =>
    match s.key with
    | some key =>
      if c.kind = lockOn ∧ s.obfuscated ∧ key ≠ 0 then
        (s, .control { c with p1 := c.p1 - key.toUInt32 })
      else (s, .control c)
    | none => (s, .control c)
  | body => (s, body)

/-- Model of `ProtocolDecoder::should_forward`: whether a block goes on to the subscribers. A
movement of the client that is stamped like the one before it does not. -/
def lets (s : State) (direction : Direction) (b : Block) : State × Bool :=
  if direction = .egress ∧ b.body.isEgressMove then
    if b.timestamp = s.lastMove then (s, false) else ({ s with lastMove := b.timestamp }, true)
  else (s, true)

/-- Model of `ProtocolDecoder::process`: the state after a message, and the block to forward. -/
def step (r : Registry) (s : State) (m : Message) : State × Option (Direction × Block) :=
  match parse r m with
  | none => (s, none)
  | some (direction, sent) =>
    let (s, body) := s.unveil sent.body
    let b := { sent with body }
    let (s, forwarded) := s.lets direction b
    (s, if forwarded then some (direction, b) else none)

theorem step_of_parse_none {r : Registry} {s : State} {m : Message} (h : parse r m = none) :
    s.step r m = (s, none) := by
  simp [step, h]

end State

/-- Decodes a run of messages: the state after it, and the blocks to forward in order. -/
def run (r : Registry) (s : State) : List Message → State × List (Direction × Block)
  | [] => (s, [])
  | m :: ms =>
    let (s, forwarded) := s.step r m
    let (s, blocks) := run r s ms
    (s, forwarded.toList ++ blocks)

end Block
end Wiretap
