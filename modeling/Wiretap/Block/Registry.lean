import Wiretap.Block.Body

/-!
# The registry of body decoders

A registry says which decoder reads the body of a block, by subchannel, opcode and direction. Only
the zone and the chat subchannel are ever looked up.

Results:

* `lookup_without`: a table without the entries of one key.
* `find?_register`: a registration answers for its own key and changes no other.
-/

namespace Wiretap

/-- A table without the entries of one key. -/
theorem lookup_without {α β : Type} [DecidableEq α] (l : List (α × β)) (k k' : α) :
    (l.filter (·.1 != k)).lookup k' = if k = k' then none else l.lookup k' := by
  induction l with
  | nil => split <;> rfl
  | cons p l ih =>
    obtain ⟨key, a⟩ := p
    by_cases hkey : key = k
    · rw [List.filter_cons_of_neg (by simpa using hkey), ih, List.lookup_cons]
      by_cases hk : k = k'
      · rw [if_pos hk, if_pos hk]
      · have hne : (k' == key) = false := by simpa [hkey] using Ne.symm hk
        rw [hne]
    · rw [List.filter_cons_of_pos (by simpa using hkey), List.lookup_cons, List.lookup_cons]
      cases hk' : k' == key with
      | true =>
        have hk : ¬ k = k' := by
          rw [beq_iff_eq.mp hk']
          exact Ne.symm hkey
        rw [if_neg hk]
      | false => exact ih

namespace Block

/-- Which way a block travelled: ingress from the server to the client, egress the other way. -/
inductive Direction where
  | ingress
  | egress
  deriving DecidableEq, Repr

/-- A decoder of bodies. -/
structure BodyDecoder where
  decode : Bytes → Except DecodeError Body

namespace BodyDecoder

def initZone : BodyDecoder := ⟨fun data => (InitZone.decode data).map .initZone⟩

def casting : BodyDecoder := ⟨fun data => (Casting.decode data).map .casting⟩

def control : BodyDecoder := ⟨fun data => (Control.decode data).map .control⟩

def movement : BodyDecoder := ⟨fun data => (Movement.decode data).map .movement⟩

def egressMovement : BodyDecoder := ⟨fun data => (EgressMovement.decode data).map .egressMovement⟩

def egressInstanceMovement : BodyDecoder :=
  ⟨fun data => (EgressInstanceMovement.decode data).map .egressInstanceMovement⟩

def chatMessage : BodyDecoder := ⟨fun data => (ChatMessage.decode data).map .chatMessage⟩

def egressChat : BodyDecoder := ⟨fun data => (EgressChat.decode data).map .egressChat⟩

/-- Copies the bytes. -/
def raw : BodyDecoder := ⟨fun data => .ok (.raw data)⟩

/-- Never succeeds. -/
def fail : BodyDecoder := ⟨fun _ => .error (.tooShort 1 0)⟩

end BodyDecoder

/-- The opcodes of the structured variants. They are renumbered often, so they are configuration. -/
structure Opcodes where
  initZone : UInt16 := 0x0311
  casting : UInt16 := 0x01b6
  control : UInt16 := 0x0245
  movement : UInt16 := 0x00d5
  egressMovement : UInt16 := 0x02d0
  egressInstanceMovement : UInt16 := 0x01a4
  chat : UInt16 := 0x0065
  egressChat : UInt16 := 0x0066
  deriving DecidableEq, Repr

/-- What a decoder is registered for. -/
structure RegistryKey where
  subchannel : UInt32
  opcode : UInt16
  direction : Direction
  deriving DecidableEq, Repr

/-- Model of `BlockRegistry`: decoders by key, each key at most once. -/
structure Registry where
  entries : List (RegistryKey × BodyDecoder) := []

namespace Registry

/-- The subchannel of zone and world traffic. -/
def zoneSubchannel : UInt32 := 1

/-- The subchannel of chat traffic. -/
def chatSubchannel : UInt32 := 2

/-- The decoder registered for exactly this key. -/
def find? (r : Registry) (key : RegistryKey) : Option BodyDecoder := r.entries.lookup key

/-- Model of `BlockRegistry::register`: adds the decoder for a key, in place of the one before. -/
def register (r : Registry) (key : RegistryKey) (d : BodyDecoder) : Registry :=
  ⟨(key, d) :: r.entries.filter (fun e => e.1 != key)⟩

/-- Model of `BlockRegistry::lookup`: the decoder for the body of a block, which only the zone and
chat subchannels have. -/
def lookup (r : Registry) (key : RegistryKey) : Option BodyDecoder :=
  if key.subchannel = zoneSubchannel ∨ key.subchannel = chatSubchannel then r.find? key else none

/-- Model of `BlockRegistry::len`. -/
def size (r : Registry) : Nat := r.entries.length

/-- The registrations of `BlockRegistry::from_opcodes`, in order: a later one wins where opcodes
collide. -/
def defaults (o : Opcodes) : List (RegistryKey × BodyDecoder) :=
  [(⟨zoneSubchannel, o.initZone, .ingress⟩, .initZone),
    (⟨zoneSubchannel, o.casting, .ingress⟩, .casting),
    (⟨zoneSubchannel, o.control, .ingress⟩, .control),
    (⟨zoneSubchannel, o.movement, .ingress⟩, .movement),
    (⟨zoneSubchannel, o.egressMovement, .egress⟩, .egressMovement),
    (⟨zoneSubchannel, o.egressInstanceMovement, .egress⟩, .egressInstanceMovement),
    (⟨chatSubchannel, o.chat, .ingress⟩, .chatMessage),
    (⟨chatSubchannel, o.egressChat, .egress⟩, .egressChat)]

/-- Registers each decoder in turn. -/
def registerAll (r : Registry) (l : List (RegistryKey × BodyDecoder)) : Registry :=
  l.foldl (fun r e => r.register e.1 e.2) r

/-- Model of `BlockRegistry::from_opcodes`: the registry of a table of opcodes. -/
def ofOpcodes (o : Opcodes) : Registry := registerAll {} (defaults o)

theorem find?_register (r : Registry) (key key' : RegistryKey) (d : BodyDecoder) :
    (r.register key d).find? key' = if key' = key then some d else r.find? key' := by
  unfold register find?
  by_cases h : key' = key
  · subst h; simp
  · have hb : (key' == key) = false := by simp [h]
    simp only [List.lookup_cons, hb, h, if_false]
    rw [lookup_without, if_neg (Ne.symm h)]

end Registry

end Block
end Wiretap
