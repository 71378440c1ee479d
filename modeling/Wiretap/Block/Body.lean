import Wiretap.Text.Utf8

/-!
# Block bodies

Eight structured variants and raw bytes. All numbers are little-endian. A structured body has a
least size; bytes past it are ignored, but for the trailing text of a chat line. Floating point
fields are kept as their bit pattern.

Results:

* `sized_eq_ok_iff`, `sized_eq_error_iff`: a layout is read exactly from data of at least its size.
-/

namespace Wiretap.Block

/-- The bits of a number in single precision. -/
structure Single where
  bits : UInt32
  deriving DecidableEq, Repr

def Single.at (off : Nat) (data : Bytes) : Single := ⟨Bytes.u32At off data⟩

/-- Why a body could not be decoded. -/
inductive DecodeError where
  | tooShort (expected actual : Nat)
  deriving DecidableEq, Repr

def DecodeError.message : DecodeError → String
  | tooShort expected actual =>
    s!"Body too short: expected at least {expected} bytes, got {actual}"

/-- Model of `ensure` in front of the reading of a layout, which takes at least `size` bytes. -/
def sized {α : Type} (size : Nat) (read : Bytes → α) (data : Bytes) : Except DecodeError α :=
  if data.length < size then .error (.tooShort size data.length) else .ok (read data)

theorem sized_eq_error_iff {α : Type} {size : Nat} {read : Bytes → α} {data : Bytes}
    {e : DecodeError} :
    sized size read data = .error e ↔ data.length < size ∧ e = .tooShort size data.length := by
  unfold sized
  split
  next h => simp [h, eq_comm]
  next h => simp [h]

theorem sized_eq_ok_iff {α : Type} {size : Nat} {read : Bytes → α} {data : Bytes} {a : α} :
    sized size read data = .ok a ↔ size ≤ data.length ∧ a = read data := by
  unfold sized
  split
  · simp; omega
  · simp [eq_comm]; omega

/-- Model of `nul_terminated`: the text of a field, which is its bytes up to the first zero, read
lossily. -/
def fieldText (field : Bytes) : String := Text.Utf8.lossy (field.takeWhile (· != 0))

/-! ## Variants

Each structure is the model of the type of its name, and its `decode` of the function of that
name. -/

/-- A position packed into three words. -/
structure PackedPosition where
  x : UInt16
  y : UInt16
  z : UInt16
  deriving DecidableEq, Repr

def PackedPosition.at (off : Nat) (data : Bytes) : PackedPosition :=
  ⟨Bytes.u16At off data, Bytes.u16At (off + 2) data, Bytes.u16At (off + 4) data⟩

/-- The client enters a zone. -/
structure InitZone where
  serverId : UInt16
  territoryTypeId : UInt16
  weatherId : UInt8
  bitmask : UInt8
  x : Single
  y : Single
  z : Single
  deriving DecidableEq, Repr

namespace InitZone

def size : Nat := 104

def read (data : Bytes) : InitZone where
  serverId := Bytes.u16At 0 data
  territoryTypeId := Bytes.u16At 2 data
  weatherId := Bytes.u8At 16 data
  bitmask := Bytes.u8At 17 data
  x := .at 68 data
  y := .at 72 data
  z := .at 76 data

def decode : Bytes → Except DecodeError InitZone := sized size read

end InitZone

/-- An actor starts casting an action. -/
structure Casting where
  actionIdName : UInt16
  actionId : UInt32
  castTime : Single
  targetId : UInt32
  direction : UInt16
  unkId1 : UInt32
  position : PackedPosition
  deriving DecidableEq, Repr

namespace Casting

def size : Nat := 32

def read (data : Bytes) : Casting where
  actionIdName := Bytes.u16At 0 data
  actionId := Bytes.u32At 4 data
  castTime := .at 8 data
  targetId := Bytes.u32At 12 data
  direction := Bytes.u16At 16 data
  unkId1 := Bytes.u32At 20 data
  position := .at 24 data

def decode : Bytes → Except DecodeError Casting := sized size read

/-- The obfuscation byte that a cast gives away: the low byte of the distance between the action and
its name. -/
def key (c : Casting) : UInt8 := (c.actionId - c.actionIdName.toUInt32).toUInt8

end Casting

/-- An actor control, with a subtype and four parameters. -/
structure Control where
  kind : UInt16
  p1 : UInt32
  p2 : UInt32
  p3 : UInt32
  p4 : UInt32
  deriving DecidableEq, Repr

namespace Control

def size : Nat := 24

def read (data : Bytes) : Control where
  kind := Bytes.u16At 0 data
  p1 := Bytes.u32At 4 data
  p2 := Bytes.u32At 8 data
  p3 := Bytes.u32At 12 data
  p4 := Bytes.u32At 16 data

def decode : Bytes → Except DecodeError Control := sized size read

end Control

/-- Another actor moved. -/
structure Movement where
  headRotation : UInt8
  direction : UInt8
  animationType : UInt8
  animationState : UInt8
  animationSpeed : UInt8
  unknownRotation : UInt8
  position : PackedPosition
  u3 : UInt32
  deriving DecidableEq, Repr

namespace Movement

def size : Nat := 16

def read (data : Bytes) : Movement where
  headRotation := Bytes.u8At 0 data
  direction := Bytes.u8At 1 data
  animationType := Bytes.u8At 2 data
  animationState := Bytes.u8At 3 data
  animationSpeed := Bytes.u8At 4 data
  unknownRotation := Bytes.u8At 5 data
  position := .at 6 data
  u3 := Bytes.u32At 12 data

def decode : Bytes → Except DecodeError Movement := sized size read

end Movement

/-- The local player moved in the open world. -/
structure EgressMovement where
  direction : Single
  u1 : UInt32
  x : Single
  y : Single
  z : Single
  u2 : UInt32
  deriving DecidableEq, Repr

namespace EgressMovement

def size : Nat := 24

def read (data : Bytes) : EgressMovement where
  direction := .at 0 data
  u1 := Bytes.u32At 4 data
  x := .at 8 data
  y := .at 12 data
  z := .at 16 data
  u2 := Bytes.u32At 20 data

def decode : Bytes → Except DecodeError EgressMovement := sized size read

end EgressMovement

/-- The local player moved inside an instance. -/
structure EgressInstanceMovement where
  direction : Single
  directionBeforeSlip : Single
  u1 : UInt32
  u2 : UInt32
  x : Single
  y : Single
  z : Single
  u3 : UInt32
  deriving DecidableEq, Repr

namespace EgressInstanceMovement

def size : Nat := 32

def read (data : Bytes) : EgressInstanceMovement where
  direction := .at 0 data
  directionBeforeSlip := .at 4 data
  u1 := Bytes.u32At 8 data
  u2 := Bytes.u32At 12 data
  x := .at 16 data
  y := .at 20 data
  z := .at 24 data
  u3 := Bytes.u32At 28 data

def decode : Bytes → Except DecodeError EgressInstanceMovement := sized size read

end EgressInstanceMovement

/-- A chat line from another character. -/
structure ChatMessage where
  contentId : UInt64
  entityId : UInt32
  worldId : UInt16
  chatType : UInt8
  senderName : String
  message : String
  deriving DecidableEq, Repr

namespace ChatMessage

def size : Nat := 48

def read (data : Bytes) : ChatMessage where
  contentId := Bytes.u64At 0 data
  entityId := Bytes.u32At 8 data
  worldId := Bytes.u16At 12 data
  chatType := Bytes.u8At 14 data
  senderName := fieldText (Bytes.sub 16 32 data)
  message := fieldText (data.drop 48)

def decode : Bytes → Except DecodeError ChatMessage := sized size read

end ChatMessage

/-- A chat line of the local player. -/
structure EgressChat where
  chatType : UInt16
  message : String
  deriving DecidableEq, Repr

namespace EgressChat

def size : Nat := 4

def read (data : Bytes) : EgressChat where
  chatType := Bytes.u16At 0 data
  message := fieldText (data.drop 4)

def decode : Bytes → Except DecodeError EgressChat := sized size read

end EgressChat

/-- The body of a block. Raw bytes stand for a body without a decoder, or whose decoder failed. -/
inductive Body where
  | initZone (b : InitZone)
  | casting (b : Casting)
  | control (b : Control)
  | movement (b : Movement)
  | egressMovement (b : EgressMovement)
  | egressInstanceMovement (b : EgressInstanceMovement)
  | chatMessage (b : ChatMessage)
  | egressChat (b : EgressChat)
  | raw (data : Bytes)
  deriving DecidableEq, Repr

namespace Body

/-- The two bodies that a client sends while its player moves. -/
def isEgressMove : Body → Bool
  | egressMovement _ | egressInstanceMovement _ => true
  | _ => false

end Body
end Wiretap.Block
