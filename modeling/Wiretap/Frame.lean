import Wiretap.Message

/-!
# Frames

On a channel a message is a frame: a length of four bytes that counts the whole frame, the kind, the
subchannel in four bytes, and the payload. All numbers are little-endian.

A reader works on the bytes that have arrived so far. A length that no frame can have is a corrupt
span: a length shorter than the header takes that many bytes with it (never fewer than the four of
the length itself), and one above the limit takes only the four, so that reading can resume.

Results:

* `decode_incomplete`: a reader that waits for more bytes leaves the buffer as it is.
* `decode_shorter`: every other answer consumes at least four bytes.
-/

namespace Wiretap.Frame

/-- Bytes of the length field (`LENGTH_LEN`). -/
def lengthWidth : Nat := 4

/-- Bytes of a frame without payload (`HEADER_LEN`). -/
def headerLength : Nat := 9

/-- No frame is longer (`MAX_FRAME_LEN`). -/
def maxLength : Nat := 262144

/-- Model of `FrameError`: why a frame could not be read or written. -/
inductive Error where
  | incomplete
  | invalidLength (declared : Nat)
  | tooLarge (length : Nat)
  deriving DecidableEq, Repr

def Error.message : Error → String
  | incomplete => "Incomplete message in byte stream"
  | invalidLength declared => s!"Invalid length {declared} encountered in byte stream"
  | tooLarge length => s!"Message of {length} bytes exceeds the frame limit"

/-- Model of `Message::wire_len`: the length of the frame of a message. -/
def wireLength (m : Message) : Nat := headerLength + m.data.length

/-- The bytes of a frame, for a message of any size. -/
def bytes (m : Message) : Bytes :=
  Bytes.leBytes lengthWidth (wireLength m) ++ m.kind.toByte
    :: Bytes.leBytes 4 m.subchannel.toNat ++ m.data

/-- Model of `wire::encode`: the frame of a message, unless it exceeds the limit. -/
def encode (m : Message) : Except Error Bytes :=
  if wireLength m ≤ maxLength then .ok (bytes m) else .error (.tooLarge (wireLength m))

/-- The message in the bytes of one whole frame. -/
def payload (frame : Bytes) : Message where
  kind := .ofByte (Bytes.u8At 4 frame)
  subchannel := Bytes.u32At 5 frame
  data := frame.drop headerLength

/-- Model of `wire::decode`: reads one frame off the front of the buffer. The second part is the
buffer that is left. -/
def decode (buf : Bytes) : Except Error Message × Bytes :=
  match Bytes.splitExact? lengthWidth buf with
  | none => (.error .incomplete, buf)
  | some (field, rest) =>
    let declared := Bytes.leNat field
    let length := max declared lengthWidth
    if maxLength < length then (.error (.invalidLength declared), rest)
    else
      match Bytes.splitExact? length buf with
      | none => (.error .incomplete, buf)
      | some (frame, rest) =>
        if length < headerLength then (.error (.invalidLength declared), rest)
        else (.ok (payload frame), rest)

theorem decode_incomplete {buf : Bytes} (h : (decode buf).1 = .error .incomplete) :
    (decode buf).2 = buf := by
  unfold decode at h ⊢
  split at h
  next => rfl
  next field rest hfield =>
    simp only at h ⊢
    split at h
    next => simp at h
    next hlong =>
      simp only [hlong, if_false]
      split at h
      next => rfl
      next => split at h <;> simp at h

theorem decode_shorter {buf : Bytes} (h : (decode buf).1 ≠ .error .incomplete) :
    (decode buf).2.length + lengthWidth ≤ buf.length := by
  unfold decode at h ⊢
  split at h
  next => simp at h
  next field rest hfield =>
    obtain ⟨hbuf, hlen⟩ := Bytes.eq_append_of_splitExact? hfield
    simp only at h ⊢
    split at h
    next hlong =>
      simp only [hlong, if_true]
      rw [hbuf, List.length_append, hlen]
      omega
    next hlong =>
      simp only [hlong, if_false]
      split at h
      next => simp at h
      next frame rest' hframe =>
        obtain ⟨hbuf', hlen'⟩ := Bytes.eq_append_of_splitExact? hframe
        have hle : lengthWidth ≤ frame.length := by omega
        have hb : buf.length = frame.length + rest'.length := by rw [hbuf', List.length_append]
        split <;> simp only <;> omega

/-- One answer of the reader other than "incomplete". -/
inductive Item where
  | message (m : Message)
  | corrupt (declared : Nat)
  deriving DecidableEq, Repr

/-- The frames that `Receiver::drain` finds: reads frames until the buffer holds no complete one,
and tells what was read and what is left. -/
def drain (buf : Bytes) : List Item × Bytes :=
  match _h : decode buf with
  | (.ok m, rest) =>
    let (items, left) := drain rest
    (.message m :: items, left)
  | (.error (.invalidLength declared), rest) =>
    let (items, left) := drain rest
    (.corrupt declared :: items, left)
  | (.error _, rest) => ([], rest)
termination_by buf.length
decreasing_by
  all_goals
    have := @decode_shorter buf (by simp [_h])
    simp only [_h, lengthWidth] at this
    omega

/-- The messages at the front of the bytes, up to the first place that does not hold one, after the
messages `before`, which are in reverse order. -/
def leadingMessagesAfter (before : List Message) (buf : Bytes) : List Message :=
  match _h : decode buf with
  | (.ok m, rest) => leadingMessagesAfter (m :: before) rest
  | (.error _, _) => before.reverse
termination_by buf.length
decreasing_by
  have := @decode_shorter buf (by simp [_h])
  simp only [_h, lengthWidth] at this
  omega

/-- The messages at the front of the bytes, up to the first place that does not hold one. -/
def leadingMessages (buf : Bytes) : List Message := leadingMessagesAfter [] buf

end Wiretap.Frame
