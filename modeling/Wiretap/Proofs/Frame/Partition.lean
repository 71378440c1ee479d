import Mathlib.Data.List.Forall2
import Wiretap.Proofs.Frame.Stream

/-!
# Taking any bytes apart

Whatever bytes arrive, the reader takes them apart into consecutive spans, one for each item that it
reads. What is left is the beginning of a span: too short for a length, or shorter than its length
says.

Results:

* `bytes_payload`: the frame of a message that was read is the one that it was read from.
* `readFrom_of_decode`: an answer says which bytes were consumed for it.
* `length_drain_lt`, `length_items_drain`: a drain leaves less than the longest frame, and gives at
  most one item for every four bytes.
* `feedAll_partition`: the spans and the rest are the whole input, however it was cut.
-/

namespace Wiretap.Frame

/-- The bytes that an item is read from: the frame of its message, or a length that no frame has,
together with the bytes that go with it. -/
def Item.ReadFrom : Item → Bytes → Prop
  | message m, span => encode m = .ok span
  | corrupt declared, span =>
    Bytes.leBytes lengthWidth declared <+: span ∧ declared < Nat.pow 256 lengthWidth ∧
      (declared < headerLength ∧ span.length = max declared lengthWidth ∨
        maxLength < declared ∧ span.length = lengthWidth)

/-- The beginning of a span, of which the reader has to wait for the rest. -/
def Unfinished (buf : Bytes) : Prop :=
  buf.length < lengthWidth ∨
    ∃ declared, Bytes.leBytes lengthWidth declared <+: buf ∧ declared ≤ maxLength ∧
      buf.length < max declared lengthWidth

/-! ## Frames -/

theorem fields_of_length {frame : Bytes} (h : headerLength ≤ frame.length) :
    ∃ field kind sub data, frame = field ++ kind :: (sub ++ data) ∧
      field.length = lengthWidth ∧ sub.length = 4 := by
  unfold headerLength at h
  obtain ⟨kind, tail, htail⟩ : ∃ kind tail, frame.drop lengthWidth = kind :: tail :=
    List.exists_cons_of_length_pos (by simp [lengthWidth]; omega)
  have hlen : tail.length + 1 = frame.length - lengthWidth := by
    rw [← List.length_cons, ← htail, List.length_drop]
  unfold lengthWidth at hlen
  refine ⟨frame.take lengthWidth, kind, tail.take 4, tail.drop 4, ?_, ?_, ?_⟩
  · rw [List.take_append_drop, ← htail, List.take_append_drop]
  · simp [lengthWidth]
    omega
  · simp
    omega

/-- A frame that declares its own length is the frame of the message in it. -/
theorem bytes_payload {frame : Bytes} (hlen : headerLength ≤ frame.length)
    (hdeclared : Bytes.leNat (frame.take lengthWidth) = frame.length) :
    bytes (payload frame) = frame := by
  obtain ⟨field, kind, sub, data, rfl, hfield, hsub⟩ := fields_of_length hlen
  have hkind : Bytes.u8At 4 (field ++ kind :: (sub ++ data)) = kind := by
    rw [Bytes.u8At, Bytes.natAt, show (4 : Nat) = lengthWidth from rfl, List.drop_left' hfield]
    simp [Bytes.leNat]
  have hfive : (field ++ kind :: (sub ++ data)).drop 5 = sub ++ data := by
    rw [List.append_cons, List.drop_left' (by simp [hfield, lengthWidth])]
  have hword : (Bytes.u32At 5 (field ++ kind :: (sub ++ data))).toNat = Bytes.leNat sub := by
    have hlt := Bytes.leNat_lt sub
    rw [hsub] at hlt
    rw [Bytes.u32At, Bytes.natAt, hfive, List.take_left' hsub, UInt32.toNat_ofNat']
    exact Nat.mod_eq_of_lt hlt
  have hdata : (field ++ kind :: (sub ++ data)).drop headerLength = data := by
    rw [show headerLength = 5 + 4 from rfl, ← List.drop_drop, hfive, List.drop_left' hsub]
  have hwire : wireLength (payload (field ++ kind :: (sub ++ data))) = Bytes.leNat field := by
    rw [List.take_left' hfield] at hdeclared
    rw [wireLength, payload, hdata, hdeclared]
    simp only [List.length_append, List.length_cons, hfield, hsub, headerLength, lengthWidth]
    omega
  rw [bytes, hwire, payload, hdata, hkind, hword, MessageKind.toByte_ofByte]
  rw [← hfield, Bytes.leBytes_leNat, ← hsub, Bytes.leBytes_leNat]
  simp

/-! ## Answers -/

theorem corrupt_of_answer {item : Item} {declared : Nat}
    (h : Except.error (.invalidLength declared) = item.answer) : item = .corrupt declared := by
  cases item <;> simp_all [Item.answer]

theorem message_of_answer {item : Item} {m : Message} (h : .ok m = item.answer) :
    item = .message m := by
  cases item <;> simp_all [Item.answer]

theorem leBytes_field {field : Bytes} (hwidth : field.length = lengthWidth) :
    Bytes.leBytes lengthWidth (Bytes.leNat field) = field := by
  rw [← hwidth, Bytes.leBytes_leNat]

theorem field_lt {field : Bytes} (hwidth : field.length = lengthWidth) :
    Bytes.leNat field < Nat.pow 256 lengthWidth := by
  have hlt := Bytes.leNat_lt field
  rwa [hwidth] at hlt

/-- A length above the limit goes by itself. -/
theorem readFrom_long {field : Bytes} (hwidth : field.length = lengthWidth)
    (hlong : maxLength < max (Bytes.leNat field) lengthWidth) :
    (Item.corrupt (Bytes.leNat field)).ReadFrom field := by
  have hwide : lengthWidth ≤ maxLength := by decide
  have hfield : Bytes.leBytes lengthWidth (Bytes.leNat field) <+: field := by
    simp only [leBytes_field hwidth, List.prefix_refl]
  exact ⟨hfield, field_lt hwidth, .inr ⟨by omega, hwidth⟩⟩

/-- A length that no header fits in goes with the bytes that it declares. -/
theorem readFrom_short {field frame : Bytes} (hwidth : field.length = lengthWidth)
    (hfield : field <+: frame) (hlength : frame.length = max (Bytes.leNat field) lengthWidth)
    (hshort : Bytes.leNat field < headerLength) :
    (Item.corrupt (Bytes.leNat field)).ReadFrom frame := by
  refine ⟨?_, field_lt hwidth, .inl ⟨hshort, hlength⟩⟩
  rwa [leBytes_field hwidth]

/-- A message that is read goes with its frame. -/
theorem readFrom_payload {field frame : Bytes} (hwidth : field.length = lengthWidth)
    (hfield : field <+: frame) (hlength : frame.length = Bytes.leNat field)
    (hheader : headerLength ≤ frame.length) (hfits : frame.length ≤ maxLength) :
    (Item.message (payload frame)).ReadFrom frame := by
  have htake : frame.take lengthWidth = field := by
    rw [← hwidth]
    exact (List.prefix_iff_eq_take.mp hfield).symm
  have hframe : bytes (payload frame) = frame :=
    bytes_payload hheader (htake ▸ hlength.symm)
  have hwire : wireLength (payload frame) ≤ maxLength := by rwa [← length_bytes, hframe]
  rw [Item.ReadFrom, encode_of_fits hwire, hframe]

/-- An answer says which bytes were consumed for it. -/
theorem readFrom_of_decode {buf rest : Bytes} {item : Item} (h : decode buf = (item.answer, rest)) :
    ∃ span, span ++ rest = buf ∧ item.ReadFrom span := by
  have hne : item.answer ≠ .error .incomplete := by cases item <;> simp [Item.answer]
  unfold decode at h
  split at h
  next => exact absurd (Prod.mk.inj h).1.symm hne
  next field left hfield =>
    obtain ⟨rfl, hwidth⟩ := Bytes.eq_append_of_splitExact? hfield
    simp only at h
    split at h
    next hlong =>
      obtain ⟨hitem, rfl⟩ := Prod.mk.inj h
      obtain rfl := corrupt_of_answer hitem
      exact ⟨field, rfl, readFrom_long hwidth hlong⟩
    next hlong =>
      split at h
      next => exact absurd (Prod.mk.inj h).1.symm hne
      next frame left' hframe =>
        obtain ⟨hbuf, hlength⟩ := Bytes.eq_append_of_splitExact? hframe
        have hprefix : field <+: frame :=
          List.prefix_of_prefix_length_le ⟨left, rfl⟩ ⟨left', hbuf.symm⟩ (by omega)
        split at h
        next hshort =>
          obtain ⟨hitem, rfl⟩ := Prod.mk.inj h
          obtain rfl := corrupt_of_answer hitem
          exact ⟨frame, hbuf.symm, readFrom_short hwidth hprefix hlength (by omega)⟩
        next hshort =>
          obtain ⟨hitem, rfl⟩ := Prod.mk.inj h
          obtain rfl := message_of_answer hitem
          have : lengthWidth < headerLength := by decide
          exact ⟨frame, hbuf.symm,
            readFrom_payload hwidth hprefix (by omega) (by omega) (by omega)⟩

/-- A reader that waits has the beginning of a span in front of it. -/
theorem unfinished_of_decode {buf : Bytes} (h : decode buf = (.error .incomplete, buf)) :
    Unfinished buf := by
  unfold decode at h
  split at h
  next hfield => exact .inl (Bytes.splitExact?_eq_none_iff.mp hfield)
  next field left hfield =>
    obtain ⟨rfl, hwidth⟩ := Bytes.eq_append_of_splitExact? hfield
    simp only at h
    split at h
    next => simp at h
    next hlong =>
      split at h
      next hframe =>
        refine .inr ⟨Bytes.leNat field, ?_, by omega, Bytes.splitExact?_eq_none_iff.mp hframe⟩
        rw [leBytes_field hwidth]
        exact List.prefix_append _ _
      next => split at h <;> simp at h

/-! ## Lengths -/

/-- An answer consumes at least the width of a length off the front of the buffer. -/
theorem consumes_of_decode {buf : Bytes} (h : (decode buf).1 ≠ .error .incomplete) :
    ∃ span, span ++ (decode buf).2 = buf ∧ lengthWidth ≤ span.length := by
  rcases decode_cases buf with hbuf | ⟨item, rest, hbuf⟩
  · exact absurd (congrArg Prod.fst hbuf) h
  · obtain ⟨span, hspan, -⟩ := readFrom_of_decode hbuf
    have hle : rest.length + lengthWidth ≤ buf.length := decode_answer_shorter hbuf
    rw [← hspan, List.length_append] at hle
    rw [hbuf]
    exact ⟨span, hspan, by omega⟩

/-- The beginning of a span is shorter than the longest frame. -/
theorem length_lt_of_unfinished {buf : Bytes} (h : Unfinished buf) : buf.length < maxLength := by
  have hwide : lengthWidth ≤ maxLength := by decide
  rcases h with hshort | ⟨declared, -, hle, hshort⟩ <;> omega

theorem length_drain_lt (buf : Bytes) : (drain buf).2.length < maxLength :=
  length_lt_of_unfinished (unfinished_of_decode (decode_drain buf))

/-- A reader that has as many bytes as the longest frame does not wait for more. -/
theorem decode_ne_incomplete {buf : Bytes} (h : maxLength ≤ buf.length) :
    (decode buf).1 ≠ .error .incomplete := by
  intro hwaits
  have hbuf : decode buf = (.error .incomplete, buf) := Prod.ext hwaits (decode_incomplete hwaits)
  exact absurd (length_lt_of_unfinished (unfinished_of_decode hbuf)) (Nat.not_lt.mpr h)

/-- Each item of a drain has been paid for with the width of a length. -/
theorem length_items_drain (buf : Bytes) :
    lengthWidth * (drain buf).1.length + (drain buf).2.length ≤ buf.length := by
  induction buf using bufferInduction with
  | incomplete buf h =>
    simp only [drain_of_incomplete h, List.length_nil, Nat.mul_zero, Nat.zero_add, Nat.le_refl]
  | answer buf item rest h ih =>
    have hle : rest.length + lengthWidth ≤ buf.length := decode_answer_shorter h
    simp only [drain_of_answer h, List.length_cons, Nat.mul_succ]
    omega

/-! ## All bytes -/

theorem drain_partition (buf : Bytes) :
    ∃ spans : List Bytes, spans.flatten ++ (drain buf).2 = buf ∧
      List.Forall₂ Item.ReadFrom (drain buf).1 spans := by
  induction buf using bufferInduction with
  | incomplete buf h =>
    rw [drain_of_incomplete h]
    exact ⟨[], rfl, .nil⟩
  | answer buf item rest h ih =>
    obtain ⟨spans, hspans, hitems⟩ := ih
    obtain ⟨span, hspan, hitem⟩ := readFrom_of_decode h
    rw [drain_of_answer h]
    refine ⟨span :: spans, ?_, .cons hitem hitems⟩
    rw [List.flatten_cons, List.append_assoc, hspans, hspan]

/-- **Any bytes are taken apart, and the cuts do not matter.** A reader that drains its buffer after
every chunk reads the same items as one that has all bytes at once, and is left with the same bytes.
One span after the other, the items account for all that was consumed: a message is encoded to the
very bytes that it was read from. What is left is the beginning of a span. -/
theorem feedAll_partition (chunks : List Bytes) :
    feedAll chunks = drain chunks.flatten ∧
      (∃ spans : List Bytes, spans.flatten ++ (feedAll chunks).2 = chunks.flatten ∧
        List.Forall₂ Item.ReadFrom (feedAll chunks).1 spans) ∧
      Unfinished (feedAll chunks).2 := by
  refine ⟨feedAll_eq_drain chunks, ?_, ?_⟩
  · rw [feedAll_eq_drain]
    exact drain_partition chunks.flatten
  · rw [feedAll_eq_drain]
    exact unfinished_of_decode (decode_drain chunks.flatten)

end Wiretap.Frame
