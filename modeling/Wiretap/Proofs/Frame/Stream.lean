import Wiretap.Proofs.Frame.Chunks

/-!
# Streams of frames and corrupt spans

A stream is made of spans: frames of messages, and corrupt lengths with what the reader discards
along with them. The reader takes a stream apart again at the seams of its spans, wherever the
stream was cut on its way.

Results:

* `decode_span`: in front of anything, a span is read as its item and nothing else is consumed.
* `decode_of_isPrefix_span`: a part of a span is not read at all.
* `feedAll_stream`: every cutting of a stream gives the items of its spans in order, each as soon as
  the last byte of its span has arrived and not before.
-/

namespace Wiretap

/-- A message as it arrives: its kind is the one that its byte stands for. -/
def Message.received (m : Message) : Message := { m with kind := .ofByte m.kind.toByte }

namespace Frame

/-- A piece of a stream that the reader takes in one go. -/
inductive Span where
  /-- The frame of a message. -/
  | frame (m : Message) (fits : wireLength m ≤ maxLength)
  /-- A length too short for a header, with the bytes that it claims. -/
  | short (declared : UInt32) (claimed : Bytes) (tooShort : declared.toNat < headerLength)
      (length_claimed : claimed.length = max declared.toNat lengthWidth - lengthWidth)
  /-- A length above the limit, with nothing else. -/
  | oversize (declared : UInt32) (tooLong : maxLength < declared.toNat)

namespace Span

def bytes : Span → Bytes
  | frame m _ => Frame.bytes m
  | short declared claimed _ _ => Bytes.leBytes lengthWidth declared.toNat ++ claimed
  | oversize declared _ => Bytes.leBytes lengthWidth declared.toNat

/-- What a span is read as. -/
def item : Span → Item
  | frame m _ => .message m.received
  | short declared _ _ _ => .corrupt declared.toNat
  | oversize declared _ => .corrupt declared.toNat

end Span

def stream (spans : List Span) : Bytes := spans.flatMap Span.bytes

/-- The spans at the front of a stream that lie within its first `n` bytes. -/
def within : (n : Nat) → List Span → List Span
  | _, [] => []
  | n, s :: ss => if s.bytes.length ≤ n then s :: within (n - s.bytes.length) ss else []

@[simp] theorem stream_nil : stream [] = [] := rfl

@[simp] theorem stream_cons (s : Span) (ss : List Span) : stream (s :: ss) = s.bytes ++ stream ss :=
  List.flatMap_cons

@[simp] theorem within_nil (n : Nat) : within n [] = [] := by
  unfold within
  rfl

theorem within_all (spans : List Span) : within (stream spans).length spans = spans := by
  induction spans with
  | nil => rfl
  | cons s ss ih =>
    rw [within, stream_cons, List.length_append, if_pos (Nat.le_add_right _ _),
      Nat.add_sub_cancel_left, ih]

/-! ## Frames -/

theorem encode_of_fits {m : Message} (fits : wireLength m ≤ maxLength) :
    encode m = .ok (bytes m) := if_pos fits

theorem length_bytes (m : Message) : (bytes m).length = wireLength m := by
  simp [bytes, wireLength, headerLength, lengthWidth]
  omega

theorem bytes_eq_append (m : Message) :
    bytes m = (Bytes.leBytes lengthWidth (wireLength m) ++ [m.kind.toByte])
      ++ (Bytes.leBytes 4 m.subchannel.toNat ++ m.data) := by
  simp [bytes]

theorem drop_five_bytes (m : Message) :
    (bytes m).drop 5 = Bytes.leBytes 4 m.subchannel.toNat ++ m.data := by
  rw [bytes_eq_append, List.drop_left' (by simp [lengthWidth])]

theorem payload_bytes (m : Message) : payload (bytes m) = m.received := by
  have hkind : Bytes.u8At 4 (bytes m) = m.kind.toByte := by
    simp [Bytes.u8At, Bytes.natAt, bytes, lengthWidth, Bytes.leNat]
  have hsub : Bytes.u32At 5 (bytes m) = m.subchannel := by
    have hlt : m.subchannel.toNat < Nat.pow 256 4 := m.subchannel.toNat_lt
    rw [Bytes.u32At, Bytes.natAt, drop_five_bytes, List.take_left' (Bytes.length_leBytes 4 _),
      Bytes.leNat_leBytes, Nat.mod_eq_of_lt hlt, UInt32.ofNat_toNat]
  have hdata : (bytes m).drop headerLength = m.data := by
    rw [show headerLength = 5 + 4 from rfl, ← List.drop_drop, drop_five_bytes,
      List.drop_left' (Bytes.length_leBytes 4 _)]
  rw [payload, hkind, hsub, hdata]
  rfl

/-! ## Spans -/

theorem leNat_length {declared : Nat} (h : declared < Nat.pow 256 lengthWidth) :
    Bytes.leNat (Bytes.leBytes lengthWidth declared) = declared := by
  rw [Bytes.leNat_leBytes, Nat.mod_eq_of_lt h]

/-- A length within the limit takes the bytes that it declares, never fewer than its own four. -/
theorem decode_declared {declared : Nat} {tail : Bytes}
    (hle : max declared lengthWidth ≤ maxLength)
    (htail : lengthWidth + tail.length = max declared lengthWidth) (rest : Bytes) :
    decode (Bytes.leBytes lengthWidth declared ++ tail ++ rest) =
      (if max declared lengthWidth < headerLength then .error (.invalidLength declared)
        else .ok (payload (Bytes.leBytes lengthWidth declared ++ tail)), rest) := by
  have hlt : declared < Nat.pow 256 lengthWidth := by
    have : maxLength < Nat.pow 256 lengthWidth := by decide
    omega
  have hfield := Bytes.splitExact?_append (Bytes.leBytes lengthWidth declared) (tail ++ rest)
  have hspan := Bytes.splitExact?_append (Bytes.leBytes lengthWidth declared ++ tail) rest
  rw [Bytes.length_leBytes, ← List.append_assoc] at hfield
  rw [List.length_append, Bytes.length_leBytes, htail] at hspan
  unfold decode
  rw [hfield]
  simp only [leNat_length hlt]
  rw [if_neg (by omega), hspan]
  simp only
  split <;> rfl

/-- A length above the limit takes its own four bytes only. -/
theorem decode_oversize {declared : Nat} (hlong : maxLength < declared)
    (hlt : declared < Nat.pow 256 lengthWidth) (rest : Bytes) :
    decode (Bytes.leBytes lengthWidth declared ++ rest) =
      (.error (.invalidLength declared), rest) := by
  have hfield := Bytes.splitExact?_append (Bytes.leBytes lengthWidth declared) rest
  rw [Bytes.length_leBytes] at hfield
  unfold decode
  rw [hfield]
  simp only [leNat_length hlt]
  rw [if_pos (by omega)]

/-- In front of anything, a span is read as its item. -/
theorem decode_span (s : Span) (rest : Bytes) :
    decode (s.bytes ++ rest) = (s.item.answer, rest) := by
  have hmin : lengthWidth < headerLength ∧ headerLength ≤ maxLength := by decide
  cases s with
  | frame m fits =>
    have hheader : headerLength ≤ wireLength m := Nat.le_add_right _ _
    have htail : lengthWidth + (m.kind.toByte :: Bytes.leBytes 4 m.subchannel.toNat ++ m.data).length
        = max (wireLength m) lengthWidth := by
      have hlen := length_bytes m
      rw [bytes, List.append_assoc, List.length_append, Bytes.length_leBytes] at hlen
      omega
    have h := decode_declared (by omega) htail rest
    rw [if_neg (by omega), ← List.append_assoc, ← bytes, payload_bytes] at h
    exact h
  | short declared claimed tooShort length_claimed =>
    have htail : lengthWidth + claimed.length = max declared.toNat lengthWidth := by omega
    have h := decode_declared (by omega) htail rest
    rw [if_pos (by omega)] at h
    exact h
  | oversize declared tooLong => exact decode_oversize tooLong declared.toNat_lt rest

/-- The first bytes of a span say nothing before the last one has arrived. -/
theorem decode_of_isPrefix_span {s : Span} {buf more : Bytes} (h : buf ++ more = s.bytes)
    (hmore : more ≠ []) : decode buf = (.error .incomplete, buf) := by
  rcases decode_cases buf with hbuf | ⟨item, rest, hbuf⟩
  · exact hbuf
  · have hspan := decode_append hbuf more
    have hwhole := decode_span s []
    rw [List.append_nil, ← h, hspan] at hwhole
    have hrest : rest ++ more = [] := (Prod.mk.inj hwhole).2
    exact absurd (List.append_eq_nil_iff.mp hrest).2 hmore

/-! ## Streams -/

/-- What a reader makes of the first part of a stream: the items of the spans that lie within it,
and the bytes behind those spans are left. -/
theorem drain_of_isPrefix_stream {spans : List Span} {buf more : Bytes}
    (h : buf ++ more = stream spans) :
    (drain buf).1 = (within buf.length spans).map Span.item ∧
      stream (within buf.length spans) ++ (drain buf).2 = buf := by
  induction spans generalizing buf with
  | nil =>
    obtain ⟨rfl, -⟩ := List.append_eq_nil_iff.mp h
    rw [drain_of_incomplete rfl]
    exact ⟨rfl, rfl⟩
  | cons s ss ih =>
    rw [stream_cons] at h
    by_cases hle : s.bytes.length ≤ buf.length
    · -- the first span is there as a whole
      obtain ⟨rest, rfl⟩ : ∃ rest, buf = s.bytes ++ rest := by
        refine ⟨buf.drop s.bytes.length, ?_⟩
        have htake := congrArg (List.take s.bytes.length) h
        rw [List.take_append_of_le_length hle, List.take_left] at htake
        rw [← htake, List.length_take_of_le hle, List.take_append_drop]
      rw [List.append_assoc, List.append_cancel_left_eq] at h
      obtain ⟨hitems, hleft⟩ := ih h
      have hcount : (s.bytes ++ rest).length - s.bytes.length = rest.length := by simp
      rw [drain_of_answer (decode_span s rest), within, if_pos hle, hcount]
      refine ⟨by rw [List.map_cons, hitems], ?_⟩
      rw [stream_cons, List.append_assoc, hleft]
    · -- the reader waits for the end of the first span
      obtain ⟨missing, hspan⟩ : ∃ missing, buf ++ missing = s.bytes := by
        refine ⟨s.bytes.drop buf.length, ?_⟩
        have htake := congrArg (List.take buf.length) h
        rw [List.take_left, List.take_append_of_le_length (by omega)] at htake
        rw [htake, List.length_take_of_le (by omega), List.take_append_drop]
      have hmissing : missing ≠ [] := by
        rintro rfl
        rw [List.append_nil] at hspan
        exact hle (Nat.le_of_eq (by rw [hspan]))
      rw [drain_of_incomplete (decode_of_isPrefix_span hspan hmissing), within, if_neg hle]
      exact ⟨rfl, rfl⟩

/-- **Streams are taken apart at their seams.** However a stream of spans is cut into chunks, a
reader that drains its buffer after every chunk reads the items of the spans in order and keeps
nothing back. After the first `k` chunks it has read the items of exactly those spans whose last
byte has arrived, and it holds the bytes behind them. Every message that fits is the frame that
`encode` makes of it. -/
theorem feedAll_stream {spans : List Span} {chunks : List Bytes}
    (hcut : chunks.flatten = stream spans) :
    feedAll chunks = (spans.map Span.item, []) ∧
      (∀ k, let arrived := (chunks.take k).flatten
        (feedAll (chunks.take k)).1 = (within arrived.length spans).map Span.item ∧
          stream (within arrived.length spans) ++ (feedAll (chunks.take k)).2 = arrived) ∧
      ∀ m (fits : wireLength m ≤ maxLength), encode m = .ok (Span.frame m fits).bytes := by
  refine ⟨?_, ?_, fun m fits => encode_of_fits fits⟩
  · rw [feedAll_eq_drain, hcut]
    obtain ⟨hitems, hleft⟩ := drain_of_isPrefix_stream (List.append_nil (stream spans))
    rw [within_all] at hitems hleft
    exact Prod.ext hitems (List.append_right_eq_self.mp hleft)
  · intro k
    have hprefix : (chunks.take k).flatten ++ (chunks.drop k).flatten = stream spans := by
      rw [← List.flatten_append, List.take_append_drop, hcut]
    rw [feedAll_eq_drain]
    exact drain_of_isPrefix_stream hprefix

/-- Three corrupt spans between two messages, in single bytes, with empty chunks and with chunks
across the seams. -/
theorem feedAll_stream_mixed :
    let spans : List Span :=
      [.frame ⟨.other 3, 7, [1, 2]⟩ (by decide), .short 2 [] (by decide) (by decide),
        .short 8 [9, 9, 9, 9] (by decide) (by decide), .oversize 4294967295 (by decide),
        .frame .exit (by decide)]
    let chunks : List Bytes :=
      [[11], [], [0, 0, 0, 3, 7, 0, 0, 0, 1], [2, 2, 0, 0], [0, 8, 0, 0, 0, 9, 9, 9, 9, 255, 255],
        [255, 255, 9, 0, 0, 0, 2, 0, 0, 0], [0]]
    chunks.flatten = stream spans ∧
      feedAll chunks =
        ([.message ⟨.recv, 7, [1, 2]⟩, .corrupt 2, .corrupt 8, .corrupt 4294967295,
          .message .exit], []) := by
  intro spans chunks
  have hcut : chunks.flatten = stream spans := by decide
  exact ⟨hcut, (feedAll_stream hcut).1⟩

end Frame
end Wiretap
