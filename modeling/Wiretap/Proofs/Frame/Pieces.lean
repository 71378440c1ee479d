import Wiretap.Proofs.Frame.Partition

/-!
# Frames of which a part is missing

A channel need not take all of a frame that it is offered. Where a writer goes on with the next
frame all the same, the stream is made of pieces: the first bytes of each frame, as many as were
taken.

Results:

* `drain_taken`: the reader reads the frames that were taken as a whole, up to the first one of
  which a part was taken.
* `drain_of_cut`: from there on it reads nothing before the bytes that it waits for have arrived.
* `drain_of_joined`: it takes the later bytes for the rest of the frame whose length it knows.
* `drain_behind_cut`: whatever it reads behind a cut starts with the part of the frame that was
  taken and ends among the later bytes.
-/

namespace Wiretap

/-- A kind that is not an unnamed stand-in for a named one survives its way. -/
theorem MessageKind.ofByte_toByte {k : MessageKind} (h : ∀ code, k = .other code → 5 < code) :
    ofByte k.toByte = k := by
  cases k with
  | other code =>
    have hcode : 5 < code := h code rfl
    have hne : ∀ b : UInt8, b ≤ 5 → code ≠ b := by
      rintro b hb rfl
      exact absurd hcode (UInt8.not_lt.mpr hb)
    unfold ofByte toByte
    rw [if_neg (hne 0 (by decide)), if_neg (hne 1 (by decide)), if_neg (hne 2 (by decide)),
      if_neg (hne 3 (by decide)), if_neg (hne 4 (by decide)), if_neg (hne 5 (by decide))]
  | _ => rfl

theorem Message.received_eq_self {m : Message} (h : ∀ code, m.kind = .other code → 5 < code) :
    m.received = m := by
  rw [received, MessageKind.ofByte_toByte h]

namespace Frame

/-- The frame of a message, and how many bytes of it a channel has taken. -/
structure Piece where
  message : Message
  taken : Nat

namespace Piece

def bytes (p : Piece) : Bytes := (Frame.bytes p.message).take p.taken

/-- All of the frame was taken. -/
def isWhole (p : Piece) : Bool := wireLength p.message ≤ p.taken

/-- Some of the frame was taken, but not all. -/
def isCut (p : Piece) : Bool := 0 < p.taken && p.taken < wireLength p.message

/-- How many bytes a reader waits for that has read a piece of a frame: those of the length, and
those of the frame once it knows the length. -/
def awaited (p : Piece) : Nat := if p.taken < lengthWidth then lengthWidth else wireLength p.message

/-- How many bytes of the frame were not taken. -/
def missing (p : Piece) : Nat := wireLength p.message - p.taken

end Piece

/-- The bytes that the channel has taken. -/
def taken (ps : List Piece) : Bytes := ps.flatMap Piece.bytes

/-- The messages whose frames were taken as a whole, up to the first frame of which a part was
taken. -/
def intact (ps : List Piece) : List Message :=
  ((ps.takeWhile (!·.isCut)).filter Piece.isWhole).map Piece.message

/-- The pieces from the first frame on of which a part was taken. -/
def fromCut (ps : List Piece) : List Piece := ps.dropWhile (!·.isCut)

@[simp] theorem taken_nil : taken [] = [] := rfl

@[simp] theorem taken_cons (p : Piece) (ps : List Piece) : taken (p :: ps) = p.bytes ++ taken ps :=
  List.flatMap_cons

theorem taken_lt_of_isCut {p : Piece} (h : p.isCut = true) : p.taken < wireLength p.message := by
  unfold Piece.isCut at h
  exact of_decide_eq_true (Bool.and_eq_true_iff.mp h).2

theorem length_bytes_of_isCut {p : Piece} (h : p.isCut = true) : p.bytes.length = p.taken := by
  have hlt := taken_lt_of_isCut h
  rw [Piece.bytes, List.length_take, length_bytes]
  omega

theorem bytes_of_isWhole {p : Piece} (h : p.isWhole = true) : p.bytes = Frame.bytes p.message := by
  have hle : wireLength p.message ≤ p.taken := of_decide_eq_true h
  exact List.take_of_length_le (by rw [length_bytes]; exact hle)

/-- Of a frame that was neither taken as a whole nor cut, nothing was taken. -/
theorem bytes_of_not_isWhole {p : Piece} (hcut : p.isCut = false) (hwhole : p.isWhole = false) :
    p.bytes = [] := by
  have hlt : p.taken < wireLength p.message := Nat.lt_of_not_le (of_decide_eq_false hwhole)
  have hzero : p.taken = 0 := by
    unfold Piece.isCut at hcut
    rw [decide_eq_true hlt, Bool.and_true] at hcut
    have := of_decide_eq_false hcut
    omega
  rw [Piece.bytes, hzero, List.take_zero]

theorem intact_of_isCut {p : Piece} (h : p.isCut = true) (ps : List Piece) :
    intact (p :: ps) = [] ∧ fromCut (p :: ps) = p :: ps := by
  simp [intact, fromCut, h]

theorem intact_of_isWhole {p : Piece} (hcut : p.isCut = false) (hwhole : p.isWhole = true)
    (ps : List Piece) :
    intact (p :: ps) = p.message :: intact ps ∧ fromCut (p :: ps) = fromCut ps := by
  simp [intact, fromCut, hcut, hwhole]

theorem intact_of_not_isWhole {p : Piece} (hcut : p.isCut = false) (hwhole : p.isWhole = false)
    (ps : List Piece) : intact (p :: ps) = intact ps ∧ fromCut (p :: ps) = fromCut ps := by
  simp [intact, fromCut, hcut, hwhole]

theorem intact_sublist (ps : List Piece) : (intact ps).Sublist (ps.map Piece.message) :=
  ((List.filter_sublist.trans (List.takeWhile_sublist _)).map Piece.message)

theorem isCut_of_fromCut {ps later : List Piece} {p : Piece} (h : fromCut ps = p :: later) :
    p.isCut = true ∧ p ∈ ps := by
  unfold fromCut at h
  have hne : ps.dropWhile (!·.isCut) ≠ [] := by
    rw [h]
    exact List.cons_ne_nil p later
  have hhead := List.head_dropWhile_not (fun p : Piece => !p.isCut) hne
  have hmem : p ∈ ps.dropWhile (!·.isCut) := by
    rw [h]
    exact List.mem_cons_self
  simp only [h, List.head_cons, Bool.not_eq_false'] at hhead
  exact ⟨hhead, (List.dropWhile_sublist _).mem hmem⟩

/-! ## Reading -/

/-- What a reader makes of the pieces: the messages in front of the first cut, and then whatever the
bytes from there on come to. -/
theorem drain_taken {ps : List Piece} (hfits : ∀ p ∈ ps, wireLength p.message ≤ maxLength) :
    drain (taken ps) =
      ((intact ps).map (fun m => .message m.received) ++ (drain (taken (fromCut ps))).1,
        (drain (taken (fromCut ps))).2) := by
  induction ps with
  | nil => rfl
  | cons p ps ih =>
    have ih := ih fun p' hp' => hfits p' (List.mem_cons_of_mem p hp')
    cases hcut : p.isCut with
    | true =>
      obtain ⟨hintact, hfrom⟩ := intact_of_isCut hcut ps
      rw [hintact, hfrom]
      rfl
    | false =>
      cases hwhole : p.isWhole with
      | true =>
        obtain ⟨hintact, hfrom⟩ := intact_of_isWhole hcut hwhole ps
        have hdecode : decode (Frame.bytes p.message ++ taken ps) =
            ((Item.message p.message.received).answer, taken ps) :=
          decode_span (.frame p.message (hfits p List.mem_cons_self)) (taken ps)
        rw [taken_cons, bytes_of_isWhole hwhole, hintact, hfrom, drain_of_answer hdecode, ih]
        rfl
      | false =>
        obtain ⟨hintact, hfrom⟩ := intact_of_not_isWhole hcut hwhole ps
        rw [taken_cons, bytes_of_not_isWhole hcut hwhole, List.nil_append, hintact, hfrom]
        exact ih

/-- A reader that knows the length waits for the whole frame. -/
theorem decode_of_declared {m : Message} (hfits : wireLength m ≤ maxLength) {buf rest : Bytes}
    (hbuf : buf = Bytes.leBytes lengthWidth (wireLength m) ++ rest)
    (hlen : buf.length < wireLength m) : decode buf = (.error .incomplete, buf) := by
  have hlt : wireLength m < Nat.pow 256 lengthWidth := by
    have : maxLength < Nat.pow 256 lengthWidth := by decide
    omega
  have hheader : lengthWidth ≤ wireLength m := by
    have : lengthWidth ≤ headerLength := by decide
    exact Nat.le_trans this (Nat.le_add_right _ _)
  have hfield := Bytes.splitExact?_append (Bytes.leBytes lengthWidth (wireLength m)) rest
  rw [Bytes.length_leBytes, ← hbuf] at hfield
  have hnone : Bytes.splitExact? (max (wireLength m) lengthWidth) buf = none :=
    Bytes.splitExact?_eq_none_iff.mpr (by omega)
  unfold decode
  rw [hfield]
  simp only [leNat_length hlt]
  rw [if_neg (by omega), hnone]

/-- A piece that holds the length starts with it. -/
theorem bytes_of_lengthWidth_le {p : Piece} (h : lengthWidth ≤ p.taken) :
    ∃ tail, p.bytes = Bytes.leBytes lengthWidth (wireLength p.message) ++ tail := by
  have hle : (Bytes.leBytes lengthWidth (wireLength p.message)).length ≤ p.taken := by
    rw [Bytes.length_leBytes]
    exact h
  rw [Piece.bytes, Frame.bytes, List.append_assoc, List.take_append, List.take_of_length_le hle]
  exact ⟨_, rfl⟩

theorem decode_of_cut {p : Piece} (hcut : p.isCut = true)
    (hfits : wireLength p.message ≤ maxLength) {rest : Bytes}
    (hlen : p.taken + rest.length < p.awaited) :
    decode (p.bytes ++ rest) = (.error .incomplete, p.bytes ++ rest) := by
  have htotal : (p.bytes ++ rest).length = p.taken + rest.length := by
    rw [List.length_append, length_bytes_of_isCut hcut]
  unfold Piece.awaited at hlen
  split at hlen
  next =>
    -- not even the length has arrived
    have hnone : Bytes.splitExact? lengthWidth (p.bytes ++ rest) = none :=
      Bytes.splitExact?_eq_none_iff.mpr (by rw [htotal]; exact hlen)
    unfold decode
    rw [hnone]
  next hlength =>
    obtain ⟨tail, htail⟩ := bytes_of_lengthWidth_le (Nat.le_of_not_lt hlength)
    have hbuf : p.bytes ++ rest =
        Bytes.leBytes lengthWidth (wireLength p.message) ++ (tail ++ rest) := by
      rw [htail, List.append_assoc]
    exact decode_of_declared hfits hbuf (by rw [htotal]; exact hlen)

/-- **Behind a cut** nothing is read before the bytes that the reader waits for have arrived. -/
theorem drain_of_cut {p : Piece} {ps : List Piece} (hcut : p.isCut = true)
    (hfits : wireLength p.message ≤ maxLength)
    (hlen : p.taken + (taken ps).length < p.awaited) :
    drain (taken (p :: ps)) = ([], taken (p :: ps)) := by
  rw [taken_cons]
  exact drain_of_incomplete (decode_of_cut hcut hfits hlen)

/-- A reader that knows the length takes as many later bytes for the rest of the frame as
it lacks. -/
theorem decode_of_joined {p : Piece} (hcut : p.isCut = true)
    (hfits : wireLength p.message ≤ maxLength) (hlength : lengthWidth ≤ p.taken) {rest : Bytes}
    (hlen : p.missing ≤ rest.length) :
    decode (p.bytes ++ rest) =
      (.ok (payload (p.bytes ++ rest.take p.missing)), rest.drop p.missing) := by
  obtain ⟨tail, htail⟩ := bytes_of_lengthWidth_le hlength
  have hheader : lengthWidth < headerLength ∧ headerLength ≤ wireLength p.message :=
    ⟨by decide, Nat.le_add_right _ _⟩
  have hframe : (p.bytes ++ rest.take p.missing).length = wireLength p.message := by
    have hlt := taken_lt_of_isCut hcut
    rw [List.length_append, length_bytes_of_isCut hcut, List.length_take_of_le hlen, Piece.missing]
    omega
  have hrest : lengthWidth + (tail ++ rest.take p.missing).length =
      max (wireLength p.message) lengthWidth := by
    rw [htail, List.append_assoc, List.length_append, Bytes.length_leBytes] at hframe
    omega
  have hdecode := decode_declared (by omega) hrest (rest.drop p.missing)
  rw [if_neg (by omega), ← List.append_assoc, ← htail] at hdecode
  rw [← hdecode, List.append_assoc, List.take_append_drop]

/-- **Later bytes are read as the rest** of a frame that was cut behind its length. -/
theorem drain_of_joined {p : Piece} {ps : List Piece} (hcut : p.isCut = true)
    (hfits : wireLength p.message ≤ maxLength) (hlength : lengthWidth ≤ p.taken)
    (hlen : p.missing ≤ (taken ps).length) :
    let rest := drain ((taken ps).drop p.missing)
    drain (taken (p :: ps)) =
      (.message (payload (p.bytes ++ (taken ps).take p.missing)) :: rest.1, rest.2) := by
  intro rest
  rw [taken_cons]
  have hanswer : decode (p.bytes ++ taken ps) =
      (Item.answer (.message (payload (p.bytes ++ (taken ps).take p.missing))),
        (taken ps).drop p.missing) :=
    decode_of_joined hcut hfits hlength hlen
  exact drain_of_answer hanswer

/-- An answer behind a cut consumes some of the later bytes. -/
theorem lt_length_of_decode_cut {p : Piece} (hcut : p.isCut = true)
    (hfits : wireLength p.message ≤ maxLength) {rest left : Bytes} {item : Item}
    (h : decode (p.bytes ++ rest) = (item.answer, left)) : left.length < rest.length := by
  have hlt := taken_lt_of_isCut hcut
  have hwaits : p.awaited ≤ p.taken + rest.length := by
    by_contra hlen
    rw [decode_of_cut hcut hfits (Nat.lt_of_not_le hlen)] at h
    have hne : item.answer ≠ .error .incomplete := by cases item <;> simp [Item.answer]
    exact hne (Prod.mk.inj h).1.symm
  unfold Piece.awaited at hwaits
  split at hwaits
  next hlength =>
    have hle : left.length + lengthWidth ≤ (p.bytes ++ rest).length := decode_answer_shorter h
    rw [List.length_append, length_bytes_of_isCut hcut] at hle
    omega
  next hlength =>
    have hleft := decode_of_joined hcut hfits (Nat.le_of_not_lt hlength)
      (Nat.sub_le_iff_le_add'.mpr hwaits)
    rw [h] at hleft
    rw [(Prod.mk.inj hleft).2, List.length_drop, Piece.missing]
    omega

/-- **Behind a cut** the reader waits for the end of a span, or what it reads starts with the part
of the frame that was taken and ends among the later bytes. -/
theorem drain_behind_cut {p : Piece} (hcut : p.isCut = true)
    (hfits : wireLength p.message ≤ maxLength) (ps : List Piece) :
    (Unfinished (taken (p :: ps)) ∧ drain (taken (p :: ps)) = ([], taken (p :: ps))) ∨
      ∃ item more left, more ≠ [] ∧ taken ps = more ++ left ∧
        Item.ReadFrom item (p.bytes ++ more) ∧
        drain (taken (p :: ps)) = (item :: (drain left).1, (drain left).2) := by
  rw [taken_cons]
  rcases decode_cases (p.bytes ++ taken ps) with hwaits | ⟨item, left, hanswer⟩
  · exact .inl ⟨unfinished_of_decode hwaits, drain_of_incomplete hwaits⟩
  · have hlt := lt_length_of_decode_cut hcut hfits hanswer
    obtain ⟨span, hspan, hitem⟩ := readFrom_of_decode hanswer
    obtain ⟨more, rfl, hmore⟩ : ∃ more, span = p.bytes ++ more ∧ taken ps = more ++ left := by
      rcases List.append_eq_append_iff.mp hspan with ⟨early, hearly, rfl⟩ | ⟨more, hmore, hrest⟩
      · rw [List.length_append] at hlt
        omega
      · exact ⟨more, hmore, hrest⟩
    refine .inr ⟨item, more, left, ?_, hmore, hitem, drain_of_answer hanswer⟩
    rintro rfl
    rw [hmore, List.nil_append] at hlt
    exact Nat.lt_irrefl _ hlt

/-- A stream without a cut is read to its end. -/
theorem drain_of_fromCut_nil {ps : List Piece} (h : fromCut ps = []) :
    drain (taken (fromCut ps)) = ([], []) := by
  rw [h, taken_nil, drain_of_incomplete rfl]

end Frame
end Wiretap
