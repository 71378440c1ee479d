import Wiretap.Frame

/-!
# Reading a stream in chunks

Bytes arrive in chunks of any size. After each chunk the reader drains what it holds, and keeps what
is left for the next one.

Results:

* `decode_cases`: the reader waits and leaves its buffer alone, or it answers with an item.
* `decode_append`: an answer is the same whatever comes behind the bytes that it was read from.
* `drain_append`: draining in two steps is draining at once.
* `feedAll_eq_drain`: so the cuts between the chunks do not matter.
-/

namespace Wiretap

theorem Bytes.splitExact?_append_right {n : Nat} {data a rest : Bytes}
    (h : splitExact? n data = some (a, rest)) (more : Bytes) :
    splitExact? n (data ++ more) = some (a, rest ++ more) := by
  obtain ⟨rfl, rfl⟩ := eq_append_of_splitExact? h
  rw [List.append_assoc, splitExact?_append]

namespace Frame

/-- What the reader answers for an item. -/
def Item.answer : Item → Except Error Message
  | message m => .ok m
  | corrupt declared => .error (.invalidLength declared)

/-- The messages among the items. -/
def messages (items : List Item) : List Message :=
  items.filterMap fun
    | .message m => some m
    | .corrupt _ => none

@[simp] theorem messages_nil : messages [] = [] := rfl

@[simp] theorem messages_message (m : Message) (items : List Item) :
    messages (.message m :: items) = m :: messages items := rfl

@[simp] theorem messages_corrupt (declared : Nat) (items : List Item) :
    messages (.corrupt declared :: items) = messages items := rfl

@[simp] theorem messages_append (items items' : List Item) :
    messages (items ++ items') = messages items ++ messages items' :=
  List.filterMap_append

/-! ## One answer -/

theorem decode_cases (buf : Bytes) :
    decode buf = (.error .incomplete, buf) ∨ ∃ item rest, decode buf = (Item.answer item, rest) := by
  unfold decode
  split
  next => exact .inl rfl
  next field rest _ =>
    simp only
    split
    next => exact .inr ⟨.corrupt (Bytes.leNat field), rest, rfl⟩
    next =>
      split
      next => exact .inl rfl
      next frame rest' _ =>
        split
        next => exact .inr ⟨.corrupt (Bytes.leNat field), rest', rfl⟩
        next => exact .inr ⟨.message (payload frame), rest', rfl⟩

/-- An answer does not depend on the bytes behind those that it was read from. -/
theorem decode_append {buf rest : Bytes} {item : Item} (h : decode buf = (item.answer, rest))
    (more : Bytes) : decode (buf ++ more) = (item.answer, rest ++ more) := by
  have hne : item.answer ≠ .error .incomplete := by cases item <;> simp [Item.answer]
  unfold decode at h ⊢
  split at h
  next => exact absurd (Prod.mk.inj h).1.symm hne
  next field left hfield =>
    rw [Bytes.splitExact?_append_right hfield more]
    simp only at h ⊢
    split at h
    next hlong =>
      obtain ⟨hitem, rfl⟩ := Prod.mk.inj h
      rw [if_pos hlong, hitem]
    next hlong =>
      rw [if_neg hlong]
      split at h
      next => exact absurd (Prod.mk.inj h).1.symm hne
      next frame left' hframe =>
        rw [Bytes.splitExact?_append_right hframe more]
        simp only
        split at h
        next hshort =>
          obtain ⟨hitem, rfl⟩ := Prod.mk.inj h
          rw [if_pos hshort, hitem]
        next hshort =>
          obtain ⟨hitem, rfl⟩ := Prod.mk.inj h
          rw [if_neg hshort, hitem]

theorem decode_answer_shorter {buf rest : Bytes} {item : Item}
    (h : decode buf = (item.answer, rest)) : rest.length + lengthWidth ≤ buf.length := by
  have hne : (decode buf).1 ≠ .error .incomplete := by
    rw [h]
    cases item <;> simp [Item.answer]
  have hle := decode_shorter hne
  rw [h] at hle
  exact hle

/-- The reader's own induction: a buffer is incomplete, or it is an item in front of a shorter
buffer. -/
theorem bufferInduction {P : Bytes → Prop}
    (incomplete : ∀ buf, decode buf = (.error .incomplete, buf) → P buf)
    (answer : ∀ buf item rest, decode buf = (Item.answer item, rest) → P rest → P buf)
    (buf : Bytes) : P buf := by
  induction hn : buf.length using Nat.strongRecOn generalizing buf with
  | _ n ih =>
    rcases decode_cases buf with h | ⟨item, rest, h⟩
    · exact incomplete buf h
    · have hlt := decode_answer_shorter h
      rw [lengthWidth] at hlt
      exact answer buf item rest h (ih rest.length (by omega) rest rfl)

/-! ## Draining -/

theorem drain_of_incomplete {buf : Bytes} (h : decode buf = (.error .incomplete, buf)) :
    drain buf = ([], buf) := by
  rw [drain]
  split <;> simp_all

theorem drain_of_answer {buf rest : Bytes} {item : Item} (h : decode buf = (item.answer, rest)) :
    drain buf = (item :: (drain rest).1, (drain rest).2) := by
  rw [drain]
  cases item <;> split <;> simp_all [Item.answer]

/-- Draining stops where the reader has to wait. -/
theorem decode_drain (buf : Bytes) :
    decode (drain buf).2 = (.error .incomplete, (drain buf).2) := by
  induction buf using bufferInduction with
  | incomplete buf h =>
    rw [drain_of_incomplete h]
    exact h
  | answer buf item rest h ih =>
    rw [drain_of_answer h]
    exact ih

theorem drain_append (buf more : Bytes) :
    drain (buf ++ more) =
      ((drain buf).1 ++ (drain ((drain buf).2 ++ more)).1, (drain ((drain buf).2 ++ more)).2) := by
  induction buf using bufferInduction with
  | incomplete buf h => rw [drain_of_incomplete h, List.nil_append]
  | answer buf item rest h ih =>
    rw [drain_of_answer (decode_append h more), drain_of_answer h, ih, List.cons_append]

/-- What is read off the front of a buffer does not depend on what comes behind it. -/
theorem drain_append_of_drain {buf left : Bytes} {items : List Item}
    (h : drain buf = (items ++ (drain left).1, (drain left).2)) (more : Bytes) :
    drain (buf ++ more) =
      (items ++ (drain (left ++ more)).1, (drain (left ++ more)).2) := by
  rw [drain_append, h, drain_append left, List.append_assoc]

/-! ## Chunks -/

/-- A chunk arrives: what has been read by then, and what is left. -/
def feed (st : List Item × Bytes) (chunk : Bytes) : List Item × Bytes :=
  (st.1 ++ (drain (st.2 ++ chunk)).1, (drain (st.2 ++ chunk)).2)

/-- What a reader that starts with an empty buffer makes of the chunks. -/
def feedAll (chunks : List Bytes) : List Item × Bytes := chunks.foldl feed ([], [])

theorem decode_feed (st : List Item × Bytes) (chunk : Bytes) :
    decode (feed st chunk).2 = (.error .incomplete, (feed st chunk).2) :=
  decode_drain (st.2 ++ chunk)

theorem foldl_feed (chunks : List Bytes) (st : List Item × Bytes)
    (hst : decode st.2 = (.error .incomplete, st.2)) :
    chunks.foldl feed st =
      (st.1 ++ (drain (st.2 ++ chunks.flatten)).1, (drain (st.2 ++ chunks.flatten)).2) := by
  induction chunks generalizing st with
  | nil =>
    rw [List.foldl_nil, List.flatten_nil, List.append_nil, drain_of_incomplete hst,
      List.append_nil]
  | cons chunk chunks ih =>
    rw [List.foldl_cons, ih _ (decode_feed st chunk), List.flatten_cons, ← List.append_assoc,
      drain_append (st.2 ++ chunk), ← List.append_assoc]
    rfl

/-- **The cuts do not matter.** A reader that drains its buffer after every chunk reads the items of
the whole stream, and is left with the same bytes. -/
theorem feedAll_eq_drain (chunks : List Bytes) : feedAll chunks = drain chunks.flatten := by
  rw [feedAll, foldl_feed chunks ([], []) rfl, List.nil_append, List.nil_append]

end Frame
end Wiretap
