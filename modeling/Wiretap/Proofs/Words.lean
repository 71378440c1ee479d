import Wiretap.Bytes

/-!
# Words in their places

A layout of fixed width is a table of places in a byte string, with a number in each. A word is in
some bytes if all of its own bytes stand at its place, so that none of them is missing; other bytes
may stand around it. Words whose places do not overlap can be written over any bytes that are long
enough.

Results:

* `in_u8At`, `in_u16At`, `in_u32At`, `in_u64At`: a field that is read within the bytes is a word in
  them.
* `Word.In.u8At_eq`, `Word.In.u16At_eq`, `Word.In.u32At_eq`, `Word.In.u64At_eq`: a word in the bytes
  is read as its number.
* `in_write`: words that were written are in the bytes.
* `drop_write`: bytes behind them are as before.
-/

namespace Wiretap.Bytes

/-- A number in its place: from which byte on it stands, in how many bytes, and which one it is. -/
structure Word where
  offset : Nat
  width : Nat
  value : Nat

def word8 (offset : Nat) (x : UInt8) : Word := ⟨offset, 1, x.toNat⟩

def word16 (offset : Nat) (x : UInt16) : Word := ⟨offset, 2, x.toNat⟩

def word32 (offset : Nat) (x : UInt32) : Word := ⟨offset, 4, x.toNat⟩

def word64 (offset : Nat) (x : UInt64) : Word := ⟨offset, 8, x.toNat⟩

namespace Word

/-- The word stands in the bytes: its place lies within them, and holds its digits, least
significant first. -/
structure In (w : Word) (data : Bytes) : Prop where
  fits : w.offset + w.width ≤ data.length
  digits : sub w.offset w.width data = leBytes w.width w.value

/-- The places of two words do not overlap. -/
def Apart (w w' : Word) : Prop :=
  w.offset + w.width ≤ w'.offset ∨ w'.offset + w'.width ≤ w.offset

/-- Writes the word over what stands at its place. -/
def put (w : Word) (data : Bytes) : Bytes :=
  data.take w.offset ++ leBytes w.width w.value ++ data.drop (w.offset + w.width)

end Word

/-- Writes the words over what stands at their places. -/
def write (ws : List Word) (data : Bytes) : Bytes := ws.foldr Word.put data

variable {w w' : Word} {ws : List Word} {data : Bytes} {offset width : Nat}

/-! ## Reading -/

theorem length_sub (h : offset + width ≤ data.length) : (sub offset width data).length = width := by
  simp only [sub, List.length_take, List.length_drop]
  omega

theorem natAt_lt (offset width : Nat) (data : Bytes) :
    natAt offset width data < Nat.pow 256 width := by
  have hlength : (sub offset width data).length ≤ width := List.length_take_le width _
  have hlt := leNat_lt (sub offset width data)
  have hpow := Nat.pow_le_pow_right (n := 256) (by decide) hlength
  exact Nat.lt_of_lt_of_le hlt hpow

/-- The number that is read from a place within the bytes is a word in them. -/
theorem in_natAt (h : offset + width ≤ data.length) :
    (Word.mk offset width (natAt offset width data)).In data := by
  refine ⟨h, ?_⟩
  have hbytes := leBytes_leNat (sub offset width data)
  rw [length_sub h] at hbytes
  exact hbytes.symm

theorem in_u8At (h : offset + 1 ≤ data.length) : (word8 offset (u8At offset data)).In data := by
  have hlt := natAt_lt offset 1 data
  rw [word8, u8At, UInt8.toNat_ofNat_of_lt' hlt]
  exact in_natAt h

theorem in_u16At (h : offset + 2 ≤ data.length) : (word16 offset (u16At offset data)).In data := by
  have hlt := natAt_lt offset 2 data
  rw [word16, u16At, UInt16.toNat_ofNat_of_lt' hlt]
  exact in_natAt h

theorem in_u32At (h : offset + 4 ≤ data.length) : (word32 offset (u32At offset data)).In data := by
  have hlt := natAt_lt offset 4 data
  rw [word32, u32At, UInt32.toNat_ofNat_of_lt' hlt]
  exact in_natAt h

theorem in_u64At (h : offset + 8 ≤ data.length) : (word64 offset (u64At offset data)).In data := by
  have hlt := natAt_lt offset 8 data
  rw [word64, u64At, UInt64.toNat_ofNat_of_lt' hlt]
  exact in_natAt h

namespace Word.In

theorem natAt_eq (h : w.In data) (hlt : w.value < Nat.pow 256 w.width) :
    natAt w.offset w.width data = w.value := by
  show leNat (sub w.offset w.width data) = w.value
  rw [h.digits, leNat_leBytes, Nat.mod_eq_of_lt hlt]

theorem u8At_eq {x : UInt8} (h : (word8 offset x).In data) : u8At offset data = x := by
  have hvalue : natAt offset 1 data = x.toNat := h.natAt_eq x.toNat_lt
  rw [u8At, hvalue, UInt8.ofNat_toNat]

theorem u16At_eq {x : UInt16} (h : (word16 offset x).In data) : u16At offset data = x := by
  have hvalue : natAt offset 2 data = x.toNat := h.natAt_eq x.toNat_lt
  rw [u16At, hvalue, UInt16.ofNat_toNat]

theorem u32At_eq {x : UInt32} (h : (word32 offset x).In data) : u32At offset data = x := by
  have hvalue : natAt offset 4 data = x.toNat := h.natAt_eq x.toNat_lt
  rw [u32At, hvalue, UInt32.ofNat_toNat]

theorem u64At_eq {x : UInt64} (h : (word64 offset x).In data) : u64At offset data = x := by
  have hvalue : natAt offset 8 data = x.toNat := h.natAt_eq x.toNat_lt
  rw [u64At, hvalue, UInt64.ofNat_toNat]

/-- Bytes behind a word are of no account. -/
theorem take {n : Nat} (h : w.In data) (hn : w.offset + w.width ≤ n) : w.In (data.take n) := by
  have hfits := h.fits
  refine ⟨by rw [List.length_take]; omega, ?_⟩
  rw [← h.digits, sub, sub, List.drop_take, List.take_take, Nat.min_eq_left (by omega)]

end Word.In

/-! ## Writing -/

theorem length_put (h : w.offset + w.width ≤ data.length) : (w.put data).length = data.length := by
  simp only [Word.put, List.length_append, List.length_take, length_leBytes, List.length_drop]
  omega

theorem in_put (h : w.offset + w.width ≤ data.length) : w.In (w.put data) := by
  refine ⟨by rwa [length_put h], ?_⟩
  have hfront : (data.take w.offset).length = w.offset := List.length_take_of_le (by omega)
  rw [sub, Word.put, List.append_assoc, List.drop_left' hfront,
    List.take_left' (length_leBytes _ _)]

/-- Bytes outside of the place stay as they are. -/
theorem getElem?_put (h : w.offset + w.width ≤ data.length) {i : Nat}
    (hi : i < w.offset ∨ w.offset + w.width ≤ i) : (w.put data)[i]? = data[i]? := by
  have hfront : (data.take w.offset).length = w.offset := List.length_take_of_le (by omega)
  have hupTo : (data.take w.offset ++ leBytes w.width w.value).length = w.offset + w.width := by
    rw [List.length_append, hfront, length_leBytes]
  unfold Word.put
  rcases hi with hi | hi
  · rw [List.append_assoc, List.getElem?_append_left (by omega), List.getElem?_take_of_lt hi]
  · rw [List.getElem?_append_right (by omega), hupTo, List.getElem?_drop, Nat.add_sub_cancel' hi]

theorem drop_put {n : Nat} (h : w.offset + w.width ≤ data.length) (hn : w.offset + w.width ≤ n) :
    (w.put data).drop n = data.drop n := by
  apply List.ext_getElem?
  intro i
  rw [List.getElem?_drop, List.getElem?_drop, getElem?_put h (by omega)]

theorem Word.In.put (h : w.In data) (hfits : w'.offset + w'.width ≤ data.length)
    (hapart : w'.Apart w) : w.In (w'.put data) := by
  refine ⟨by rw [length_put hfits]; exact h.fits, ?_⟩
  rw [← h.digits]
  apply List.ext_getElem?
  intro i
  simp only [sub, List.getElem?_take, List.getElem?_drop]
  split
  · apply getElem?_put hfits
    unfold Word.Apart at hapart
    omega
  · rfl

theorem length_write (h : ∀ w ∈ ws, w.offset + w.width ≤ data.length) :
    (write ws data).length = data.length := by
  induction ws with
  | nil => rfl
  | cons w ws ih =>
    obtain ⟨hw, hws⟩ := List.forall_mem_cons.mp h
    have hlength := ih hws
    show (w.put (write ws data)).length = data.length
    rw [length_put (by rwa [hlength]), hlength]

theorem drop_write {n : Nat} (hn : ∀ w ∈ ws, w.offset + w.width ≤ n) (hlength : n ≤ data.length) :
    (write ws data).drop n = data.drop n := by
  induction ws with
  | nil => rfl
  | cons w ws ih =>
    obtain ⟨hw, hws⟩ := List.forall_mem_cons.mp hn
    have hsame : (write ws data).length = data.length :=
      length_write fun w hw => Nat.le_trans (hws w hw) hlength
    show (w.put (write ws data)).drop n = data.drop n
    rw [drop_put (by omega) hw, ih hws]

/-- Words whose places lie apart and within the bytes are all there once they have been written. -/
theorem in_write (hfits : ∀ w ∈ ws, w.offset + w.width ≤ data.length)
    (hapart : ws.Pairwise Word.Apart) : ∀ w ∈ ws, w.In (write ws data) := by
  induction ws with
  | nil => simp
  | cons w ws ih =>
    obtain ⟨hw, hws⟩ := List.forall_mem_cons.mp hfits
    obtain ⟨hothers, hapart⟩ := List.pairwise_cons.mp hapart
    have hfits' : w.offset + w.width ≤ (write ws data).length := by rwa [length_write hws]
    intro w' hw'
    show w'.In (w.put (write ws data))
    rcases List.mem_cons.mp hw' with rfl | hw'
    · exact in_put hfits'
    · exact (ih hws hapart w' hw').put hfits' (hothers w' hw')

end Wiretap.Bytes
