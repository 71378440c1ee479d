/-!
# Byte strings and little-endian words

Byte strings are lists. A word of `w` bytes is read with `leNat` and written with `leBytes`; fields
of a layout are read by offset (`u16At`, `u32At`, ...), so that a layout is a table of offsets.

Results:

* `leNat_leBytes`: reading what was written gives the value back, modulo `256 ^ w`.
* `leBytes_leNat`: writing what was read gives the bytes back.
* `length_leBytes`: a word has exactly its width.
* `splitExact?_append`, `eq_append_of_splitExact?`: cutting off exactly `n` bytes succeeds on an
  append whose first part has length `n`, and only there.
-/

namespace Wiretap

/-- A byte string, first byte first. -/
abbrev Bytes := List UInt8

namespace Bytes

/-! ## Words -/

/-- The number whose base 256 digits are the bytes, least significant first. -/
def leNat : Bytes → Nat
  | [] => 0
  | b :: bs => b.toNat + 256 * leNat bs

/-- The `w` least significant base 256 digits of `n`, least significant first. -/
def leBytes : (w : Nat) → (n : Nat) → Bytes
  | 0, _ => []
  | w + 1, n => UInt8.ofNat n :: leBytes w (n / 256)

@[simp] theorem length_leBytes (w n : Nat) : (leBytes w n).length = w := by
  induction w generalizing n with
  | zero => rfl
  | succ w ih => simp [leBytes, ih]

theorem leNat_leBytes (w n : Nat) : leNat (leBytes w n) = n % Nat.pow 256 w := by
  induction w generalizing n with
  | zero => simp [leBytes, leNat, Nat.pow, Nat.mod_one]
  | succ w ih =>
    have byte : (UInt8.ofNat n).toNat = n % 256 := by simp
    have hpow : Nat.pow 256 (w + 1) = 256 * Nat.pow 256 w := Nat.mul_comm _ _
    rw [leBytes, leNat, ih, byte, hpow, Nat.mod_mul]

theorem leBytes_leNat (bs : Bytes) : leBytes bs.length (leNat bs) = bs := by
  induction bs with
  | nil => rfl
  | cons b bs ih =>
    have hlt : b.toNat < 256 := b.toNat_lt
    have hdiv : (b.toNat + 256 * leNat bs) / 256 = leNat bs := by omega
    have hbyte : UInt8.ofNat (b.toNat + 256 * leNat bs) = b := by
      apply UInt8.toNat_inj.mp
      rw [UInt8.toNat_ofNat']
      omega
    rw [List.length_cons, leNat, leBytes, hdiv, ih, hbyte]

theorem leNat_lt (bs : Bytes) : leNat bs < Nat.pow 256 bs.length := by
  induction bs with
  | nil => exact Nat.one_pos
  | cons b bs ih =>
    have hlt : b.toNat < 256 := b.toNat_lt
    have hpow : Nat.pow 256 (bs.length + 1) = 256 * Nat.pow 256 bs.length := Nat.mul_comm _ _
    rw [leNat, List.length_cons, hpow]
    omega

/-! ## Fields at an offset -/

/-- The number in the `w` bytes from offset `off`. Bytes past the end count as absent. -/
def natAt (off w : Nat) (data : Bytes) : Nat := leNat ((data.drop off).take w)

def u8At (off : Nat) (data : Bytes) : UInt8 := UInt8.ofNat (natAt off 1 data)

def u16At (off : Nat) (data : Bytes) : UInt16 := UInt16.ofNat (natAt off 2 data)

def u32At (off : Nat) (data : Bytes) : UInt32 := UInt32.ofNat (natAt off 4 data)

def u64At (off : Nat) (data : Bytes) : UInt64 := UInt64.ofNat (natAt off 8 data)

/-- The `len` bytes from offset `off`, fewer at the end of the data. -/
def sub (off len : Nat) (data : Bytes) : Bytes := (data.drop off).take len

/-! ## Cutting -/

/-- The first `n` bytes and the others, or nothing when there are fewer than `n`. Looks at no more
than `n` bytes. -/
def splitExact? (n : Nat) (data : Bytes) : Option (Bytes × Bytes) :=
  let head := data.take n
  if head.length = n then some (head, data.drop n) else none

theorem splitExact?_append (a rest : Bytes) :
    splitExact? a.length (a ++ rest) = some (a, rest) := by
  simp [splitExact?]

theorem eq_append_of_splitExact? {n : Nat} {data a rest : Bytes}
    (h : splitExact? n data = some (a, rest)) : data = a ++ rest ∧ a.length = n := by
  unfold splitExact? at h
  simp only at h
  split at h
  next hlen =>
    simp only [Option.some.injEq, Prod.mk.injEq] at h
    obtain ⟨rfl, rfl⟩ := h
    exact ⟨(List.take_append_drop n data).symm, hlen⟩
  next => simp at h

theorem splitExact?_eq_none_iff {n : Nat} {data : Bytes} :
    splitExact? n data = none ↔ data.length < n := by
  unfold splitExact?
  simp only [List.length_take, ite_eq_right_iff, reduceCtorEq, imp_false]
  omega

end Bytes
end Wiretap
