import Wiretap.Text.Base64

/-!
# Reading base 64 back

A group of letters is the number of its bytes in another base, so the reader gets the bytes of each
group back, and no letter is mistaken for padding.

Results:

* `decode?_encode`: reading gives back the bytes that were written.
* `all_isWord_encode`: nothing but letters and padding is written.
-/

namespace Wiretap.Text.Base64

/-- The characters of which base 64 consists. -/
def isWord (c : Char) : Bool := (value? c).isSome || c = '='

theorem value?_letter_of_lt {n : Nat} (h : n < 64) : value? (letter n) = some n :=
  value?_letter ⟨n, h⟩

theorem letter_ne_pad {n : Nat} (h : n < 64) : letter n ≠ '=' := by
  intro heq
  have hvalue := value?_letter_of_lt h
  rw [heq] at hvalue
  cases hvalue

theorem isWord_letter {n : Nat} (h : n < 64) : isWord (letter n) = true := by
  simp [isWord, value?_letter_of_lt h]

theorem ofNat_eq_of_mod {n : Nat} {b : UInt8} (h : n % 256 = b.toNat) : UInt8.ofNat n = b := by
  apply UInt8.toNat_inj.mp
  rw [UInt8.toNat_ofNat']
  exact h

variable (acc : Bytes)

/-! ## Groups -/

/-- Four letters are read as three bytes, whatever comes behind them. -/
theorem decodeAfter_four {p q r s : Nat} (hp : p < 64) (hq : q < 64) (hr : r < 64) (hs : s < 64)
    {a b c : UInt8}
    (h : ((p * 64 + q) * 64 + r) * 64 + s = (a.toNat * 256 + b.toNat) * 256 + c.toNat)
    (rest : List Char) :
    decodeAfter acc (letter p :: letter q :: letter r :: letter s :: rest) =
      decodeAfter (c :: b :: a :: acc) rest := by
  have hc : UInt8.ofNat (((p * 64 + q) * 64 + r) * 64 + s) = c :=
    ofNat_eq_of_mod (by have := c.toNat_lt; omega)
  have hb : UInt8.ofNat ((((p * 64 + q) * 64 + r) * 64 + s) / 256) = b :=
    ofNat_eq_of_mod (by have := c.toNat_lt; have := b.toNat_lt; omega)
  have ha : UInt8.ofNat ((((p * 64 + q) * 64 + r) * 64 + s) / 65536) = a :=
    ofNat_eq_of_mod (by have := c.toNat_lt; have := b.toNat_lt; have := a.toNat_lt; omega)
  rw [decodeAfter.eq_4]
  · simp only [value?_letter_of_lt, hp, hq, hr, hs, Option.bind_eq_bind, Option.bind_some, ha, hb,
      hc]
  · exact fun _ hpad => absurd hpad (letter_ne_pad hs)
  · exact fun hpad => absurd hpad (letter_ne_pad hs)

/-- Three letters and a padding are read as two bytes. -/
theorem decodeAfter_three {p q r : Nat} (hp : p < 64) (hq : q < 64) (hr : r < 64) {a b : UInt8}
    (h : (p * 64 + q) * 64 + r = (a.toNat * 256 + b.toNat) * 4) :
    decodeAfter acc [letter p, letter q, letter r, '='] = some (acc.reverse ++ [a, b]) := by
  have hfilled : ((p * 64 + q) * 64 + r) % 4 = 0 := by omega
  have hb : UInt8.ofNat (((p * 64 + q) * 64 + r) / 4) = b :=
    ofNat_eq_of_mod (by have := b.toNat_lt; omega)
  have ha : UInt8.ofNat (((p * 64 + q) * 64 + r) / 1024) = a :=
    ofNat_eq_of_mod (by have := b.toNat_lt; have := a.toNat_lt; omega)
  rw [decodeAfter.eq_3]
  · simp [value?_letter_of_lt, hp, hq, hr, hfilled, ha, hb]
  · exact fun hpad => absurd hpad (letter_ne_pad hr)

/-- Two letters and twice the padding are read as one byte. -/
theorem decodeAfter_two {p q : Nat} (hp : p < 64) (hq : q < 64) {a : UInt8}
    (h : p * 64 + q = a.toNat * 16) :
    decodeAfter acc [letter p, letter q, '=', '='] = some (acc.reverse ++ [a]) := by
  have hfilled : (p * 64 + q) % 16 = 0 := by omega
  have ha : UInt8.ofNat ((p * 64 + q) / 16) = a :=
    ofNat_eq_of_mod (by have := a.toNat_lt; omega)
  simp [decodeAfter, value?_letter_of_lt, hp, hq, hfilled, ha]

/-! ## Whole texts -/

theorem decodeAfter_encode (data : Bytes) :
    decodeAfter acc (encode data) = some (acc.reverse ++ data) := by
  fun_induction encode data generalizing acc with
  | case1 => simp [decodeAfter]
  | case2 a n =>
    have := a.toNat_lt
    exact decodeAfter_two acc (by omega) (by omega) (by omega)
  | case3 a b n =>
    have := a.toNat_lt
    have := b.toNat_lt
    exact decodeAfter_three acc (by omega) (by omega) (by omega) (by omega)
  | case4 a b c rest n ih =>
    have := a.toNat_lt
    have := b.toNat_lt
    have := c.toNat_lt
    rw [decodeAfter_four acc (by omega) (by omega) (by omega) (by omega)
      (show _ = (a.toNat * 256 + b.toNat) * 256 + c.toNat by omega), ih]
    simp

theorem decode?_encode (data : Bytes) : decode? (encode data) = some data :=
  decodeAfter_encode [] data

theorem all_isWord_encode (data : Bytes) : (encode data).all isWord = true := by
  have hpad : isWord '=' = true := rfl
  fun_induction encode data with
  | case1 => rfl
  | case2 a n =>
    have := a.toNat_lt
    have hp : n / 64 < 64 := by omega
    have hq : n % 64 < 64 := by omega
    simp [isWord_letter, hp, hq, hpad]
  | case3 a b n =>
    have := a.toNat_lt
    have := b.toNat_lt
    have hp : n / 4096 < 64 := by omega
    have hq : n / 64 % 64 < 64 := by omega
    have hr : n % 64 < 64 := by omega
    simp [isWord_letter, hp, hq, hr, hpad]
  | case4 a b c rest n ih =>
    have := a.toNat_lt
    have := b.toNat_lt
    have := c.toNat_lt
    have hp : n / 262144 < 64 := by omega
    have hq : n / 4096 % 64 < 64 := by omega
    have hr : n / 64 % 64 < 64 := by omega
    have hs : n % 64 < 64 := by omega
    simpa [isWord_letter, hp, hq, hr, hs] using ih

/-- A character of base 64 is a printed one of ASCII that no text has to spell otherwise. -/
theorem toNat_of_isWord {c : Char} (h : isWord c = true) :
    0x20 ≤ c.toNat ∧ c.toNat < 0x80 ∧ c ≠ '"' ∧ c ≠ '\\' := by
  have hle (d e : Char) : d ≤ e ↔ d.toNat ≤ e.toNat := UInt32.le_iff_toNat_le
  have hne : c ≠ '"' ∧ c ≠ '\\' := by
    constructor <;>
    · rintro rfl
      exact absurd h (by decide)
  refine ⟨?_, ?_, hne⟩ <;>
  · simp only [isWord, value?, hle, Bool.or_eq_true, decide_eq_true_eq] at h
    have ha : 'A'.toNat = 65 ∧ 'Z'.toNat = 90 ∧ 'a'.toNat = 97 ∧ 'z'.toNat = 122 := by decide
    have hd : '0'.toNat = 48 ∧ '9'.toNat = 57 := by decide
    have hsign : (c = '+' → c.toNat = 43) ∧ (c = '/' → c.toNat = 47) ∧ (c = '=' → c.toNat = 61) :=
      ⟨fun h => h ▸ rfl, fun h => h ▸ rfl, fun h => h ▸ rfl⟩
    repeat' split at h
    all_goals grind

end Wiretap.Text.Base64
