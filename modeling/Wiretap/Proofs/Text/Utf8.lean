import Mathlib.Tactic.SplitIfs
import Wiretap.Text.Utf8

/-!
# Lossy reading of UTF-8

What a lossy reader makes of any bytes, said without the reader. It takes characters off the front
as long as the bytes begin with one. Where they do not, one replacement character stands for a
maximal subpart: the longest front that begins some character, or a single byte if there is none.

Results:

* `wellFormed_iff`: which bytes the table of leading bytes lets through, by their number.
* `utf8EncodeChar_eq_cons_iff`: these are the bytes of the characters.
* `next_eq_some_iff`, `maximalSubpart_of_next`: what is taken off the front of some bytes.
* `lossily_iff`: the lossy reading of all bytes.
* `lossy_encode`, `decode?_encode`: the bytes of a text are read as the text.
-/

namespace Wiretap.Text.Utf8

/-! ## The table of leading bytes -/

theorem lead?_eq_some_iff {b : UInt8} {l : Lead} : lead? b = some l ↔
    b.toNat < 0x80 ∧ l = ⟨0, 0x80, 0xBF, b.toNat⟩ ∨
    (0xC2 ≤ b.toNat ∧ b.toNat < 0xE0) ∧ l = ⟨1, 0x80, 0xBF, b.toNat - 0xC0⟩ ∨
    (0xE0 ≤ b.toNat ∧ b.toNat < 0xF0) ∧ l = ⟨2, if b.toNat = 0xE0 then 0xA0 else 0x80,
      if b.toNat = 0xED then 0x9F else 0xBF, b.toNat - 0xE0⟩ ∨
    (0xF0 ≤ b.toNat ∧ b.toNat < 0xF5) ∧ l = ⟨3, if b.toNat = 0xF0 then 0x90 else 0x80,
      if b.toNat = 0xF4 then 0x8F else 0xBF, b.toNat - 0xF0⟩ := by
  unfold lead?
  simp only [UInt8.lt_iff_toNat_lt, ← UInt8.toNat_inj, UInt8.reduceToNat]
  grind

/-- These bytes may follow a leading byte: so many, and the first of them from a range of
its own. -/
inductive Follows : (count : Nat) → (low high : UInt8) → Bytes → Prop where
  | none {low high : UInt8} : Follows 0 low high []
  | more {n : Nat} {low high b : UInt8} {ts : Bytes} (hb : low ≤ b ∧ b ≤ high)
      (hts : Follows n 0x80 0xBF ts) : Follows (n + 1) low high (b :: ts)

/-- The number in a leading byte and those that follow it. -/
def code (value : Nat) (ts : Bytes) : Nat := ts.foldl (fun v t => v * 64 + (t.toNat - 0x80)) value

@[simp] theorem code_nil (value : Nat) : code value [] = value := by
  simp only [code, List.foldl_nil]

@[simp] theorem code_cons (value : Nat) (t : UInt8) (ts : Bytes) :
    code value (t :: ts) = code (value * 64 + (t.toNat - 0x80)) ts := by
  simp only [code, List.foldl_cons]

/-- The table of leading bytes lets the bytes through, as the character of this number. -/
def WellFormed (b : UInt8) (ts : Bytes) (v : Nat) : Prop :=
  ∃ l, lead? b = some l ∧ Follows l.tails l.low l.high ts ∧ code l.value ts = v

variable {n value v : Nat} {low high b : UInt8} {ts rest rest' bytes p q : Bytes} {c : Char}
  {cs : List Char}

theorem follows_zero : Follows 0 low high ts ↔ ts = [] := by
  constructor
  · rintro ⟨⟩
    rfl
  · rintro rfl
    exact .none

theorem follows_cons : Follows (n + 1) low high (b :: ts) ↔
    (low ≤ b ∧ b ≤ high) ∧ Follows n 0x80 0xBF ts := by
  constructor
  · rintro (_ | ⟨hb, hts⟩)
    exact ⟨hb, hts⟩
  · rintro ⟨hb, hts⟩
    exact .more hb hts

theorem follows_succ : Follows (n + 1) low high ts ↔
    ∃ t ts', ts = t :: ts' ∧ (low ≤ t ∧ t ≤ high) ∧ Follows n 0x80 0xBF ts' := by
  constructor
  · rintro (_ | ⟨ht, hts⟩)
    exact ⟨_, _, rfl, ht, hts⟩
  · rintro ⟨t, ts', rfl, ht, hts⟩
    exact .more ht hts

theorem tail_iff {t : UInt8} : (0x80 ≤ t ∧ t ≤ 0xBF) ↔ 0x80 ≤ t.toNat ∧ t.toNat ≤ 0xBF := by
  simp only [UInt8.le_iff_toNat_le, UInt8.reduceToNat]

/-- A leading byte at the end of its range narrows the range of the byte behind it. -/
theorem narrow_iff {P Q : Prop} [Decidable P] [Decidable Q] {x y t : UInt8} (hx : 0x80 ≤ x)
    (hy : y ≤ 0xBF) : ((if P then x else 0x80) ≤ t ∧ t ≤ if Q then y else 0xBF) ↔
      0x80 ≤ t.toNat ∧ t.toNat ≤ 0xBF ∧ (P → x.toNat ≤ t.toNat) ∧ (Q → t.toNat ≤ y.toNat) := by
  simp only [UInt8.le_iff_toNat_le, UInt8.reduceToNat] at *
  by_cases hP : P <;> by_cases hQ : Q <;> simp only [hP, hQ, if_true, if_false] <;> simp <;> omega

theorem wellFormed_iff : WellFormed b ts v ↔
    b.toNat < 0x80 ∧ ts = [] ∧ v = b.toNat ∨
    (∃ t, ts = [t] ∧ 0xC2 ≤ b.toNat ∧ b.toNat < 0xE0 ∧ 0x80 ≤ t.toNat ∧ t.toNat ≤ 0xBF ∧
      v = (b.toNat - 0xC0) * 64 + (t.toNat - 0x80)) ∨
    (∃ t u, ts = [t, u] ∧ 0xE0 ≤ b.toNat ∧ b.toNat < 0xF0 ∧
      (0x80 ≤ t.toNat ∧ t.toNat ≤ 0xBF ∧ (b.toNat = 0xE0 → 0xA0 ≤ t.toNat) ∧
        (b.toNat = 0xED → t.toNat ≤ 0x9F)) ∧ 0x80 ≤ u.toNat ∧ u.toNat ≤ 0xBF ∧
      v = ((b.toNat - 0xE0) * 64 + (t.toNat - 0x80)) * 64 + (u.toNat - 0x80)) ∨
    (∃ t u w, ts = [t, u, w] ∧ 0xF0 ≤ b.toNat ∧ b.toNat < 0xF5 ∧
      (0x80 ≤ t.toNat ∧ t.toNat ≤ 0xBF ∧ (b.toNat = 0xF0 → 0x90 ≤ t.toNat) ∧
        (b.toNat = 0xF4 → t.toNat ≤ 0x8F)) ∧ (0x80 ≤ u.toNat ∧ u.toNat ≤ 0xBF) ∧
      0x80 ≤ w.toNat ∧ w.toNat ≤ 0xBF ∧
      v = (((b.toNat - 0xF0) * 64 + (t.toNat - 0x80)) * 64 + (u.toNat - 0x80)) * 64 +
        (w.toNat - 0x80)) := by
  have hthree {P Q : Prop} [Decidable P] [Decidable Q] {t : UInt8} :=
    narrow_iff (P := P) (Q := Q) (x := 0xA0) (y := 0x9F) (t := t) (by decide) (by decide)
  have hfour {P Q : Prop} [Decidable P] [Decidable Q] {t : UInt8} :=
    narrow_iff (P := P) (Q := Q) (x := 0x90) (y := 0x8F) (t := t) (by decide) (by decide)
  unfold WellFormed
  simp only [lead?_eq_some_iff]
  constructor
  · rintro ⟨l, ⟨hb, rfl⟩ | ⟨hb, rfl⟩ | ⟨hb, rfl⟩ | ⟨hb, rfl⟩, hts, rfl⟩
    · cases follows_zero.mp hts
      exact .inl ⟨hb, rfl, code_nil _⟩
    · simp only [follows_succ, follows_zero, tail_iff] at hts
      obtain ⟨t, _, rfl, ht, rfl⟩ := hts
      exact .inr (.inl ⟨t, rfl, hb.1, hb.2, ht.1, ht.2, by simp only [code_cons, code_nil]⟩)
    · simp only [follows_succ, follows_zero, tail_iff, hthree, UInt8.reduceToNat] at hts
      obtain ⟨t, _, rfl, ht, u, _, rfl, hu, rfl⟩ := hts
      refine .inr (.inr (.inl ⟨t, u, rfl, hb.1, hb.2, ht, hu.1, hu.2, ?_⟩))
      simp only [code_cons, code_nil]
    · simp only [follows_succ, follows_zero, tail_iff, hfour, UInt8.reduceToNat] at hts
      obtain ⟨t, _, rfl, ht, u, _, rfl, hu, w, _, rfl, hw, rfl⟩ := hts
      refine .inr (.inr (.inr ⟨t, u, w, rfl, hb.1, hb.2, ht, hu, hw.1, hw.2, ?_⟩))
      simp only [code_cons, code_nil]
  · rintro (⟨hb, rfl, hv⟩ | ⟨t, rfl, hb, hb', ht, ht', hv⟩ | ⟨t, u, rfl, hb, hb', ht, hu, hu', hv⟩ |
      ⟨t, u, w, rfl, hb, hb', ht, hu, hw, hw', hv⟩)
    · exact ⟨_, .inl ⟨hb, rfl⟩, .none, (code_nil _).trans hv.symm⟩
    · refine ⟨_, .inr (.inl ⟨⟨hb, hb'⟩, rfl⟩), ?_, by simp only [code_cons, code_nil, hv]⟩
      simp only [follows_cons, follows_zero, tail_iff, and_true]
      exact ⟨ht, ht'⟩
    · refine ⟨_, .inr (.inr (.inl ⟨⟨hb, hb'⟩, rfl⟩)), ?_, by simp only [code_cons, code_nil, hv]⟩
      simp only [follows_cons, follows_zero, tail_iff, hthree, UInt8.reduceToNat, and_true]
      exact ⟨ht, hu, hu'⟩
    · refine ⟨_, .inr (.inr (.inr ⟨⟨hb, hb'⟩, rfl⟩)), ?_, by simp only [code_cons, code_nil, hv]⟩
      simp only [follows_cons, follows_zero, tail_iff, hfour, UInt8.reduceToNat, and_true]
      exact ⟨ht, hu, hw, hw'⟩

/-! ## The bytes of the characters -/

theorem utf8EncodeChar_eq (c : Char) : String.utf8EncodeChar c =
    if c.toNat ≤ 0x7F then [UInt8.ofNat c.toNat]
    else if c.toNat ≤ 0x7FF then
      [UInt8.ofNat (c.toNat / 64 % 32 + 0xC0), UInt8.ofNat (c.toNat % 64 + 0x80)]
    else if c.toNat ≤ 0xFFFF then
      [UInt8.ofNat (c.toNat / 4096 % 16 + 0xE0), UInt8.ofNat (c.toNat / 64 % 64 + 0x80),
        UInt8.ofNat (c.toNat % 64 + 0x80)]
    else
      [UInt8.ofNat (c.toNat / 262144 % 8 + 0xF0), UInt8.ofNat (c.toNat / 4096 % 64 + 0x80),
        UInt8.ofNat (c.toNat / 64 % 64 + 0x80), UInt8.ofNat (c.toNat % 64 + 0x80)] := rfl

theorem toNat_range (c : Char) : c.toNat < 0xD800 ∨ 0xDFFF < c.toNat ∧ c.toNat < 0x110000 := c.valid

theorem toNat_ofNat_of_isValid (h : v.isValidChar) : (Char.ofNat v).toNat = v := by
  rw [Char.ofNat, dif_pos h]
  rfl

theorem WellFormed.isValidChar (h : WellFormed b ts v) : v.isValidChar := by
  show v < 0xD800 ∨ 0xDFFF < v ∧ v < 0x110000
  rcases wellFormed_iff.mp h with h | ⟨t, h⟩ | ⟨t, u, h⟩ | ⟨t, u, w, h⟩ <;> omega

theorem wellFormed_of_encode (h : String.utf8EncodeChar c = b :: ts) : WellFormed b ts c.toNat := by
  have hrange := toNat_range c
  have hbyte : ∀ n < 256, (UInt8.ofNat n).toNat = n := fun n hn => UInt8.toNat_ofNat_of_lt' hn
  rw [utf8EncodeChar_eq] at h
  generalize c.toNat = v at *
  rw [wellFormed_iff]
  split_ifs at h with h1 h2 h3
  · obtain ⟨rfl, rfl⟩ := List.cons.inj h
    have hb := hbyte v (by omega)
    exact .inl ⟨by omega, rfl, by omega⟩
  · obtain ⟨rfl, rfl⟩ := List.cons.inj h
    have hb := hbyte (v / 64 % 32 + 0xC0) (by omega)
    have ht := hbyte (v % 64 + 0x80) (by omega)
    exact .inr (.inl ⟨_, rfl, by omega⟩)
  · obtain ⟨rfl, rfl⟩ := List.cons.inj h
    have hb := hbyte (v / 4096 % 16 + 0xE0) (by omega)
    have ht := hbyte (v / 64 % 64 + 0x80) (by omega)
    have hu := hbyte (v % 64 + 0x80) (by omega)
    exact .inr (.inr (.inl ⟨_, _, rfl, by omega⟩))
  · obtain ⟨rfl, rfl⟩ := List.cons.inj h
    have hb := hbyte (v / 262144 % 8 + 0xF0) (by omega)
    have ht := hbyte (v / 4096 % 64 + 0x80) (by omega)
    have hu := hbyte (v / 64 % 64 + 0x80) (by omega)
    have hw := hbyte (v % 64 + 0x80) (by omega)
    exact .inr (.inr (.inr ⟨_, _, _, rfl, by omega⟩))

theorem encode_of_wellFormed (h : WellFormed b ts c.toNat) : String.utf8EncodeChar c = b :: ts := by
  have hbyte {n : Nat} {t : UInt8} (ht : n = t.toNat) : UInt8.ofNat n = t := by
    rw [ht, UInt8.ofNat_toNat]
  rw [utf8EncodeChar_eq]
  generalize c.toNat = v at *
  rcases wellFormed_iff.mp h with ⟨hb, rfl, hv⟩ | ⟨t, rfl, h⟩ | ⟨t, u, rfl, h⟩ | ⟨t, u, w, rfl, h⟩
  · rw [if_pos (by omega), hbyte hv]
  · rw [if_neg (by omega), if_pos (by omega), hbyte (t := b) (by omega), hbyte (t := t) (by omega)]
  · rw [if_neg (by omega), if_neg (by omega), if_pos (by omega), hbyte (t := b) (by omega),
      hbyte (t := t) (by omega), hbyte (t := u) (by omega)]
  · rw [if_neg (by omega), if_neg (by omega), if_neg (by omega), hbyte (t := b) (by omega),
      hbyte (t := t) (by omega), hbyte (t := u) (by omega), hbyte (t := w) (by omega)]

/-- What the table of leading bytes lets through are the bytes of the characters. -/
theorem utf8EncodeChar_eq_cons_iff : String.utf8EncodeChar c = b :: ts ↔ WellFormed b ts c.toNat :=
  ⟨wellFormed_of_encode, encode_of_wellFormed⟩

theorem WellFormed.encode (h : WellFormed b ts v) :
    String.utf8EncodeChar (Char.ofNat v) = b :: ts := by
  rw [utf8EncodeChar_eq_cons_iff, toNat_ofNat_of_isValid h.isValidChar]
  exact h

theorem zero_mem_utf8EncodeChar_iff : 0 ∈ String.utf8EncodeChar c ↔ c = '\x00' := by
  constructor
  · intro h
    obtain ⟨b, ts, hbytes⟩ := List.exists_cons_of_ne_nil (String.utf8EncodeChar_ne_nil (c := c))
    rw [hbytes] at h
    -- only a character below 0x80 has a byte below 0x80, which is its number
    have hzero : c.toNat = 0 := by
      have hform := wellFormed_iff.mp (wellFormed_of_encode hbytes)
      rcases hform with ⟨hb, rfl, hv⟩ | ⟨t, rfl, ht⟩ | ⟨t, u, rfl, ht⟩ | ⟨t, u, w, rfl, ht⟩
      all_goals
        simp only [List.mem_cons, List.not_mem_nil, or_false, ← UInt8.toNat_inj,
          UInt8.toNat_zero] at h
        omega
    exact Char.toNat_inj.mp hzero
  · rintro rfl
    decide

/-! ## One reading -/

theorem tails_eq_some_iff : tails n low high value rest = (some v, rest') ↔
    ∃ ts, rest = ts ++ rest' ∧ Follows n low high ts ∧ code value ts = v := by
  induction n generalizing low high value rest with
  | zero =>
    simp only [tails, Prod.mk.injEq, Option.some.injEq, follows_zero]
    constructor
    · rintro ⟨rfl, rfl⟩
      exact ⟨[], rfl, rfl, code_nil _⟩
    · rintro ⟨_, rfl, rfl, hv⟩
      exact ⟨by rw [← hv, code_nil], rfl⟩
  | succ n ih =>
    cases rest with
    | nil =>
      simp only [tails, Prod.mk.injEq, reduceCtorEq, false_and, false_iff, not_exists, not_and]
      intro ts hts hfollows
      obtain ⟨rfl, -⟩ := List.append_eq_nil_iff.mp hts.symm
      cases hfollows
    | cons b rest =>
      simp only [tails, Bool.and_eq_true, decide_eq_true_eq]
      split
      next hb =>
        rw [ih]
        constructor
        · rintro ⟨ts, rfl, hts, hv⟩
          exact ⟨b :: ts, rfl, .more hb hts, by rw [code_cons, hv]⟩
        · rintro ⟨ts, hrest, hts, hv⟩
          obtain ⟨t, ts', rfl, -, hts'⟩ := follows_succ.mp hts
          obtain ⟨rfl, rfl⟩ := List.cons.inj hrest
          exact ⟨ts', rfl, hts', by rw [← hv, code_cons]⟩
      next hb =>
        simp only [Prod.mk.injEq, reduceCtorEq, false_and, false_iff, not_exists, not_and]
        intro ts hrest hts
        obtain ⟨t, ts', rfl, ht, -⟩ := follows_succ.mp hts
        obtain ⟨rfl, rfl⟩ := List.cons.inj hrest
        exact absurd ht hb

/-- The bytes of a character are taken off the front, and nothing else is taken for one. -/
theorem next_eq_some_iff : next b rest = (some c, rest') ↔
    b :: rest = String.utf8EncodeChar c ++ rest' := by
  constructor
  · intro h
    unfold next at h
    split at h
    · simp at h
    next l hl =>
      split at h
      next v rest'' htails =>
        simp only [Prod.mk.injEq, Option.some.injEq] at h
        obtain ⟨rfl, rfl⟩ := h
        obtain ⟨ts, rfl, hts, hv⟩ := tails_eq_some_iff.mp htails
        rw [WellFormed.encode ⟨l, hl, hts, hv⟩]
        rfl
      · simp at h
  · intro h
    obtain ⟨b', ts, hbytes⟩ := List.exists_cons_of_ne_nil (String.utf8EncodeChar_ne_nil (c := c))
    rw [hbytes] at h
    obtain ⟨rfl, rfl⟩ : b = b' ∧ rest = ts ++ rest' := List.cons.inj h
    obtain ⟨l, hl, hts, hv⟩ := wellFormed_of_encode hbytes
    simp only [next, hl, tails_eq_some_iff.mpr ⟨ts, rfl, hts, hv⟩, Char.ofNat_toNat]

/-- These bytes can be completed to what may follow a leading byte. -/
def Fits (n : Nat) (low high : UInt8) (p : Bytes) : Prop := ∃ ts, Follows n low high (p ++ ts)

theorem fits_nil (h : low ≤ high) : Fits n low high [] := by
  induction n generalizing low high with
  | zero => exact ⟨[], .none⟩
  | succ n ih =>
    obtain ⟨ts, hts⟩ : Fits n 0x80 0xBF [] := ih (by decide)
    exact ⟨low :: ts, .more ⟨UInt8.le_refl low, h⟩ hts⟩

theorem fits_cons : Fits (n + 1) low high (b :: p) ↔ (low ≤ b ∧ b ≤ high) ∧ Fits n 0x80 0xBF p := by
  simp only [Fits, List.cons_append, follows_cons, exists_and_left]

theorem lead?_low_le_high {l : Lead} (h : lead? b = some l) : l.low ≤ l.high := by
  rcases lead?_eq_some_iff.mp h with ⟨-, rfl⟩ | ⟨-, rfl⟩ | ⟨hb, rfl⟩ | ⟨hb, rfl⟩
  · show (0x80 : UInt8) ≤ 0xBF
    decide
  · show (0x80 : UInt8) ≤ 0xBF
    decide
  · show (if b.toNat = 0xE0 then (0xA0 : UInt8) else 0x80) ≤ if b.toNat = 0xED then 0x9F else 0xBF
    grind
  · show (if b.toNat = 0xF0 then (0x90 : UInt8) else 0x80) ≤ if b.toNat = 0xF4 then 0x8F else 0xBF
    grind

/-- A front that is longer than `k` bytes begins with the first byte. -/
theorem eq_cons_of_prefix {k : Nat} (hq : q <+: b :: rest) (hlen : k < q.length) :
    ∃ q', q = b :: q' ∧ q' <+: rest ∧ k ≤ q'.length := by
  cases q with
  | nil => simp at hlen
  | cons b' q' =>
    obtain ⟨rfl, hq'⟩ := List.cons_prefix_cons.mp hq
    exact ⟨q', rfl, hq', Nat.le_of_lt_succ hlen⟩

theorem fits_of_tails (hlow : low ≤ high) (h : tails n low high value rest = (none, rest')) :
    ∃ p, rest = p ++ rest' ∧ Fits n low high p ∧
      ∀ q, q <+: rest → p.length < q.length → ¬ Fits n low high q := by
  induction n generalizing low high value rest with
  | zero => simp [tails] at h
  | succ n ih =>
    cases rest with
    | nil =>
      simp only [tails, Prod.mk.injEq, true_and] at h
      subst h
      refine ⟨[], rfl, fits_nil hlow, ?_⟩
      intro q hq hlen
      rw [List.prefix_nil.mp hq] at hlen
      simp at hlen
    | cons b rest =>
      simp only [tails, Bool.and_eq_true, decide_eq_true_eq] at h
      split at h
      next hb =>
        obtain ⟨p, rfl, hp, hmax⟩ := ih (by decide) h
        refine ⟨b :: p, rfl, fits_cons.mpr ⟨hb, hp⟩, ?_⟩
        intro q hq hlen
        obtain ⟨q', rfl, hq', hlen'⟩ := eq_cons_of_prefix hq hlen
        rw [fits_cons]
        exact fun hfits => hmax q' hq' hlen' hfits.2
      next hb =>
        simp only [Prod.mk.injEq, true_and] at h
        subst h
        refine ⟨[], rfl, fits_nil hlow, ?_⟩
        intro q hq hlen
        obtain ⟨q', rfl, -, -⟩ := eq_cons_of_prefix hq hlen
        rw [fits_cons]
        exact fun hfits => hb hfits.1

/-- These bytes are the front of a character's. -/
def Begins (p : Bytes) : Prop := ∃ c, p <+: String.utf8EncodeChar c

theorem begins_cons : Begins (b :: p) ↔ ∃ l, lead? b = some l ∧ Fits l.tails l.low l.high p := by
  constructor
  · rintro ⟨c, ts, hts⟩
    obtain ⟨l, hl, hfollows, -⟩ := wellFormed_of_encode hts.symm
    exact ⟨l, hl, ts, hfollows⟩
  · rintro ⟨l, hl, ts, hts⟩
    exact ⟨_, ts, (WellFormed.encode ⟨l, hl, hts, rfl⟩).symm⟩

/-- A maximal subpart at the front of bytes: the longest front that begins a character, or a single
byte where not even that does. -/
structure MaximalSubpart (p bytes : Bytes) : Prop where
  front : p <+: bytes
  ne_nil : p ≠ []
  begins : Begins p ∨ p.length = 1
  maximal : ∀ q, q <+: bytes → p.length < q.length → ¬ Begins q

theorem MaximalSubpart.length_le {p p' : Bytes} (h : MaximalSubpart p bytes)
    (h' : MaximalSubpart p' bytes) : p'.length ≤ p.length := by
  have hpos := List.length_pos_iff.mpr h.ne_nil
  rcases Nat.lt_or_ge p.length p'.length with hlt | hge
  · rcases h'.begins with hbegins | hone
    · exact absurd hbegins (h.maximal p' h'.front hlt)
    · omega
  · exact hge

theorem MaximalSubpart.unique {p p' : Bytes} (h : MaximalSubpart p bytes)
    (h' : MaximalSubpart p' bytes) : p = p' :=
  List.prefix_of_prefix_length_le h.front h'.front (h'.length_le h) |>.eq_of_length
    (Nat.le_antisymm (h'.length_le h) (h.length_le h'))

/-- Where no character is taken, a maximal subpart is. -/
theorem maximalSubpart_of_next (h : next b rest = (none, rest')) :
    ∃ p, b :: rest = p ++ rest' ∧ MaximalSubpart p (b :: rest) := by
  unfold next at h
  split at h
  next hl =>
    obtain ⟨-, rfl⟩ := Prod.mk.inj h
    refine ⟨[b], rfl, ⟨rest, rfl⟩, by simp, .inr rfl, ?_⟩
    intro q hq hlen
    obtain ⟨q', rfl, -, -⟩ := eq_cons_of_prefix hq hlen
    rw [begins_cons, hl]
    simp
  next l hl =>
    split at h
    · simp at h
    next rest'' htails =>
      obtain ⟨-, rfl⟩ := Prod.mk.inj h
      obtain ⟨p, rfl, hp, hmax⟩ := fits_of_tails (lead?_low_le_high hl) htails
      refine ⟨b :: p, rfl, ⟨_, rfl⟩, by simp, .inl (begins_cons.mpr ⟨l, hl, hp⟩), ?_⟩
      intro q hq hlen
      obtain ⟨q', rfl, hq', hlen'⟩ := eq_cons_of_prefix hq hlen
      rw [begins_cons, hl]
      rintro ⟨l', hl', hfits⟩
      cases hl'
      exact hmax q' hq' hlen' hfits

/-! ## The lossy reading -/

/-- The lossy reading of bytes: a character for its bytes, and the replacement character for a
maximal subpart where no character stands. -/
inductive Lossily : Bytes → List Char → Prop where
  | nil : Lossily [] []
  | char {rest : Bytes} {cs : List Char} (c : Char) (h : Lossily rest cs) :
      Lossily (String.utf8EncodeChar c ++ rest) (c :: cs)
  | broken {p rest : Bytes} {cs : List Char}
      (hnone : ∀ c, ¬ String.utf8EncodeChar c <+: p ++ rest)
      (hp : MaximalSubpart p (p ++ rest)) (h : Lossily rest cs) :
      Lossily (p ++ rest) (replacement :: cs)

theorem lossyAfter_append (before after : List Char) (bytes : Bytes) :
    lossyAfter (before ++ after) bytes = after.reverse ++ lossyAfter before bytes := by
  fun_induction lossyAfter before bytes with
  | case1 before => simp only [lossyAfter, List.reverse_append]
  | case2 before b rest ih => rw [lossyAfter, ← List.cons_append, ih]

theorem lossyAfter_cons (b : UInt8) (rest : Bytes) : lossyAfter [] (b :: rest) =
    (next b rest).1.getD replacement :: lossyAfter [] (next b rest).2 := by
  rw [lossyAfter]
  exact lossyAfter_append [] [(next b rest).1.getD replacement] (next b rest).2

theorem lossily_lossyAfter (bytes : Bytes) : Lossily bytes (lossyAfter [] bytes) := by
  induction hlen : bytes.length using Nat.strongRecOn generalizing bytes with
  | _ n ih =>
    subst hlen
    cases bytes with
    | nil =>
      rw [lossyAfter]
      exact .nil
    | cons b rest =>
      have hrest := ih (next b rest).2.length (Nat.lt_succ_of_le (next_shorter b rest)) _ rfl
      rw [lossyAfter_cons]
      generalize hnext : next b rest = r at hrest
      obtain ⟨_ | c, rest'⟩ := r
      · obtain ⟨p, hbytes, hp⟩ := maximalSubpart_of_next hnext
        rw [hbytes] at hp ⊢
        refine .broken ?_ hp hrest
        rw [← hbytes]
        rintro c ⟨rest'', hc⟩
        simp [next_eq_some_iff.mpr hc.symm] at hnext
      · rw [next_eq_some_iff.mp hnext]
        exact .char c hrest

theorem Lossily.eq_lossyAfter (h : Lossily bytes cs) : lossyAfter [] bytes = cs := by
  induction h with
  | nil => rw [lossyAfter, List.reverse_nil]
  | @char rest cs c h ih =>
    obtain ⟨b, ts, hbytes⟩ := List.exists_cons_of_ne_nil (String.utf8EncodeChar_ne_nil (c := c))
    have hnext : next b (ts ++ rest) = (some c, rest) := by
      rw [next_eq_some_iff, hbytes, List.cons_append]
    rw [hbytes, List.cons_append, lossyAfter_cons, hnext, ih]
    rfl
  | @broken p rest cs hnone hp h ih =>
    obtain ⟨b, ts, rfl⟩ := List.exists_cons_of_ne_nil hp.ne_nil
    rw [List.cons_append, lossyAfter_cons]
    generalize hnext : next b (ts ++ rest) = r
    obtain ⟨_ | c, rest'⟩ := r
    · obtain ⟨p', hbytes, hp'⟩ := maximalSubpart_of_next hnext
      cases hp.unique hp'
      obtain rfl : rest = rest' := by simpa using hbytes
      rw [← ih]
      rfl
    · exact absurd ⟨rest', (next_eq_some_iff.mp hnext).symm⟩ (hnone c)

/-- **Bytes have one lossy reading, and the lossy reader makes it.** -/
theorem lossily_iff : Lossily bytes cs ↔ (lossy bytes).toList = cs := by
  rw [lossy, String.toList_ofList]
  constructor
  · exact Lossily.eq_lossyAfter
  · rintro rfl
    exact lossily_lossyAfter bytes

theorem lossily_lossy (bytes : Bytes) : Lossily bytes (lossy bytes).toList := lossily_iff.mpr rfl

theorem Lossily.nul_notMem (h : Lossily bytes cs) (hzero : 0 ∉ bytes) : '\x00' ∉ cs := by
  induction h with
  | nil => exact List.not_mem_nil
  | char c h ih =>
    rw [List.mem_append, zero_mem_utf8EncodeChar_iff, not_or] at hzero
    rw [List.mem_cons, not_or]
    exact ⟨fun hc => hzero.1 hc.symm, ih hzero.2⟩
  | broken hnone hp h ih =>
    rw [List.mem_append, not_or] at hzero
    rw [List.mem_cons, not_or]
    exact ⟨by decide, ih hzero.2⟩

/-! ## The bytes of a text -/

/-- A byte array is read off in one pass. -/
theorem loop_eq_append (bytes : ByteArray) (i : Nat) (r : Bytes) :
    ByteArray.toList.loop bytes i r = r.reverse ++ bytes.data.toList.drop i := by
  fun_induction ByteArray.toList.loop bytes i r with
  | case1 i r hi ih =>
    have hget : bytes.get! i = bytes.data.toList[i] := by simp [ByteArray.get!, hi]
    rw [ih, hget, List.drop_eq_getElem_cons hi]
    simp
  | case2 i r hi => rw [List.drop_of_length_le (Nat.le_of_not_lt hi), List.append_nil]

theorem encode_eq_flatMap (s : String) : encode s = s.toList.flatMap String.utf8EncodeChar := by
  rw [encode, ByteArray.toList, loop_eq_append, String.toUTF8_eq_toByteArray,
    ← String.utf8Encode_toList, List.utf8Encode, List.toList_data_toByteArray]
  rfl

theorem lossily_encode (s : String) : Lossily (encode s) s.toList := by
  rw [encode_eq_flatMap]
  induction s.toList with
  | nil => exact .nil
  | cons c cs ih => exact .char c ih

/-- The bytes of a text are read as the text. -/
theorem lossy_encode (s : String) : lossy (encode s) = s :=
  String.toList_inj.mp (lossily_iff.mp (lossily_encode s))

theorem zero_notMem_encode {s : String} (h : '\x00' ∉ s.toList) : 0 ∉ encode s := by
  rw [encode_eq_flatMap, List.mem_flatMap]
  rintro ⟨c, hc, hzero⟩
  rw [zero_mem_utf8EncodeChar_iff.mp hzero] at hc
  exact h hc

/-! ## Strict reading -/

theorem decodeAfter_char (before : List Char) (c : Char) (rest : Bytes) :
    decodeAfter before (String.utf8EncodeChar c ++ rest) = decodeAfter (c :: before) rest := by
  obtain ⟨b, ts, hbytes⟩ := List.exists_cons_of_ne_nil (String.utf8EncodeChar_ne_nil (c := c))
  have hnext : next b (ts ++ rest) = (some c, rest) := by
    rw [next_eq_some_iff, hbytes, List.cons_append]
  rw [hbytes, List.cons_append, decodeAfter.eq_2]
  split
  next c' rest' hsome =>
    cases hnext.symm.trans hsome
    rfl
  next hnone => cases hnext.symm.trans hnone

theorem decodeAfter_flatMap (before cs : List Char) :
    decodeAfter before (cs.flatMap String.utf8EncodeChar) = some (before.reverse ++ cs) := by
  induction cs generalizing before with
  | nil => simp [decodeAfter]
  | cons c cs ih =>
    rw [List.flatMap_cons, decodeAfter_char, ih, List.reverse_cons, List.append_assoc]
    rfl

/-- The bytes of a text are text, and read as this text. -/
theorem decode?_encode (s : String) : decode? (encode s) = some s.toList := by
  rw [encode_eq_flatMap]
  exact decodeAfter_flatMap [] s.toList

theorem encode_inj {s s' : String} : encode s = encode s' ↔ s = s' := by
  constructor
  · intro h
    have hdecode := decode?_encode s
    rw [h, decode?_encode s'] at hdecode
    exact (String.toList_inj.mp (Option.some.inj hdecode)).symm
  · rintro rfl
    rfl

/-- A character of ASCII is one byte. -/
theorem utf8EncodeChar_of_ascii (h : c.toNat < 0x80) :
    String.utf8EncodeChar c = [UInt8.ofNat c.toNat] := by
  rw [utf8EncodeChar_eq, if_pos (Nat.le_of_lt_succ h)]

theorem flatMap_of_ascii (h : ∀ c ∈ cs, c.toNat < 0x80) :
    cs.flatMap String.utf8EncodeChar = cs.map fun c => UInt8.ofNat c.toNat := by
  induction cs with
  | nil => rfl
  | cons c cs ih =>
    rw [List.forall_mem_cons] at h
    rw [List.flatMap_cons, utf8EncodeChar_of_ascii h.1, ih h.2]
    rfl

end Wiretap.Text.Utf8
