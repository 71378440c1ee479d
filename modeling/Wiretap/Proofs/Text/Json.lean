import Wiretap.Proofs.Text.Digits
import Wiretap.Proofs.Text.Utf8
import Wiretap.Text.Json

/-!
# Spellings of JSON values

A string of JSON may be spelled in many ways, for a character may stand for itself, or behind a
backslash by a letter or by its number. A whole number has one spelling, and around each value there
may be space.

Results:

* `string?_of_spells`: every spelling of an ASCII text is read as this text.
* `natural?_digits`: a number up to the limit is read from its digits.
-/

namespace Wiretap.Text.Json

variable {w : List Char}

/-! ## Space -/

/-- Nothing but space. -/
def Space (w : List Char) : Prop := ∀ c ∈ w, isSpace c = true

theorem dropSpace_append (h : Space w) (rest : List Char) :
    dropSpace (w ++ rest) = dropSpace rest := by
  unfold dropSpace
  exact List.dropWhile_append_of_pos h

/-- Space in front of something else is dropped. -/
theorem dropSpace_of_space (h : Space w) {c : Char} (hc : isSpace c = false) (rest : List Char) :
    dropSpace (w ++ c :: rest) = c :: rest := by
  rw [dropSpace_append h]
  simp [dropSpace, hc]

/-! ## Strings -/

/-- What the letters behind a backslash stand for. -/
def shortForms : List (Char × Char) :=
  [('"', '"'), ('\\', '\\'), ('/', '/'), ('b', '\x08'), ('f', '\x0c'), ('n', '\n'), ('r', '\r'),
    ('t', '\t')]

/-- The first text, between quotes, spells the second one, which is in ASCII. -/
inductive Spells : List Char → List Char → Prop where
  | nil : Spells [] []
  | plain {w t : List Char} {c : Char} (hprinted : 0x20 ≤ c.toNat) (hquote : c ≠ '"')
      (hslash : c ≠ '\\') (h : Spells w t) : Spells (c :: w) (c :: t)
  | short {w t : List Char} {e c : Char} (hshort : (e, c) ∈ shortForms) (h : Spells w t) :
      Spells ('\\' :: e :: w) (c :: t)
  /-- By its number, in four hexadecimal digits. -/
  | number {w t : List Char} {c x y : Char} (hascii : c.toNat < 0x80)
      (hx : hexValue? x = some (c.toNat / 16)) (hy : hexValue? y = some (c.toNat % 16))
      (h : Spells w t) :
      Spells ('\\' :: 'u' :: '0' :: '0' :: x :: y :: w) (c :: t)

theorem spells_self {t : List Char}
    (h : t.all (fun c => 0x20 ≤ c.toNat ∧ c ≠ '"' ∧ c ≠ '\\') = true) : Spells t t := by
  induction t with
  | nil => exact .nil
  | cons c t ih =>
    rw [List.all_cons, Bool.and_eq_true, decide_eq_true_iff] at h
    obtain ⟨⟨hprinted, hquote, hslash⟩, ht⟩ := h
    exact .plain hprinted hquote hslash (ih ht)

theorem escape?_of_mem {e c : Char} (h : (e, c) ∈ shortForms) : e ≠ 'u' ∧ escape? e = some c := by
  revert h
  simp only [shortForms, List.mem_cons, Prod.mk.injEq, List.not_mem_nil, or_false]
  rintro (⟨rfl, rfl⟩ | ⟨rfl, rfl⟩ | ⟨rfl, rfl⟩ | ⟨rfl, rfl⟩ | ⟨rfl, rfl⟩ | ⟨rfl, rfl⟩ | ⟨rfl, rfl⟩ |
    ⟨rfl, rfl⟩) <;> decide

/-- A character of ASCII is one byte. -/
theorem encoded_of_ascii {c : Char} (h : c.toNat < 0x80) : encoded c.toNat = [c] := by
  have hbyte : (UInt8.ofNat c.toNat).toNat = c.toNat :=
    UInt8.toNat_ofNat_of_lt' (Nat.lt_of_lt_of_le h (by decide))
  simp [encoded, Utf8.utf8EncodeChar_of_ascii, h, ofBytes, hbyte]

theorem string?_plain {c : Char} (hprinted : 0x20 ≤ c.toNat) (hquote : c ≠ '"') (hslash : c ≠ '\\')
    (acc rest : List Char) : string? acc (c :: rest) = string? (c :: acc) rest := by
  have hplain : ¬(c.toNat < 0x20 ∨ c = '\\') := not_or.mpr ⟨Nat.not_lt.mpr hprinted, hslash⟩
  rw [string?.eq_5 _ _ _ hquote (fun _ _ _ _ _ h => absurd h hslash)
    (fun _ _ h => absurd h hslash), if_neg hplain]

theorem string?_short {e c : Char} (h : (e, c) ∈ shortForms) (acc rest : List Char) :
    string? acc ('\\' :: e :: rest) = string? (c :: acc) rest := by
  obtain ⟨hu, hescape⟩ := escape?_of_mem h
  rw [string?.eq_4 _ _ _ (fun _ _ _ _ _ h => absurd h hu), hescape]

theorem string?_number {c x y : Char} (hascii : c.toNat < 0x80)
    (hx : hexValue? x = some (c.toNat / 16)) (hy : hexValue? y = some (c.toNat % 16))
    (acc rest : List Char) :
    string? acc ('\\' :: 'u' :: '0' :: '0' :: x :: y :: rest) = string? (c :: acc) rest := by
  have hzero : hexValue? '0' = some 0 := rfl
  have hhex : hex4? '0' '0' x y = some c.toNat := by
    simp only [hex4?, hx, hy, hzero, Option.bind_eq_bind, Option.bind_some, Option.some.injEq]
    omega
  have hlow : ¬(0xDC00 ≤ c.toNat ∧ c.toNat ≤ 0xDFFF) := by omega
  have hhigh : ¬(0xD800 ≤ c.toNat ∧ c.toNat ≤ 0xDBFF) := by omega
  rw [string?.eq_3, hhex]
  simp only [hlow, hhigh, if_false, encoded_of_ascii hascii]
  rfl

/-- Every spelling of a text is read as this text. -/
theorem string?_of_spells {t : List Char} (h : Spells w t) (acc rest : List Char) :
    string? acc (w ++ '"' :: rest) = some (toBytes (acc.reverse ++ t), rest) := by
  induction h generalizing acc with
  | nil => simp [string?]
  | plain hprinted hquote hslash _ ih =>
    rw [List.cons_append, string?_plain hprinted hquote hslash, ih]
    simp
  | short hshort _ ih =>
    rw [List.cons_append, List.cons_append, string?_short hshort, ih]
    simp
  | number hascii hx hy _ ih =>
    simp only [List.cons_append]
    rw [string?_number hascii hx hy, ih]
    simp

/-! ## Bytes of ASCII -/

theorem ofBytes_toBytes {t : List Char} (h : ∀ c ∈ t, c.toNat < 0x80) :
    ofBytes (toBytes t) = t := by
  have hbyte : ∀ c ∈ t, Char.ofNat (UInt8.ofNat c.toNat).toNat = c := by
    intro c hc
    rw [UInt8.toNat_ofNat_of_lt' (Nat.lt_of_lt_of_le (h c hc) (by decide)), Char.ofNat_toNat]
  rw [ofBytes, toBytes, List.map_map]
  exact (List.map_congr_left hbyte).trans (List.map_id' t)

theorem decode?_toBytes {t : List Char} (h : ∀ c ∈ t, c.toNat < 0x80) :
    Utf8.decode? (toBytes t) = some t := by
  rw [toBytes, ← Utf8.flatMap_of_ascii h]
  exact Utf8.decodeAfter_flatMap [] t

/-! ## Numbers -/

/-- What may follow a whole number. -/
def EndsNumber (rest : List Char) : Prop :=
  Stops (fun c => c.isDigit || c = '.' || c = 'e' || c = 'E') rest

theorem digitChar_toNat : ∀ d < 10, (Nat.digitChar d).toNat - '0'.toNat = d := by decide

theorem integer?_digits (n : Nat) {rest : List Char} (h : EndsNumber rest) :
    integer? (digits n ++ rest) = some (digits n, rest) := by
  have hstops : Stops Char.isDigit rest := fun c hc => by
    have := h c hc
    simp_all
  unfold integer?
  rw [takeWhile_append (fun _ => isDigit_of_mem_digits) hstops,
    dropWhile_append (fun _ => isDigit_of_mem_digits) hstops]
  split
  next hnone => exact absurd hnone (digits_ne_nil n)
  next hzero => rw [hzero]
  next ds hne hzero =>
    rw [eq_zero_of_digits hzero, digits_zero] at hzero
    exact absurd (List.cons.inj hzero).2.symm hne
  next => rfl

theorem natural?_digits {n limit : Nat} (hn : n ≤ limit) {rest : List Char} (h : EndsNumber rest) :
    natural? limit (digits n ++ rest) = some (n, rest) := by
  unfold natural?
  rw [integer?_digits n h]
  simp only [foldl_digits (fun c => c.toNat - '0'.toNat) digitChar_toNat]
  split
  next => exact absurd (h _ rfl) (by decide)
  next => exact absurd (h _ rfl) (by decide)
  next => exact absurd (h _ rfl) (by decide)
  next => rw [if_pos hn]

end Wiretap.Text.Json
