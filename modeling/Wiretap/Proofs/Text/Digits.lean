/-!
# Decimal digits in front of other text

A reader of numbers takes digits as long as there are any. What is written in decimal digits is what
it takes, where no digit follows.

Results:

* `takeWhile_append`, `dropWhile_append`: characters of a class are told from what follows them.
* `head?_digits`: only zero begins with the digit zero.
* `foldl_digits`: a number is read back from its digits.
* `digits_inj`: so different numbers have different digits.
-/

namespace Wiretap.Text

/-- The text does not go on with a character of this class. -/
def Stops (p : Char → Bool) (rest : List Char) : Prop := ∀ c ∈ rest.head?, p c = false

variable {p : Char → Bool} {front rest : List Char}

theorem stops_cons {c : Char} (h : p c = false) (rest : List Char) : Stops p (c :: rest) := by
  intro d hd
  cases hd
  exact h

/-- What sets a character of a class apart from the others. -/
theorem ne_of_holds {c : Char} (h : p c = true) (c' : Char) (h' : p c' = false) : c ≠ c' := by
  rintro rfl
  rw [h] at h'
  cases h'

theorem takeWhile_append (hfront : ∀ c ∈ front, p c = true) (hrest : Stops p rest) :
    (front ++ rest).takeWhile p = front := by
  rw [List.takeWhile_append_of_pos hfront]
  cases rest with
  | nil => exact List.append_nil front
  | cons c rest => simp [hrest c rfl]

theorem dropWhile_append (hfront : ∀ c ∈ front, p c = true) (hrest : Stops p rest) :
    (front ++ rest).dropWhile p = rest := by
  rw [List.dropWhile_append_of_pos hfront]
  cases rest with
  | nil => rfl
  | cons c rest => simp [hrest c rfl]

/-- The decimal digits of a number. -/
def digits (n : Nat) : List Char := Nat.toDigits 10 n

theorem isDigit_of_mem_digits {n : Nat} {c : Char} (h : c ∈ digits n) : c.isDigit = true :=
  Nat.isDigit_of_mem_toDigits (by decide) (by decide) h

theorem notMem_digits {c : Char} (h : c.isDigit = false) (n : Nat) : c ∉ digits n := by
  intro hmem
  rw [isDigit_of_mem_digits hmem] at h
  cases h

theorem digits_ne_nil (n : Nat) : digits n ≠ [] := Nat.toDigits_ne_nil

@[simp] theorem digits_zero : digits 0 = ['0'] := rfl

theorem toList_toString (n : Nat) : (toString n).toList = digits n := Nat.toList_repr

/-- Only zero begins with the digit zero. -/
theorem head?_digits {n : Nat} (h : 0 < n) : (digits n).head? ≠ some '0' := by
  unfold digits
  induction n using Nat.strongRecOn with
  | _ n ih =>
    rw [Nat.toDigits_eq_if (by decide)]
    split
    next hlt =>
      have hne : n ≠ 0 := Nat.ne_of_gt h
      simpa using hne
    next hge =>
      rw [List.head?_append, Option.or_of_isSome (by simp)]
      exact ih (n / 10) (by omega) (by omega)

theorem eq_zero_of_digits {n : Nat} {ds : List Char} (h : digits n = '0' :: ds) : n = 0 := by
  apply Nat.eq_zero_of_not_pos
  intro hpos
  apply head?_digits hpos
  rw [h]
  rfl

/-- The number that the digits of a number make again. -/
theorem foldl_digits (value : Char → Nat) (hvalue : ∀ d < 10, value (Nat.digitChar d) = d)
    (n : Nat) :
    (digits n).foldl (fun n c => n * 10 + value c) 0 = n := by
  unfold digits
  induction n using Nat.strongRecOn with
  | _ n ih =>
    rw [Nat.toDigits_eq_if (by decide)]
    split
    next hlt => simp [hvalue n hlt]
    next hge =>
      rw [List.foldl_append, ih (n / 10) (by omega), List.foldl_cons, List.foldl_nil,
        hvalue (n % 10) (Nat.mod_lt n (by decide))]
      omega

theorem digits_inj {m n : Nat} : digits m = digits n ↔ m = n := by
  refine ⟨fun h => ?_, congrArg digits⟩
  have hback : ∀ k, Nat.ofDigitChars 10 (digits k) 0 = k := fun _ => Nat.ofDigitChars_ten_toDigits
  rw [← hback m, h, hback n]

end Wiretap.Text
