import Wiretap.Bytes

/-!
# UTF-8

A reader takes one character off the front of a byte string. Where the bytes do not begin with a
character it takes the longest front that could still have become one (at least one byte); a lossy
reading puts one replacement character in its place, a strict reading fails.

Results:

* `next_shorter`: every reading consumes at least one byte.
-/

namespace Wiretap.Text.Utf8

/-- The character that stands for bytes which are none. -/
def replacement : Char := '\ufffd'

/-- How a character that begins with a byte goes on: how many bytes follow, the range of the first
of them, and the value of the leading byte. The ranges leave out overlong forms, surrogates and
numbers above the last code point. -/
structure Lead where
  tails : Nat
  low : UInt8
  high : UInt8
  value : Nat

/-- What a byte begins, if it begins a character. -/
def lead? (b : UInt8) : Option Lead :=
  if b < 0x80 then some ⟨0, 0x80, 0xBF, b.toNat⟩
  else if b < 0xC2 then none
  else if b < 0xE0 then some ⟨1, 0x80, 0xBF, b.toNat - 0xC0⟩
  else if b = 0xE0 then some ⟨2, 0xA0, 0xBF, 0⟩
  else if b = 0xED then some ⟨2, 0x80, 0x9F, 13⟩
  else if b < 0xF0 then some ⟨2, 0x80, 0xBF, b.toNat - 0xE0⟩
  else if b = 0xF0 then some ⟨3, 0x90, 0xBF, 0⟩
  else if b < 0xF4 then some ⟨3, 0x80, 0xBF, b.toNat - 0xF0⟩
  else if b = 0xF4 then some ⟨3, 0x80, 0x8F, 4⟩
  else none

/-- Takes the tails that must follow, the first of them from the range `low` to `high`. -/
def tails : (count : Nat) → (low high : UInt8) → (value : Nat) → Bytes → Option Nat × Bytes
  | 0, _, _, value, rest => (some value, rest)
  | _ + 1, _, _, _, [] => (none, [])
  | n + 1, low, high, value, b :: rest =>
    if low ≤ b && b ≤ high then tails n 0x80 0xBF (value * 64 + (b.toNat - 0x80)) rest
    else (none, b :: rest)

/-- Takes one character that begins with the byte `b`. -/
def next (b : UInt8) (rest : Bytes) : Option Char × Bytes :=
  match lead? b with
  | none => (none, rest)
  | some l =>
    match tails l.tails l.low l.high l.value rest with
    | (some value, rest) => (some (Char.ofNat value), rest)
    | (none, rest) => (none, rest)

theorem tails_shorter (n : Nat) (low high : UInt8) (value : Nat) (rest : Bytes) :
    (tails n low high value rest).2.length ≤ rest.length := by
  induction n generalizing low high value rest with
  | zero => simp [tails]
  | succ n ih =>
    cases rest with
    | nil => simp [tails]
    | cons b rest =>
      unfold tails
      split
      · exact Nat.le_trans (ih _ _ _ _) (by simp)
      · simp

theorem next_shorter (b : UInt8) (rest : Bytes) : (next b rest).2.length ≤ rest.length := by
  unfold next
  split
  · simp
  · next l _ =>
    have := tails_shorter l.tails l.low l.high l.value rest
    split <;> simp_all

/-- Reads all bytes, with a replacement character for each front that is none; `before` is what has
been read, in reverse order. -/
def lossyAfter (before : List Char) : Bytes → List Char
  | [] => before.reverse
  | b :: rest => lossyAfter ((next b rest).1.getD replacement :: before) (next b rest).2
termination_by bytes => bytes.length
decreasing_by
  have := next_shorter b rest
  simp
  omega

/-- Model of `String::from_utf8_lossy`: reads all bytes, with a replacement character for each front
that is no character. -/
def lossy (bytes : Bytes) : String := String.ofList (lossyAfter [] bytes)

/-- Reads all bytes, or fails where they hold no character; `before` is what has been read, in
reverse order. -/
def decodeAfter (before : List Char) : Bytes → Option (List Char)
  | [] => some before.reverse
  | b :: rest =>
    match _h : next b rest with
    | (some c, rest') => decodeAfter (c :: before) rest'
    | (none, _) => none
termination_by bytes => bytes.length
decreasing_by
  have := next_shorter b rest
  simp [_h] at this ⊢
  omega

/-- Model of `String::from_utf8`: the characters of the bytes, if they are text. -/
def decode? (bytes : Bytes) : Option (List Char) := decodeAfter [] bytes

/-- The bytes of a text. -/
def encode (s : String) : Bytes := s.toUTF8.toList

end Wiretap.Text.Utf8
