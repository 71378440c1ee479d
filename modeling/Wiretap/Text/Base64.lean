import Wiretap.Bytes

/-!
# Base 64

Three bytes are written in four letters, each for six bits. One or two bytes at the end are filled
up with zero bits and padded to four characters. The reader takes exactly what the writer makes:
letters of the standard alphabet, padded, with no bit set in the filling.

Results:

* `value?_letter`: the letter of six bits stands for them.
-/

namespace Wiretap.Text.Base64

/-- The letter for a number below 64. -/
def letter (n : Nat) : Char :=
  if n < 26 then Char.ofNat ('A'.toNat + n)
  else if n < 52 then Char.ofNat ('a'.toNat + (n - 26))
  else if n < 62 then Char.ofNat ('0'.toNat + (n - 52))
  else if n = 62 then '+'
  else '/'

/-- The number that a letter stands for. -/
def value? (c : Char) : Option Nat :=
  if 'A' ≤ c ∧ c ≤ 'Z' then some (c.toNat - 'A'.toNat)
  else if 'a' ≤ c ∧ c ≤ 'z' then some (c.toNat - 'a'.toNat + 26)
  else if '0' ≤ c ∧ c ≤ '9' then some (c.toNat - '0'.toNat + 52)
  else if c = '+' then some 62
  else if c = '/' then some 63
  else none

theorem value?_letter : ∀ n : Fin 64, value? (letter n) = some n.val := by decide

def encode : Bytes → List Char
  | [] => []
  | [a] =>
    let n := a.toNat * 16
    [letter (n / 64), letter (n % 64), '=', '=']
  | [a, b] =>
    let n := (a.toNat * 256 + b.toNat) * 4
    [letter (n / 4096), letter (n / 64 % 64), letter (n % 64), '=']
  | a :: b :: c :: rest =>
    let n := (a.toNat * 256 + b.toNat) * 256 + c.toNat
    letter (n / 262144) :: letter (n / 4096 % 64) :: letter (n / 64 % 64) :: letter (n % 64)
      :: encode rest

/-- Reads letters; `acc` are the bytes before them, in reverse order. -/
def decodeAfter (acc : Bytes) : List Char → Option Bytes
  | [] => some acc.reverse
  | [a, b, '=', '='] => do
    let n := (← value? a) * 64 + (← value? b)
    if n % 16 = 0 then some (UInt8.ofNat (n / 16) :: acc).reverse else none
  | [a, b, c, '='] => do
    let n := ((← value? a) * 64 + (← value? b)) * 64 + (← value? c)
    if n % 4 = 0 then some (UInt8.ofNat (n / 4) :: UInt8.ofNat (n / 1024) :: acc).reverse else none
  | a :: b :: c :: d :: rest => do
    let n := (((← value? a) * 64 + (← value? b)) * 64 + (← value? c)) * 64 + (← value? d)
    decodeAfter (UInt8.ofNat n :: UInt8.ofNat (n / 256) :: UInt8.ofNat (n / 65536) :: acc) rest
  | _ => none

/-- The bytes that the characters stand for. -/
def decode? (cs : List Char) : Option Bytes := decodeAfter [] cs

end Wiretap.Text.Base64
