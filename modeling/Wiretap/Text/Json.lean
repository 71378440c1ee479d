import Wiretap.Text.Utf8

/-!
# Reading JSON from bytes

The reader sees bytes, each as the character of its number, because only a text that is kept has to
be valid: a value that nobody asked for is skipped by its shape alone. Skipping keeps its own stack
of open brackets, so that values may nest to any depth.
-/

namespace Wiretap.Text.Json

/-- The bytes as characters, each the one of its number. -/
def ofBytes (bytes : Bytes) : List Char := bytes.map fun b => Char.ofNat b.toNat

/-- The bytes that the characters were made of. -/
def toBytes (cs : List Char) : Bytes := cs.map fun c => UInt8.ofNat c.toNat

def isSpace (c : Char) : Bool := c = ' ' || c = '\n' || c = '\t' || c = '\r'

def dropSpace (cs : List Char) : List Char := cs.dropWhile isSpace

/-! ## Strings -/

def hexValue? (c : Char) : Option Nat :=
  if '0' ≤ c ∧ c ≤ '9' then some (c.toNat - '0'.toNat)
  else if 'a' ≤ c ∧ c ≤ 'f' then some (c.toNat - 'a'.toNat + 10)
  else if 'A' ≤ c ∧ c ≤ 'F' then some (c.toNat - 'A'.toNat + 10)
  else none

/-- The number of four hexadecimal digits. -/
def hex4? (a b c d : Char) : Option Nat := do
  some ((((← hexValue? a) * 16 + (← hexValue? b)) * 16 + (← hexValue? c)) * 16 + (← hexValue? d))

/-- The bytes of the character of a number, as characters in reverse order. -/
def encoded (n : Nat) : List Char :=
  (ofBytes (String.utf8EncodeChar (Char.ofNat n))).reverse

/-- What a single character after a backslash stands for. -/
def escape? : Char → Option Char
  | '"' => some '"'
  | '\\' => some '\\'
  | '/' => some '/'
  | 'b' => some '\x08'
  | 'f' => some '\x0c'
  | 'n' => some '\n'
  | 'r' => some '\r'
  | 't' => some '\t'
  | _ => none

/-- Reads a string after its opening quote: its bytes, and the rest. Surrogates come in pairs. -/
def string? (acc : List Char) : List Char → Option (Bytes × List Char)
  | [] => none
  | '"' :: rest => some (toBytes acc.reverse, rest)
  | '\\' :: 'u' :: a :: b :: c :: d :: rest =>
    match hex4? a b c d with
    | none => none
    | some n =>
      if 0xDC00 ≤ n ∧ n ≤ 0xDFFF then none
      else if 0xD800 ≤ n ∧ n ≤ 0xDBFF then
        match rest with
        | '\\' :: 'u' :: e :: f :: g :: h :: rest =>
          match hex4? e f g h with
          | some low =>
            if 0xDC00 ≤ low ∧ low ≤ 0xDFFF then
              string? (encoded (0x10000 + (n - 0xD800) * 0x400 + (low - 0xDC00)) ++ acc) rest
            else none
          | none => none
        | _ => none
      else string? (encoded n ++ acc) rest
  | '\\' :: e :: rest =>
    match escape? e with
    | some c => string? (c :: acc) rest
    | none => none
  | c :: rest => if c.toNat < 0x20 ∨ c = '\\' then none else string? (c :: acc) rest

/-- Skips a string after its opening quote. -/
def skipString? : List Char → Option (List Char)
  | [] => none
  | '"' :: rest => some rest
  | '\\' :: 'u' :: a :: b :: c :: d :: rest =>
    if (hex4? a b c d).isSome then skipString? rest else none
  | '\\' :: e :: rest => if (escape? e).isSome then skipString? rest else none
  | c :: rest => if c.toNat < 0x20 ∨ c = '\\' then none else skipString? rest

/-! ## Numbers -/

/-- The digits of an integer without sign, which has no leading zero, and the rest. -/
def integer? (cs : List Char) : Option (List Char × List Char) :=
  match cs.takeWhile Char.isDigit with
  | [] => none
  | ['0'] => some (['0'], cs.dropWhile Char.isDigit)
  | '0' :: _ => none
  | ds => some (ds, cs.dropWhile Char.isDigit)

/-- A number that is no fraction and at most `limit`, and the rest. -/
def natural? (limit : Nat) (cs : List Char) : Option (Nat × List Char) :=
  match integer? cs with
  | none => none
  | some (ds, rest) =>
    let n := ds.foldl (fun n c => n * 10 + (c.toNat - '0'.toNat)) 0
    match rest with
    | '.' :: _ | 'e' :: _ | 'E' :: _ => none
    | rest => if n ≤ limit then some (n, rest) else none

/-- Skips one or more digits. -/
def skipDigits? (cs : List Char) : Option (List Char) :=
  match cs with
  | c :: _ => if c.isDigit then some (cs.dropWhile Char.isDigit) else none
  | [] => none

/-- Skips the exponent of a number, if it has one. -/
def skipExponent? : List Char → Option (List Char)
  | 'e' :: '+' :: cs | 'e' :: '-' :: cs | 'E' :: '+' :: cs | 'E' :: '-' :: cs => skipDigits? cs
  | 'e' :: cs | 'E' :: cs => skipDigits? cs
  | cs => some cs

/-- Skips a number after its sign. -/
def skipNumber? (cs : List Char) : Option (List Char) :=
  match integer? cs with
  | none => none
  | some (_, '.' :: rest) => (skipDigits? rest).bind skipExponent?
  | some (_, rest) => skipExponent? rest

/-! ## Values that are skipped -/

/-- An open bracket. -/
inductive Bracket where
  | array
  | object
  deriving DecidableEq, Repr

/-- Skips the key of an entry and the colon after it. -/
def skipKey? (cs : List Char) : Option (List Char) :=
  match dropSpace cs with
  | '"' :: rest =>
    match skipString? rest with
    | some rest =>
      match dropSpace rest with
      | ':' :: rest => some rest
      | _ => none
    | none => none
  | _ => none

/-- What is left to skip: a value, or what follows one. -/
inductive Skip where
  | value
  | rest
  deriving DecidableEq, Repr

/-- Skips, from inside the brackets `open_`, up to the end of the value they belong to. -/
def skip? : (fuel : Nat) → Skip → (open_ : List Bracket) → List Char → Option (List Char)
  | 0, _, _, _ => none
  | _ + 1, .rest, [], cs => some cs
  | fuel + 1, .rest, b :: open_, cs =>
    match b, dropSpace cs with
    | .array, ']' :: cs => skip? fuel .rest open_ cs
    | .object, '\x7d' :: cs => skip? fuel .rest open_ cs
    | .array, ',' :: cs => skip? fuel .value (b :: open_) cs
    | .object, ',' :: cs => (skipKey? cs).bind (skip? fuel .value (b :: open_))
    | _, _ => none
  | fuel + 1, .value, open_, cs =>
    match dropSpace cs with
    | 'n' :: 'u' :: 'l' :: 'l' :: cs => skip? fuel .rest open_ cs
    | 't' :: 'r' :: 'u' :: 'e' :: cs => skip? fuel .rest open_ cs
    | 'f' :: 'a' :: 'l' :: 's' :: 'e' :: cs => skip? fuel .rest open_ cs
    | '"' :: cs => (skipString? cs).bind (skip? fuel .rest open_)
    | '-' :: cs => (skipNumber? cs).bind (skip? fuel .rest open_)
    | '[' :: cs =>
      match dropSpace cs with
      | ']' :: cs => skip? fuel .rest open_ cs
      | cs => skip? fuel .value (.array :: open_) cs
    | '\x7b' :: cs =>
      match dropSpace cs with
      | '\x7d' :: cs => skip? fuel .rest open_ cs
      | cs => (skipKey? cs).bind (skip? fuel .value (.object :: open_))
    | cs => (skipNumber? cs).bind (skip? fuel .rest open_)

/-- Skips one value. -/
def skipValue? (cs : List Char) : Option (List Char) := skip? (2 * cs.length + 2) .value [] cs

end Wiretap.Text.Json
