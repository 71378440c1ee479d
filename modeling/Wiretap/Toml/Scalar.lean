import Wiretap.Toml.Node

/-!
# Values without quotes

Booleans, integers, numbers with a point, and times. An integer is decimal with an optional sign, or
hexadecimal, octal or binary behind a mark; single underscores may stand between digits, a decimal
number has no leading zero, and the value fits in 64 bits with sign.
-/

namespace Wiretap.Toml.Scalar

/-- The digits of a run in which single underscores may stand between digits. -/
def digits? (isDigit : Char → Bool) : List Char → Option (List Char)
  | [] => none
  | [c] => if isDigit c then some [c] else none
  | c :: '_' :: rest => if isDigit c then (digits? isDigit rest).map (c :: ·) else none
  | c :: rest => if isDigit c then (digits? isDigit rest).map (c :: ·) else none

/-- The value of a digit, also of the letters that hexadecimal numbers use. -/
def digitValue (c : Char) : Nat :=
  if c.isDigit then c.toNat - '0'.toNat
  else if 'a' ≤ c ∧ c ≤ 'f' then c.toNat - 'a'.toNat + 10
  else c.toNat - 'A'.toNat + 10

/-- The number that digits in a base stand for. -/
def ofDigits (base : Nat) (ds : List Char) : Nat := ds.foldl (fun n c => n * base + digitValue c) 0

def isHexDigit (c : Char) : Bool :=
  c.isDigit || ('a' ≤ c && c ≤ 'f') || ('A' ≤ c && c ≤ 'F')

def isOctalDigit (c : Char) : Bool := '0' ≤ c && c ≤ '7'

def isBinaryDigit (c : Char) : Bool := c == '0' || c == '1'

/-- The sign in front of a number (whether it is a minus) and what follows it. -/
def splitSign : List Char → Bool × List Char
  | '+' :: cs => (false, cs)
  | '-' :: cs => (true, cs)
  | cs => (false, cs)

/-- Decimal digits without a leading zero. -/
def decimal? (cs : List Char) : Option (List Char) :=
  match digits? Char.isDigit cs with
  | some ds => if ds.head? = some '0' ∧ ds ≠ ['0'] then none else some ds
  | none => none

/-- The number with this sign and size, if 64 bits hold it. -/
def signed? (negative : Bool) (n : Nat) : Option Int :=
  if negative then if n ≤ Nat.pow 2 63 then some (-(n : Int)) else none
  else if n < Nat.pow 2 63 then some n else none

def integer? : List Char → Option Int
  | '0' :: 'x' :: cs => (digits? isHexDigit cs).bind fun ds => signed? false (ofDigits 16 ds)
  | '0' :: 'o' :: cs => (digits? isOctalDigit cs).bind fun ds => signed? false (ofDigits 8 ds)
  | '0' :: 'b' :: cs => (digits? isBinaryDigit cs).bind fun ds => signed? false (ofDigits 2 ds)
  | cs =>
    let (negative, cs) := splitSign cs
    (decimal? cs).bind fun ds => signed? negative (ofDigits 10 ds)

/-! ## Numbers with a point -/

/-- Whether `m * 10 ^ e` is too large for double precision: from half a unit above the largest
number on. A number with more than 400 places before its point is. -/
def overflows (m : Nat) (e : Int) : Bool :=
  if m = 0 then false
  else if (toString m).length + e > 400 then true
  else if e ≥ 0 then m * Nat.pow 10 e.toNat ≥ Nat.pow 2 1024 - Nat.pow 2 970
  else if (toString m).length + e < 0 then false
  else m ≥ (Nat.pow 2 1024 - Nat.pow 2 970) * Nat.pow 10 (-e).toNat

/-- Whether these characters, without their sign, are a number with a point or an exponent. -/
def isFloatBody (cs : List Char) : Bool :=
  let (whole, rest) := cs.span fun c => c != '.' && c != 'e' && c != 'E'
  match decimal? whole with
  | none => false
  | some ds =>
    let exponent (cs : List Char) : Option Int :=
      let (negative, cs) := splitSign cs
      (digits? Char.isDigit cs).map fun ds =>
        let n := if ds.length > 9 then 1000000000 else ofDigits 10 ds
        if negative then -(n : Int) else n
    match rest with
    | '.' :: rest =>
      let (fraction, rest) := rest.span fun c => c != 'e' && c != 'E'
      match digits? Char.isDigit fraction with
      | none => false
      | some fs =>
        let m := ofDigits 10 (ds ++ fs)
        match rest with
        | [] => !overflows m (-(fs.length : Int))
        | _ :: rest =>
          match exponent rest with
          | some e => !overflows m (e - fs.length)
          | none => false
    | _ :: rest =>
      match exponent rest with
      | some e => !overflows (ofDigits 10 ds) e
      | none => false
    | [] => false

def isFloat (cs : List Char) : Bool :=
  let body := (splitSign cs).2
  body = "inf".toList || body = "nan".toList || isFloatBody body

/-! ## Times -/

/-- Exactly `n` decimal digits at the front, as a number, and the rest. -/
def fixed? (n : Nat) (cs : List Char) : Option (Nat × List Char) :=
  let ds := cs.take n
  if ds.length = n ∧ ds.all Char.isDigit then some (ofDigits 10 ds, cs.drop n) else none

def daysIn (year month : Nat) : Nat :=
  if month = 2 then
    if year % 4 = 0 ∧ (year % 100 ≠ 0 ∨ year % 400 = 0) then 29 else 28
  else if month = 4 ∨ month = 6 ∨ month = 9 ∨ month = 11 then 30
  else 31

/-- A date at the front, and the rest. -/
def date? (cs : List Char) : Option (List Char) := do
  let (year, cs) ← fixed? 4 cs
  let '-' :: cs := cs | none
  let (month, cs) ← fixed? 2 cs
  let '-' :: cs := cs | none
  let (day, cs) ← fixed? 2 cs
  if 1 ≤ month ∧ month ≤ 12 ∧ 1 ≤ day ∧ day ≤ daysIn year month then some cs else none

/-- A time of day at the front, seconds and their fraction being optional, and the rest. -/
def time? (cs : List Char) : Option (List Char) := do
  let (hour, cs) ← fixed? 2 cs
  let ':' :: cs := cs | none
  let (minute, cs) ← fixed? 2 cs
  if hour ≥ 24 ∨ minute ≥ 60 then none
  match cs with
  | ':' :: cs =>
    let (second, cs) ← fixed? 2 cs
    if second > 60 then none
    match cs with
    | '.' :: cs =>
      if (cs.takeWhile Char.isDigit).isEmpty then none else some (cs.dropWhile Char.isDigit)
    | _ => some cs
  | _ => some cs

/-- Whether the characters are an offset from universal time, or nothing. -/
def isOffset (cs : List Char) : Bool :=
  match cs with
  | [] | ['Z'] | ['z'] => true
  | sign :: cs =>
    (sign = '+' || sign = '-') &&
      match fixed? 2 cs with
      | some (hour, ':' :: cs) =>
        match fixed? 2 cs with
        | some (minute, []) => hour < 24 && minute < 60
        | _ => false
      | _ => false

def isDatetime (cs : List Char) : Bool :=
  match date? cs with
  | some [] => true
  | some (sep :: rest) =>
    (sep = 'T' || sep = 't' || sep = ' ') &&
      match time? rest with
      | some rest => isOffset rest
      | none => false
  | none => time? cs = some []

/-- The value that these characters stand for. -/
def node? (cs : List Char) : Option Node :=
  if cs = "true".toList then some (.boolean true)
  else if cs = "false".toList then some (.boolean false)
  else
    match integer? cs with
    | some n => some (.integer n)
    | none =>
      if isFloat cs then some (.float (String.ofList cs))
      else if isDatetime cs then some (.datetime (String.ofList cs))
      else none

/-- A character that a value without quotes may hold. -/
def isScalarChar (c : Char) : Bool :=
  c.isAlphanum || c = '_' || c = '+' || c = '-' || c = '.' || c = ':'

/-- Takes a value without quotes off the front. A date may be followed by a blank and a time. -/
def take? (cs : List Char) : Option (Node × List Char) :=
  let (token, rest) := cs.span isScalarChar
  let (token, rest) :=
    if date? token = some [] then
      match rest with
      | ' ' :: d :: more =>
        if d.isDigit then
          let (time, rest) := (d :: more).span isScalarChar
          (token ++ ' ' :: time, rest)
        else (token, rest)
      | _ => (token, rest)
    else (token, rest)
  (node? token).map (·, rest)

end Wiretap.Toml.Scalar
