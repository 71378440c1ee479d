import Wiretap.Toml.Scalar

/-!
# Quoted strings

Four forms: basic strings with escapes and literal strings without, each on one line or, between
tripled quotes, on several. The writer takes the first form in which the text needs no escape:
basic, literal, basic on several lines, literal on several lines; and else a basic form with
escapes.
-/

namespace Wiretap.Toml.Quoted

/-! ## Reading -/

/-- A character that may stand for itself in a string: no control character but the tab. -/
def isPlain (c : Char) : Bool := c = '\t' || (0x20 ≤ c.toNat && c.toNat ≠ 0x7F)

/-- The character of a number, if it is one. -/
def scalarValue? (n : Nat) : Option Char :=
  if h : n.isValidChar then some (Char.ofNatAux n h) else none

/-- The character that hexadecimal digits stand for. -/
def ofHex? (ds : List Char) : Option Char :=
  if ds.all Scalar.isHexDigit then scalarValue? (Scalar.ofDigits 16 ds) else none

/-- What a single character after a backslash stands for. -/
def simpleEscape? : Char → Option Char
  | 'b' => some '\x08'
  | 't' => some '\t'
  | 'n' => some '\n'
  | 'f' => some '\x0c'
  | 'r' => some '\r'
  | 'e' => some '\x1b'
  | '"' => some '"'
  | '\\' => some '\\'
  | _ => none

/-- Reads a basic string after its opening quote; `acc` is what has been read, in reverse order. -/
def basic (acc : List Char) : List Char → Option (List Char × List Char)
  | [] => none
  | '"' :: rest => some (acc.reverse, rest)
  | '\\' :: 'x' :: a :: b :: rest => (ofHex? [a, b]).bind fun c => basic (c :: acc) rest
  | '\\' :: 'u' :: a :: b :: c :: d :: rest =>
    (ofHex? [a, b, c, d]).bind fun c => basic (c :: acc) rest
  | '\\' :: 'U' :: a :: b :: c :: d :: e :: f :: g :: h :: rest =>
    (ofHex? [a, b, c, d, e, f, g, h]).bind fun c => basic (c :: acc) rest
  | '\\' :: e :: rest => (simpleEscape? e).bind fun c => basic (c :: acc) rest
  | c :: rest => if isPlain c ∧ c ≠ '\\' then basic (c :: acc) rest else none

/-- Reads a literal string after its opening quote. -/
def literal (acc : List Char) : List Char → Option (List Char × List Char)
  | [] => none
  | '\'' :: rest => some (acc.reverse, rest)
  | c :: rest => if isPlain c then literal (c :: acc) rest else none

/-- How far a backslash at the end of a line has been followed: not at all, up to blanks after it,
or past the line, where blanks and lines are left out. -/
inductive Continuation where
  | none
  | pending
  | skipping
  deriving DecidableEq, Repr

/-- Reads a basic string of several lines after its opening quotes and the line break next to
them. -/
def multiBasic (acc : List Char) : Continuation → List Char → Option (List Char × List Char)
  | _, [] => none
  | .pending, ' ' :: rest => multiBasic acc .pending rest
  | .pending, '\t' :: rest => multiBasic acc .pending rest
  | .pending, '\n' :: rest => multiBasic acc .skipping rest
  | .pending, '\r' :: '\n' :: rest => multiBasic acc .skipping rest
  | .pending, _ => none
  | .skipping, ' ' :: rest => multiBasic acc .skipping rest
  | .skipping, '\t' :: rest => multiBasic acc .skipping rest
  | .skipping, '\n' :: rest => multiBasic acc .skipping rest
  | .skipping, '\r' :: '\n' :: rest => multiBasic acc .skipping rest
  | _, '"' :: '"' :: '"' :: '"' :: '"' :: rest => some (('"' :: '"' :: acc).reverse, rest)
  | _, '"' :: '"' :: '"' :: '"' :: rest => some (('"' :: acc).reverse, rest)
  | _, '"' :: '"' :: '"' :: rest => some (acc.reverse, rest)
  | _, '\\' :: 'x' :: a :: b :: rest =>
    (ofHex? [a, b]).bind fun c => multiBasic (c :: acc) .none rest
  | _, '\\' :: 'u' :: a :: b :: c :: d :: rest =>
    (ofHex? [a, b, c, d]).bind fun c => multiBasic (c :: acc) .none rest
  | _, '\\' :: 'U' :: a :: b :: c :: d :: e :: f :: g :: h :: rest =>
    (ofHex? [a, b, c, d, e, f, g, h]).bind fun c => multiBasic (c :: acc) .none rest
  | _, '\\' :: ' ' :: rest => multiBasic acc .pending rest
  | _, '\\' :: '\t' :: rest => multiBasic acc .pending rest
  | _, '\\' :: '\n' :: rest => multiBasic acc .skipping rest
  | _, '\\' :: '\r' :: '\n' :: rest => multiBasic acc .skipping rest
  | _, '\\' :: e :: rest => (simpleEscape? e).bind fun c => multiBasic (c :: acc) .none rest
  | _, '\n' :: rest => multiBasic ('\n' :: acc) .none rest
  | _, '\r' :: '\n' :: rest => multiBasic ('\n' :: '\r' :: acc) .none rest
  | _, c :: rest => if isPlain c ∧ c ≠ '\\' then multiBasic (c :: acc) .none rest else none

/-- Reads a literal string of several lines after its opening quotes and the line break next to
them. -/
def multiLiteral (acc : List Char) : List Char → Option (List Char × List Char)
  | [] => none
  | '\'' :: '\'' :: '\'' :: '\'' :: '\'' :: rest => some (('\'' :: '\'' :: acc).reverse, rest)
  | '\'' :: '\'' :: '\'' :: '\'' :: rest => some (('\'' :: acc).reverse, rest)
  | '\'' :: '\'' :: '\'' :: rest => some (acc.reverse, rest)
  | '\n' :: rest => multiLiteral ('\n' :: acc) rest
  | '\r' :: '\n' :: rest => multiLiteral ('\n' :: '\r' :: acc) rest
  | c :: rest => if isPlain c then multiLiteral (c :: acc) rest else none

/-- Leaves out a line break next to the opening quotes. -/
def dropBreak : List Char → List Char
  | '\n' :: rest => rest
  | '\r' :: '\n' :: rest => rest
  | cs => cs

/-- Takes a string of one line off the front: the two forms that a key may have. -/
def takeLine? : List Char → Option (List Char × List Char)
  | '"' :: rest => basic [] rest
  | '\'' :: rest => literal [] rest
  | _ => none

/-- Takes a string of any form off the front. -/
def take? : List Char → Option (List Char × List Char)
  | '"' :: '"' :: '"' :: rest => multiBasic [] .none (dropBreak rest)
  | '\'' :: '\'' :: '\'' :: rest => multiLiteral [] (dropBreak rest)
  | cs => takeLine? cs

/-! ## Writing -/

/-- The length of the longest run of a character, where a run of length `run` has just ended before
the text. -/
def longestRun (q : Char) (run : Nat) : List Char → Nat
  | [] => run
  | c :: rest => if c = q then longestRun q (run + 1) rest else max run (longestRun q 0 rest)

/-- A character that no form can hold unescaped: a control character that is neither a tab nor a
line break. -/
def needsCode (c : Char) : Bool :=
  (c.toNat < 0x20 && c ≠ '\t' && c ≠ '\n') || c.toNat = 0x7F

def upperHex (n : Nat) : Char :=
  if n < 10 then Char.ofNat ('0'.toNat + n) else Char.ofNat ('A'.toNat + (n - 10))

/-- A character by its number, in four digits. -/
def code (c : Char) : List Char :=
  let n := c.toNat
  ['\\', 'u', upperHex (n / 4096 % 16), upperHex (n / 256 % 16), upperHex (n / 16 % 16),
    upperHex (n % 16)]

/-- The text with escapes. On several lines a line break stands for itself, and of a run of quotes
the first two do, `run` of which stand in front of the text. -/
def escape (multi : Bool) (run : Nat) : List Char → List Char
  | [] => []
  | '"' :: rest =>
    if run < (if multi then 2 else 0) then '"' :: escape multi (run + 1) rest
    else '\\' :: '"' :: escape multi 0 rest
  | '\x08' :: rest => '\\' :: 'b' :: escape multi 0 rest
  | '\t' :: rest => '\\' :: 't' :: escape multi 0 rest
  | '\n' :: rest =>
    if multi then '\n' :: escape multi 0 rest else '\\' :: 'n' :: escape multi 0 rest
  | '\x0c' :: rest => '\\' :: 'f' :: escape multi 0 rest
  | '\r' :: rest => '\\' :: 'r' :: escape multi 0 rest
  | '\\' :: rest => '\\' :: '\\' :: escape multi 0 rest
  | c :: rest =>
    if c.toNat < 0x20 ∨ c.toNat = 0x7F then code c ++ escape multi 0 rest
    else c :: escape multi 0 rest

def tripleBasic : List Char := ['"', '"', '"']

def tripleLiteral : List Char := ['\'', '\'', '\'']

/-- A text in quotes. -/
def write (s : List Char) : List Char :=
  let codes := s.any needsCode
  let backslash := s.contains '\\'
  let lines := s.contains '\n'
  let doubles := longestRun '"' 0 s
  let singles := longestRun '\'' 0 s
  let lineBreak := if lines then ['\n'] else []
  if !codes && !backslash && doubles = 0 && !lines then '"' :: escape false 0 s ++ ['"']
  else if !codes && singles = 0 && !lines then '\'' :: s ++ ['\'']
  else if !codes && !backslash && doubles ≤ 2 then
    tripleBasic ++ lineBreak ++ escape true 0 s ++ tripleBasic
  else if !codes && singles ≤ 2 then tripleLiteral ++ lineBreak ++ s ++ tripleLiteral
  else if lines then tripleBasic ++ lineBreak ++ escape true 0 s ++ tripleBasic
  else '"' :: escape false 0 s ++ ['"']

end Wiretap.Toml.Quoted
