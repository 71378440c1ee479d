import Wiretap.Toml.Quoted

/-!
# Reading TOML

A document is a run of lines: blank ones, keys with values, and headers, which say which table the
keys after them go to. The reader answers with the table of the whole document, or with nothing if
the text is no document.

Values nest no deeper than 80 arrays and tables in braces, and a key has no more than 80 parts.
-/

namespace Wiretap.Toml

/-! ## Blanks and comments -/

def isBlank (c : Char) : Bool := c = ' ' || c = '\t'

def dropBlanks (cs : List Char) : List Char := cs.dropWhile isBlank

/-- Drops a comment, if there is one, up to the end of its line. -/
def dropComment : List Char → List Char
  | '#' :: rest => rest.dropWhile Quoted.isPlain
  | cs => cs

/-- The text after a line break; the end of the text also ends a line. -/
def lineEnd? : List Char → Option (List Char)
  | [] => some []
  | '\n' :: rest => some rest
  | '\r' :: '\n' :: rest => some rest
  | _ => none

/-- The text after the end of a line on which only blanks and a comment are left. -/
def restOfLine? (cs : List Char) : Option (List Char) := lineEnd? (dropComment (dropBlanks cs))

/-- Drops blanks, line breaks and comments; `none` for a comment or line break that is broken. -/
def dropSpace (inComment : Bool) : List Char → Option (List Char)
  | [] => some []
  | '\n' :: rest => dropSpace false rest
  | '\r' :: '\n' :: rest => dropSpace false rest
  | c :: rest =>
    if inComment then if Quoted.isPlain c then dropSpace true rest else none
    else if isBlank c then dropSpace false rest
    else if c = '#' then dropSpace true rest
    else if c = '\r' then none
    else some (c :: rest)

/-! ## Keys -/

def isBareChar (c : Char) : Bool := c.isAlphanum || c = '_' || c = '-'

/-- Takes one part of a key off the front. -/
def keyPart? (cs : List Char) : Option (String × List Char) :=
  match Quoted.takeLine? cs with
  | some (s, rest) => some (String.ofList s, rest)
  | none =>
    match cs.takeWhile isBareChar with
    | [] => none
    | s => some (String.ofList s, cs.dropWhile isBareChar)

/-- The greatest depth of values, and the greatest number of parts of a key. -/
def maxDepth : Nat := 80

/-- Takes a key of at most that many parts off the front: the path that leads to its last part, and
that part. -/
def keyOf? : (parts : Nat) → List Char → Option ((List String × String) × List Char)
  | 0, _ => none
  | parts + 1, cs => do
    let (part, rest) ← keyPart? (dropBlanks cs)
    match dropBlanks rest with
    | '.' :: rest =>
      let ((path, last), rest) ← keyOf? parts rest
      some ((part :: path, last), rest)
    | rest => some (([], part), rest)

/-- Takes a key off the front. -/
def key? (cs : List Char) : Option ((List String × String) × List Char) := keyOf? maxDepth cs

/-! ## Values -/

mutual

/-- Takes a value off the front, inside `depth` arrays and tables in braces. -/
def value? : (fuel depth : Nat) → List Char → Option (Node × List Char)
  | 0, _, _ => none
  | fuel + 1, depth, cs =>
    match cs with
    | '[' :: rest => if depth < maxDepth then items? fuel (depth + 1) [] rest else none
    | '\x7b' :: rest => if depth < maxDepth then braces? fuel (depth + 1) [] rest else none
    | '"' :: _ | '\'' :: _ =>
      (Quoted.take? cs).map fun (s, rest) => (.string (String.ofList s), rest)
    | cs => Scalar.take? cs

/-- Takes the items of an array and its closing bracket; `acc` are those before, in reverse
order. -/
def items? : (fuel depth : Nat) → List Node → List Char → Option (Node × List Char)
  | 0, _, _, _ => none
  | fuel + 1, depth, acc, cs => do
    match ← dropSpace false cs with
    | ']' :: rest => some (.array .inline acc.reverse, rest)
    | cs =>
      let (node, rest) ← value? fuel depth cs
      match ← dropSpace false rest with
      | ',' :: rest => items? fuel depth (node :: acc) rest
      | ']' :: rest => some (.array .inline (node :: acc).reverse, rest)
      | _ => none

/-- Takes the entries of a table in braces and the closing brace. -/
def braces? : (fuel depth : Nat) → Entries → List Char → Option (Node × List Char)
  | 0, _, _, _ => none
  | fuel + 1, depth, acc, cs => do
    match ← dropSpace false cs with
    | '\x7d' :: rest => some (.table .inline acc, rest)
    | cs =>
      let ((path, last), rest) ← key? cs
      let '=' :: rest := rest | none
      let (node, rest) ← value? fuel depth (dropBlanks rest)
      let (_, acc) ← Entries.addKey path last node .inline acc
      match ← dropSpace false rest with
      | ',' :: rest => braces? fuel depth acc rest
      | '\x7d' :: rest => some (.table .inline acc, rest)
      | _ => none

end

/-! ## Lines -/

/-- A document read so far: its table, and the path of the last header. -/
structure Draft where
  entries : Entries := []
  section_ : List String := []

namespace Draft

/-- Adds a key of the current section. -/
def addKey (d : Draft) (path : List String) (last : String) (node : Node) : Option Draft :=
  (Entries.alter false (Entries.addKey path last node) d.section_ .header d.entries).map
    fun (_, entries) => { d with entries }

/-- Begins a section. -/
def openTable (d : Draft) (path : List String) (last : String) : Option Draft :=
  (Entries.openTable path last .header d.entries).map fun (_, entries) =>
    ⟨entries, path ++ [last]⟩

/-- Begins a section that is the next table of an array. -/
def openElement (d : Draft) (path : List String) (last : String) : Option Draft :=
  (Entries.openElement path last .header d.entries).map fun (_, entries) =>
    ⟨entries, path ++ [last]⟩

/-- Reads one line that is not blank: a header, or a key with its value. -/
def line? (d : Draft) (cs : List Char) : Option (Draft × List Char) :=
  match cs with
  | '[' :: '[' :: rest => do
    let ((path, last), rest) ← key? rest
    let ']' :: ']' :: rest := rest | none
    some (← d.openElement path last, rest)
  | '[' :: rest => do
    let ((path, last), rest) ← key? rest
    let ']' :: rest := rest | none
    some (← d.openTable path last, rest)
  | cs => do
    let ((path, last), rest) ← key? cs
    let '=' :: rest := rest | none
    let (node, rest) ← value? (rest.length + 1) 0 (dropBlanks rest)
    some (← d.addKey path last node, rest)

/-- Reads lines to the end of the text. -/
def lines? : (fuel : Nat) → Draft → List Char → Option Draft
  | 0, _, _ => none
  | fuel + 1, d, cs => do
    match ← dropSpace false cs with
    | [] => some d
    | cs =>
      let (d, rest) ← d.line? cs
      match ← restOfLine? rest with
      | [] => some d
      | rest => lines? fuel d rest

end Draft

/-- The document that a text is. A byte order mark in front is skipped. -/
def parse? (cs : List Char) : Option Entries :=
  let cs := match cs with
    | '\ufeff' :: rest => rest
    | cs => cs
  (Draft.lines? (cs.length + 1) {} cs).map (·.entries)

end Wiretap.Toml
