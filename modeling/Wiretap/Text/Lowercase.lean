import Wiretap.Text.Cased

/-!
# Small letters

A text in small letters, and whether one text occurs in another. The capital sigma is the one letter
whose small form depends on its neighbours: at the end of a word it is another one than elsewhere.

Results:

* `lowerChar_ascii`: the small form of a character of the basic alphabet.
-/

namespace Wiretap.Text

/-- Whether a character is looked past when the case of its neighbours is asked for. -/
def isCaseIgnorable (c : Char) : Bool := inRanges c.toNat caseIgnorableRanges

/-- Whether a character has a case and is not looked past. -/
def isCased (c : Char) : Bool := inRanges c.toNat casedRanges

/-- The small form of a character, by itself. The capital I with a dot keeps its dot as a character
of its own. -/
def lowerChar (c : Char) : List Char :=
  if c.toNat < 128 then [c.toLower]
  else if c = 'İ' then ['i', '\u0307']
  else
    match letterRuns.findSome? (·.small? c.toNat) with
    | some n => [Char.ofNat n]
    | none => [c]

/-- Whether the next character that counts has a case. -/
def casedAhead : List Char → Bool
  | [] => false
  | c :: rest => if isCaseIgnorable c then casedAhead rest else isCased c

/-- The small form of a text that follows other text; `casedBefore` tells whether the last character
there that counts has a case. -/
def lowerAfter (casedBefore : Bool) : List Char → List Char
  | [] => []
  | c :: rest =>
    (if c = 'Σ' then (if casedBefore && !casedAhead rest then ['ς'] else ['σ']) else lowerChar c)
      ++ lowerAfter (if isCaseIgnorable c then casedBefore else isCased c) rest

/-- Model of `str::to_lowercase`: a text in small letters. -/
def lower (text : List Char) : List Char := lowerAfter false text

/-- Model of `str::contains`: whether a text occurs in another one. -/
def occursIn (part : List Char) : List Char → Bool
  | [] => part.isEmpty
  | c :: rest => part.isPrefixOf (c :: rest) || occursIn part rest

theorem lowerChar_ascii {c : Char} (h : c.toNat < 128) : lowerChar c = [c.toLower] := by
  simp [lowerChar, h]

end Wiretap.Text
