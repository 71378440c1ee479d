import Mathlib.Data.List.TakeDrop
import Wiretap.Proofs.Text.Digits
import Wiretap.Proofs.Toml.Keys
import Wiretap.Proofs.Toml.Quoted

/-!
# Lines of a document

A line of the plainest kind is a header of one name, or one name with a value. The text of a
document is read line by line, each line adding to the draft of the document.

Results:

* `readAs_string`, `readAs_integer`, `readAs_boolean`: what values are read as behind their keys.
* `line?_header`, `line?_entry`: what is read of a line.
* `openTable_new`, `addKey_section`: what it does to the draft.
* `Completes.line`: a text is read by reading its first line and then the rest.
-/

namespace Wiretap.Toml

open Text (Stops digits)

variable {cs ds rest w : List Char} {node : Node}

/-! ## Values without quotes -/

namespace Scalar

theorem fixed?_snd {n m : Nat} (h : fixed? n cs = some (m, rest)) : rest = cs.drop n := by
  unfold fixed? at h
  simp only at h
  split at h <;> cases h
  rfl

theorem date?_of_digits (h : ∀ c ∈ ds, c.isDigit = true) : date? ds = none := by
  unfold date?
  cases hyear : fixed? 4 ds with
  | none => rfl
  | some p =>
    obtain ⟨year, cs⟩ := p
    have hcs : ∀ c ∈ cs, c.isDigit = true := by
      intro c hc
      rw [fixed?_snd hyear] at hc
      exact h c (List.mem_of_mem_drop hc)
    cases cs with
    | nil => rfl
    | cons c cs =>
      have hc : c ≠ '-' := Text.ne_of_holds (hcs c List.mem_cons_self) '-' (by decide)
      simp [hc]

/-- A token that is no date ends where something else begins. -/
theorem take?_of_token {token : List Char} (htoken : ∀ c ∈ token, isScalarChar c = true)
    (hrest : Stops isScalarChar rest) (hdate : date? token = none) :
    take? (token ++ rest) = (node? token).map (·, rest) := by
  unfold take?
  rw [List.span_eq_takeWhile_dropWhile, Text.takeWhile_append htoken hrest,
    Text.dropWhile_append htoken hrest]
  simp [hdate]

theorem digits?_self {isDigit : Char → Bool} (hunder : isDigit '_' = false)
    (h : ∀ c ∈ ds, isDigit c = true) (hne : ds ≠ []) : digits? isDigit ds = some ds := by
  fun_induction digits? isDigit ds with
  | case1 => exact absurd rfl hne
  | case2 c hc => rfl
  | case3 c hc => exact absurd (h c List.mem_cons_self) hc
  | case4 => simp [hunder] at h
  | case5 => simp [hunder] at h
  | case6 c rest hrest _ hc ih =>
    rw [List.forall_mem_cons] at h
    rw [ih h.2 (by rintro rfl; simp at hrest)]
    rfl
  | case7 c rest _ _ hc => exact absurd (h c List.mem_cons_self) hc

theorem decimal?_digits (n : Nat) : decimal? (digits n) = some (digits n) := by
  unfold decimal?
  rw [digits?_self (by decide) (fun c => Text.isDigit_of_mem_digits) (Text.digits_ne_nil n)]
  simp only
  refine if_neg fun h => ?_
  rcases Nat.eq_zero_or_pos n with rfl | hpos
  · exact h.2 rfl
  · exact Text.head?_digits hpos h.1

/-- A number of 64 bits with sign is read from its digits. -/
theorem integer?_digits {n : Nat} (h : n < Nat.pow 2 63) :
    integer? (digits n) = some (n : Int) := by
  have hsign : splitSign (digits n) = (false, digits n) := by
    unfold splitSign
    split
    next heq => exact absurd (heq ▸ List.mem_cons_self) (Text.notMem_digits (c := '+') rfl n)
    next heq => exact absurd (heq ▸ List.mem_cons_self) (Text.notMem_digits (c := '-') rfl n)
    next => rfl
  have hvalue : ofDigits 10 (digits n) = n := Text.foldl_digits digitValue (by decide) n
  unfold integer?
  split
  next heq => exact absurd (by simp [heq]) (Text.notMem_digits (c := 'x') rfl n)
  next heq => exact absurd (by simp [heq]) (Text.notMem_digits (c := 'o') rfl n)
  next heq => exact absurd (by simp [heq]) (Text.notMem_digits (c := 'b') rfl n)
  next =>
    rw [hsign]
    simp only [decimal?_digits, Option.bind_some, hvalue, signed?, Bool.false_eq_true, if_false]
    exact if_pos h

theorem node?_digits {n : Nat} (h : n < Nat.pow 2 63) : node? (digits n) = some (.integer n) := by
  have hletter {c : Char} (hc : c.isDigit = false) {word : List Char} (hword : c ∈ word) :
      digits n ≠ word := by
    rintro rfl
    exact Text.notMem_digits hc n hword
  unfold node?
  rw [if_neg (hletter (c := 't') rfl (by decide)), if_neg (hletter (c := 'f') rfl (by decide)),
    integer?_digits h]

theorem take?_digits {n : Nat} (h : n < Nat.pow 2 63) (hrest : Stops isScalarChar rest) :
    take? (digits n ++ rest) = some (.integer n, rest) := by
  have hchars : ∀ c ∈ digits n, isScalarChar c = true := by
    intro c hc
    have hdigit := Text.isDigit_of_mem_digits hc
    simp [isScalarChar, Char.isAlphanum, hdigit]
  rw [take?_of_token hchars hrest (date?_of_digits fun c => Text.isDigit_of_mem_digits),
    node?_digits h]
  rfl

theorem take?_boolean (b : Bool) (hrest : Stops isScalarChar rest) :
    take? ((if b then "true" else "false").toList ++ rest) = some (.boolean b, rest) := by
  cases b with
  | true => exact take?_of_token (List.all_eq_true.mp (by decide)) hrest (by decide)
  | false => exact take?_of_token (List.all_eq_true.mp (by decide)) hrest (by decide)

end Scalar

/-! ## Values behind their keys -/

/-- Behind the sign after its key and a blank, and up to the end of its line, this text is read as
the node. -/
def ReadAs (w : List Char) (node : Node) : Prop :=
  ∀ fuel rest, value? (fuel + 1) 0 (dropBlanks (' ' :: (w ++ '\n' :: rest))) =
    some (node, '\n' :: rest)

theorem dropBlanks_cons {c : Char} (h : isBlank c = false) (cs : List Char) :
    dropBlanks (c :: cs) = c :: cs := by
  simp [dropBlanks, h]

theorem dropBlanks_blank {c : Char} (h : isBlank c = true) (cs : List Char) :
    dropBlanks (c :: cs) = dropBlanks cs := by
  simp [dropBlanks, h]

theorem readAs_string (s : String) : ReadAs (Quoted.write s.toList) (.string s) := by
  intro fuel rest
  have htake : Quoted.take? (Quoted.write s.toList ++ '\n' :: rest) =
      some (s.toList, '\n' :: rest) := Quoted.take?_write s.toList (by simp) (by simp)
  rw [dropBlanks_blank rfl]
  obtain ⟨cs, heq | heq⟩ := Quoted.write_cons s.toList
  · rw [heq] at htake ⊢
    rw [List.cons_append, dropBlanks_cons rfl, value?]
    rw [List.cons_append] at htake
    simp [htake]
  · rw [heq] at htake ⊢
    rw [List.cons_append, dropBlanks_cons rfl, value?]
    rw [List.cons_append] at htake
    simp [htake]

/-- A value without quotes is one that begins with a letter or a digit. -/
theorem readAs_of_scalar {c : Char} (hc : c.isAlphanum = true)
    (h : ∀ rest, Stops Scalar.isScalarChar rest →
      Scalar.take? (c :: w ++ rest) = some (node, rest)) : ReadAs (c :: w) node := by
  intro fuel rest
  have hne := Text.ne_of_holds (p := Char.isAlphanum) hc
  have hblank : isBlank c = false := by
    simp [isBlank, hne ' ' rfl, hne '\t' rfl]
  rw [dropBlanks_blank rfl, List.cons_append, dropBlanks_cons hblank, value?]
  · exact h ('\n' :: rest) (Text.stops_cons rfl rest)
  all_goals simp [hne '[' rfl, hne '\x7b' rfl, hne '"' rfl,
    hne '\'' rfl]

theorem readAs_integer {n : Nat} (h : n < Nat.pow 2 63) : ReadAs (digits n) (.integer n) := by
  obtain ⟨c, cs, hdigits⟩ := List.exists_cons_of_ne_nil (Text.digits_ne_nil n)
  have hc : c.isDigit = true := Text.isDigit_of_mem_digits (n := n) (by simp [hdigits])
  rw [hdigits]
  refine readAs_of_scalar (by simp [Char.isAlphanum, hc]) fun rest hrest => ?_
  rw [← hdigits]
  exact Scalar.take?_digits h hrest

theorem readAs_boolean (b : Bool) : ReadAs (if b then "true" else "false").toList (.boolean b) := by
  cases b with
  | true => exact readAs_of_scalar (by decide) fun rest => Scalar.take?_boolean true
  | false => exact readAs_of_scalar (by decide) fun rest => Scalar.take?_boolean false

/-! ## Lines -/

/-- A key that may stand without quotes. -/
def isBare (key : String) : Bool := !key.toList.isEmpty && key.toList.all isBareChar

theorem dropSpace_bare {c : Char} (h : isBareChar c = true) (cs : List Char) :
    dropSpace false (c :: cs) = some (c :: cs) := by
  have hc := Text.ne_of_holds h
  rw [dropSpace.eq_4 _ _ _ (hc '\n' rfl) (fun _ heq => absurd heq (hc '\r' rfl))]
  simp [isBlank, hc ' ' rfl, hc '\t' rfl, hc '#' rfl, hc '\r' rfl]

theorem exists_of_isBare {key : String} (h : isBare key = true) :
    ∃ c cs, key.toList = c :: cs ∧ ∀ c' ∈ c :: cs, isBareChar c' = true := by
  simp only [isBare, Bool.and_eq_true, Bool.not_eq_true', List.isEmpty_eq_false_iff] at h
  obtain ⟨c, cs, hkey⟩ := List.exists_cons_of_ne_nil h.1
  exact ⟨c, cs, hkey, hkey ▸ List.all_eq_true.mp h.2⟩

theorem key?_bare {key : String} (h : isBare key = true) (hstops : Stops isBareChar rest)
    (hdot : ∀ more, dropBlanks rest ≠ '.' :: more) :
    key? (key.toList ++ rest) = some (([], key), dropBlanks rest) := by
  obtain ⟨c, cs, hkey, hbare⟩ := exists_of_isBare h
  have hc : isBareChar c = true := hbare c List.mem_cons_self
  have hblank : isBlank c = false := by
    simp [isBlank, Text.ne_of_holds hc ' ' rfl, Text.ne_of_holds hc '\t' rfl]
  have hline : Quoted.takeLine? (c :: cs ++ rest) = none := by
    rw [List.cons_append, Quoted.takeLine?]
    all_goals simp [Text.ne_of_holds hc '"' rfl, Text.ne_of_holds hc '\'' rfl]
  have hpart : keyPart? (c :: cs ++ rest) = some (key, rest) := by
    unfold keyPart?
    rw [hline, Text.takeWhile_append hbare hstops, Text.dropWhile_append hbare hstops]
    show some (String.ofList (c :: cs), rest) = some (key, rest)
    rw [← hkey, String.ofList_toList]
  show keyOf? (79 + 1) (key.toList ++ rest) = _
  rw [hkey, keyOf?, List.cons_append, dropBlanks_cons hblank, ← List.cons_append, hpart]
  simp only [Option.bind_eq_bind, Option.bind_some]

namespace Draft

/-- A header of one name begins a section. -/
theorem line?_header {name : String} (h : isBare name = true) (d : Draft) (rest : List Char) :
    d.line? ('[' :: name.toList ++ [']', '\n'] ++ rest) =
      (d.openTable [] name).map (·, '\n' :: rest) := by
  obtain ⟨c, cs, hname, hbare⟩ := exists_of_isBare h
  have hc := Text.ne_of_holds (hbare c List.mem_cons_self) '[' rfl
  have hkey : key? (c :: cs ++ ']' :: '\n' :: rest) = some (([], name), ']' :: '\n' :: rest) := by
    rw [← hname]
    exact key?_bare h (Text.stops_cons rfl _) (by simp [dropBlanks, isBlank])
  have htext : '[' :: name.toList ++ [']', '\n'] ++ rest =
      '[' :: (c :: cs ++ ']' :: '\n' :: rest) := by simp [hname]
  rw [htext, line?]
  · simp only [hkey, Option.bind_eq_bind, Option.bind_some]
    cases d.openTable [] name <;> rfl
  · simp [hc]

/-- A name with its value adds a key. -/
theorem line?_entry {key : String} (h : isBare key = true) (hw : ReadAs w node) (d : Draft)
    (rest : List Char) :
    d.line? (key.toList ++ [' ', '=', ' '] ++ w ++ ['\n'] ++ rest) =
      (d.addKey [] key node).map (·, '\n' :: rest) := by
  obtain ⟨c, cs, hname, hbare⟩ := exists_of_isBare h
  have hc := Text.ne_of_holds (hbare c List.mem_cons_self) '[' rfl
  have hkey : key? (c :: cs ++ ' ' :: '=' :: ' ' :: (w ++ '\n' :: rest)) =
      some (([], key), '=' :: ' ' :: (w ++ '\n' :: rest)) := by
    rw [← hname]
    exact key?_bare h (Text.stops_cons rfl _) (by simp [dropBlanks, isBlank])
  have htext : key.toList ++ [' ', '=', ' '] ++ w ++ ['\n'] ++ rest =
      c :: cs ++ ' ' :: '=' :: ' ' :: (w ++ '\n' :: rest) := by simp [hname]
  rw [htext, List.cons_append, line?]
  · have hvalue := hw (' ' :: (w ++ '\n' :: rest)).length rest
    rw [← List.cons_append]
    simp only [hkey, hvalue, Option.bind_eq_bind, Option.bind_some]
    cases d.addKey [] key node <;> rfl
  · simp [hc]
  · simp [hc]

theorem openTable_new {es : Entries} {name : String} (h : es.lookup name = none)
    (path : List String) : openTable ⟨es, path⟩ [] name =
      some ⟨es ++ [(name, .table .header [])], [name]⟩ := by
  have hput := Entries.put_append h [] (.table .header [])
  rw [List.append_nil] at hput
  simp only [openTable, Entries.openTable, Entries.alter, h, Option.map_some, hput,
    List.nil_append]
  rfl

/-- A key that is new to the last section is added to it. -/
theorem addKey_section {es inner : Entries} {name key : String} (hname : es.lookup name = none)
    (hkey : inner.lookup key = none) (node : Node) :
    addKey ⟨es ++ [(name, .table .header inner)], [name]⟩ [] key node =
      some ⟨es ++ [(name, .table .header (inner ++ [(key, node)]))], [name]⟩ := by
  have hlookup : List.lookup name (es ++ [(name, Node.table .header inner)]) =
      some (.table .header inner) := by
    rw [List.lookup_append, hname, Option.none_or, List.lookup_cons_self]
  have hput (inner' : Entries) := Entries.put_append hname [(name, Node.table .header inner)]
    (.table .header inner')
  simp [addKey, Entries.addKey, Entries.alter, hlookup, hkey, hput, Entries.put]

end Draft

/-- Read from the draft `d` on, however much fuel there is beyond its length, the text makes the
draft `d'`. -/
def Completes (d : Draft) (cs : List Char) (d' : Draft) : Prop :=
  ∀ fuel, cs.length < fuel → Draft.lines? fuel d cs = some d'

namespace Completes

variable {d d₁ d' : Draft}

theorem nil (d : Draft) : Completes d [] d := by
  intro fuel hfuel
  obtain ⟨fuel, rfl⟩ : ∃ n, fuel = n + 1 := ⟨fuel - 1, by omega⟩
  rfl

theorem blankLine (h : Completes d cs d') : Completes d ('\n' :: cs) d' := by
  intro fuel hfuel
  obtain ⟨fuel, rfl⟩ : ∃ n, fuel = n + 1 := ⟨fuel - 1, by omega⟩
  have hread := h (fuel + 1) (Nat.lt_of_succ_lt hfuel)
  rw [Draft.lines?] at hread ⊢
  exact hread

/-- **A line is read**, and then the rest of the text. -/
theorem line (hstart : dropSpace false cs = some cs)
    (hline : d.line? cs = some (d₁, '\n' :: rest)) (hlt : rest.length < cs.length)
    (h : Completes d₁ rest d') : Completes d cs d' := by
  intro fuel hfuel
  obtain ⟨fuel, rfl⟩ : ∃ n, fuel = n + 1 := ⟨fuel - 1, by omega⟩
  have hend : restOfLine? ('\n' :: rest) = some rest := rfl
  have hread := h fuel (by omega)
  obtain ⟨c, cs, rfl⟩ := List.exists_cons_of_length_pos (Nat.zero_lt_of_lt hlt)
  rw [Draft.lines?, hstart]
  simp only [Option.bind_eq_bind, Option.bind_some, hline, hend]
  cases rest with
  | nil => exact h 1 Nat.one_pos
  | cons c' rest => exact hread

theorem header {name : String} (hbare : isBare name = true) (hopen : d.openTable [] name = some d₁)
    (h : Completes d₁ rest d') : Completes d ('[' :: name.toList ++ [']', '\n'] ++ rest) d' := by
  refine line rfl ?_ ?_ h
  · have hline := Draft.line?_header hbare d rest
    rw [hopen] at hline
    exact hline
  · simp only [List.length_append, List.length_cons]
    omega

theorem entry {key : String} (hbare : isBare key = true) (hw : ReadAs w node)
    (hadd : d.addKey [] key node = some d₁) (h : Completes d₁ rest d') :
    Completes d (key.toList ++ [' ', '=', ' '] ++ w ++ ['\n'] ++ rest) d' := by
  have hline := Draft.line?_entry hbare hw d rest
  rw [hadd] at hline
  obtain ⟨c, cs, hkey, hchars⟩ := exists_of_isBare hbare
  rw [hkey] at hline ⊢
  refine line ?_ hline ?_ h
  · simp only [List.cons_append]
    exact dropSpace_bare (hchars c List.mem_cons_self) _
  · simp only [List.length_append, List.length_cons]
    omega

end Completes

end Wiretap.Toml
