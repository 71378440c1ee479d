import Wiretap.Toml.Quoted

/-!
# Texts in quotes

Each form of a quoted text has its own reader. The two basic forms share their escapes, and the two
forms of several lines share that up to two quotes in a row stand for themselves, also in front of
the closing ones.

Results:

* `basic_escape`, `multiBasic_escape`: a text with escapes is read as the text.
* `literal_self`, `multiLiteral_self`: a text that needs no escapes is read as it stands.
* `take?_write`: every text is read back from the form in which it is written.
-/

namespace Wiretap.Toml.Quoted

variable {c : Char} {s acc rest : List Char}

/-! ## Characters by their numbers -/

theorem upperHex_spec {k : Nat} (h : k < 16) :
    Scalar.isHexDigit (upperHex k) = true ∧ Scalar.digitValue (upperHex k) = k := by
  revert k
  decide

theorem scalarValue?_toNat (c : Char) : scalarValue? c.toNat = some c := by
  have hvalid : c.toNat.isValidChar := c.valid
  rw [scalarValue?, dif_pos hvalid]
  exact congrArg some (Char.ext (UInt32.toNat_inj.mp rfl))

/-- Four digits make the number of each character up to the last with four digits. -/
theorem ofHex?_upperHex (h : c.toNat < 0x10000) :
    ofHex? [upperHex (c.toNat / 4096 % 16), upperHex (c.toNat / 256 % 16),
      upperHex (c.toNat / 16 % 16), upperHex (c.toNat % 16)] = some c := by
  have hdigit (k : Nat) := upperHex_spec (Nat.mod_lt k (by decide : 0 < 16))
  have hvalue : Scalar.ofDigits 16 [upperHex (c.toNat / 4096 % 16), upperHex (c.toNat / 256 % 16),
      upperHex (c.toNat / 16 % 16), upperHex (c.toNat % 16)] = c.toNat := by
    simp only [Scalar.ofDigits, List.foldl_cons, List.foldl_nil, (hdigit _).2]
    omega
  have hall : [upperHex (c.toNat / 4096 % 16), upperHex (c.toNat / 256 % 16),
      upperHex (c.toNat / 16 % 16), upperHex (c.toNat % 16)].all Scalar.isHexDigit = true := by
    simp only [List.all_cons, List.all_nil, (hdigit _).1, Bool.and_self]
  rw [ofHex?, if_pos hall, hvalue, scalarValue?_toNat]

/-! ## Escapes -/

/-- What a reader of a basic form makes of a character, and of an escape. -/
structure Unescapes (read : List Char → List Char → Option (List Char × List Char)) : Prop where
  plain : ∀ {c} acc rest, isPlain c = true → c ≠ '"' → c ≠ '\\' →
    read acc (c :: rest) = read (c :: acc) rest
  simple : ∀ {e c} acc rest, simpleEscape? e = some c →
    read acc ('\\' :: e :: rest) = read (c :: acc) rest
  number : ∀ {a b d e c} acc rest, ofHex? [a, b, d, e] = some c →
    read acc ('\\' :: 'u' :: a :: b :: d :: e :: rest) = read (c :: acc) rest

theorem simpleEscape?_spec {e : Char} (h : simpleEscape? e = some c) :
    e ≠ 'x' ∧ e ≠ 'u' ∧ e ≠ 'U' ∧ e ≠ ' ' ∧ e ≠ '\t' ∧ e ≠ '\n' ∧ e ≠ '\r' := by
  refine ⟨?_, ?_, ?_, ?_, ?_, ?_, ?_⟩
  all_goals
    rintro rfl
    cases h

theorem unescapes_basic : Unescapes basic where
  plain acc rest hplain hquote hslash := by
    rw [basic.eq_7 _ _ _ hquote (fun _ _ _ h => absurd h hslash)
      (fun _ _ _ _ _ h => absurd h hslash) (fun _ _ _ _ _ _ _ _ _ h => absurd h hslash)
      (fun _ _ h => absurd h hslash), if_pos ⟨hplain, hslash⟩]
  simple acc rest h := by
    obtain ⟨hx, hu, hU, -⟩ := simpleEscape?_spec h
    rw [basic.eq_6 _ _ _ (fun _ _ _ h => absurd h hx) (fun _ _ _ _ _ h => absurd h hu)
      (fun _ _ _ _ _ _ _ _ _ h => absurd h hU), h, Option.bind_some]
  number acc rest h := by
    rw [basic.eq_4, h, Option.bind_some]

/-- Up to two quotes in a row stand for themselves on several lines. -/
theorem multiBasic_plain (hplain : isPlain c = true) (hslash : c ≠ '\\')
    (hquotes : c = '"' → ∀ more, rest ≠ '"' :: '"' :: more) (acc : List Char) :
    multiBasic acc .none (c :: rest) = multiBasic (c :: acc) .none rest := by
  have hline : c ≠ '\n' := by rintro rfl; exact absurd hplain (by decide)
  have hreturn : c ≠ '\r' := by rintro rfl; exact absurd hplain (by decide)
  have hthree (more : List Char) (hc : c = '"') : rest ≠ '"' :: '"' :: more := hquotes hc more
  rw [multiBasic.eq_24 _ _ _ _ (fun _ hc => hthree _ hc) (fun _ hc => hthree _ hc)
    (fun _ hc => hthree _ hc)]
  all_goals simp [hslash, hline, hreturn, hplain]

theorem unescapes_multiBasic : Unescapes (multiBasic · .none) where
  plain acc rest hplain hquote hslash :=
    multiBasic_plain hplain hslash (fun h => absurd h hquote) acc
  simple acc rest h := by
    obtain ⟨hx, hu, hU, hblank, htab, hline, hreturn⟩ := simpleEscape?_spec h
    rw [multiBasic.eq_21]
    all_goals simp [h, hx, hu, hU, hblank, htab, hline, hreturn]
  number acc rest h := by
    rw [multiBasic.eq_15, h, Option.bind_some]
    all_goals simp

/-- What is written of a character other than a quote and a line break is read as the character. -/
theorem Unescapes.read_escape {read : List Char → List Char → Option (List Char × List Char)}
    (h : Unescapes read) (multi : Bool) (run : Nat) (hquote : c ≠ '"') (hline : c ≠ '\n')
    (acc s rest : List Char) :
    read acc (escape multi run (c :: s) ++ rest) =
      read (c :: acc) (escape multi 0 s ++ rest) := by
  rw [escape.eq_def]
  split
  next heq => cases heq
  next heq => cases heq; exact absurd rfl hquote
  next heq => cases heq; exact h.simple acc _ rfl
  next heq => cases heq; exact h.simple acc _ rfl
  next heq => cases heq; exact absurd rfl hline
  next heq => cases heq; exact h.simple acc _ rfl
  next heq => cases heq; exact h.simple acc _ rfl
  next heq => cases heq; exact h.simple acc _ rfl
  next c' s' _ _ _ _ _ hslash heq =>
    cases heq
    split
    next hcontrol =>
      have hcode : c.toNat < 0x10000 := by omega
      exact h.number acc _ (ofHex?_upperHex hcode)
    next hplain =>
      have hplain : isPlain c = true := by
        rw [not_or, Nat.not_lt] at hplain
        simp [isPlain, hplain]
      exact h.plain acc _ hplain hquote fun heq => hslash heq

/-- What is written of a character begins with a backslash, or with the character. Only on several
lines can that be a quote or a line break. -/
theorem escape_cons (multi : Bool) (run : Nat) (c : Char) (s : List Char) :
    ∃ cs, escape multi run (c :: s) = '\\' :: cs ∨
      escape multi run (c :: s) = c :: cs ∧ c ≠ '\r' ∧ (c = '"' ∨ c = '\n' → multi = true) := by
  rw [escape.eq_def]
  split
  next heq => cases heq
  next heq =>
    cases heq
    by_cases hroom : run < if multi then 2 else 0
    · refine ⟨_, .inr ⟨if_pos hroom, by decide, fun _ => ?_⟩⟩
      cases multi with
      | true => rfl
      | false => cases hroom
    · exact ⟨_, .inl (if_neg hroom)⟩
  next heq => cases heq; exact ⟨_, .inl rfl⟩
  next heq => cases heq; exact ⟨_, .inl rfl⟩
  next heq =>
    cases heq
    split
    next hmulti => exact ⟨_, .inr ⟨rfl, by decide, fun _ => hmulti⟩⟩
    next => exact ⟨_, .inl rfl⟩
  next heq => cases heq; exact ⟨_, .inl rfl⟩
  next heq => cases heq; exact ⟨_, .inl rfl⟩
  next heq => cases heq; exact ⟨_, .inl rfl⟩
  next hquote _ _ hline _ hreturn _ heq =>
    cases heq
    split
    · exact ⟨_, .inl rfl⟩
    · exact ⟨_, .inr ⟨rfl, fun heq => hreturn heq, fun heq => (heq.elim hquote hline).elim⟩⟩

/-- **The basic form on one line** holds every text. -/
theorem basic_escape (s acc rest : List Char) :
    basic acc (escape false 0 s ++ '"' :: rest) = some (acc.reverse ++ s, rest) := by
  induction s generalizing acc with
  | nil => simp [escape, basic]
  | cons c s ih =>
    have hread : basic acc (escape false 0 (c :: s) ++ '"' :: rest) =
        basic (c :: acc) (escape false 0 s ++ '"' :: rest) := by
      by_cases hquote : c = '"'
      · subst hquote
        exact unescapes_basic.simple acc _ rfl
      · by_cases hline : c = '\n'
        · subst hline
          exact unescapes_basic.simple acc _ rfl
        · exact unescapes_basic.read_escape false 0 hquote hline acc s _
    rw [hread, ih, List.reverse_cons, List.append_assoc]
    rfl

/-! ## Several lines -/

/-- What a reader of several lines makes of its quotes: up to two in a row stand for themselves,
also in front of the closing ones. -/
structure Triples (q : Char) (read : List Char → List Char → Option (List Char × List Char)) :
    Prop where
  plain : ∀ acc rest, (∀ more, rest ≠ q :: q :: more) → read acc (q :: rest) = read (q :: acc) rest
  closing : ∀ n ≤ 2, ∀ acc rest, (∀ more, rest ≠ q :: more) →
    read acc (List.replicate n q ++ ([q, q, q] ++ rest)) =
      some (acc.reverse ++ List.replicate n q, rest)

/-- Quotes in front of something else stand for themselves. -/
theorem Triples.quotes {q : Char} {read : List Char → List Char → Option (List Char × List Char)}
    (h : Triples q read) {n : Nat} (hn : n ≤ 2) (hrest : ∀ more, rest ≠ q :: more)
    (acc : List Char) :
    read acc (List.replicate n q ++ rest) = read (List.replicate n q ++ acc) rest := by
  have hone (acc : List Char) : read acc (q :: rest) = read (q :: acc) rest :=
    h.plain acc rest fun _ heq => hrest _ heq
  have htwo : read acc (q :: q :: rest) = read (q :: acc) (q :: rest) :=
    h.plain acc (q :: rest) fun _ heq => hrest _ (List.cons.inj heq).2
  obtain rfl | rfl | rfl : n = 0 ∨ n = 1 ∨ n = 2 := by omega
  · rfl
  · exact hone acc
  · exact htwo.trans (hone _)

/-- Behind such quotes a character is read, and then the text `s`. -/
theorem Triples.reads {q c : Char} {read : List Char → List Char → Option (List Char × List Char)}
    (h : Triples q read) {n : Nat} (hn : n ≤ 2) {text text' s : List Char}
    (hhead : ∀ more, text ≠ q :: more) (hread : ∀ acc, read acc text = read (c :: acc) text')
    (hrest : ∀ acc, read acc text' = some (acc.reverse ++ s, rest)) (acc : List Char) :
    read acc (List.replicate n q ++ text) =
      some (acc.reverse ++ List.replicate n q ++ c :: s, rest) := by
  rw [h.quotes hn hhead, hread, hrest]
  simp

theorem triples_multiBasic : Triples '"' (multiBasic · .none) where
  plain acc rest hrest := multiBasic_plain (by decide) (by decide) (fun _ => hrest) acc
  closing n hn acc rest hrest := by
    obtain rfl | rfl | rfl : n = 0 ∨ n = 1 ∨ n = 2 := by omega
    · show multiBasic acc .none ('"' :: '"' :: '"' :: rest) = _
      rw [multiBasic.eq_13]
      all_goals simp_all
    · show multiBasic acc .none ('"' :: '"' :: '"' :: '"' :: rest) = _
      rw [multiBasic.eq_12]
      all_goals simp_all
    · show multiBasic acc .none ('"' :: '"' :: '"' :: '"' :: '"' :: rest) = _
      rw [multiBasic.eq_11]
      all_goals simp

/-- **The basic form on several lines** holds every text. Of the quotes that the writer has just put
down, the reader cannot tell yet whether they are the closing ones. -/
theorem multiBasic_escape {n : Nat} (hn : n ≤ 2) (s acc : List Char)
    (hrest : ∀ more, rest ≠ '"' :: more) :
    multiBasic acc .none (List.replicate n '"' ++ (escape true n s ++ (tripleBasic ++ rest))) =
      some (acc.reverse ++ List.replicate n '"' ++ s, rest) := by
  induction s generalizing n acc with
  | nil =>
    rw [escape, List.append_nil]
    exact triples_multiBasic.closing n hn acc rest hrest
  | cons c s ih =>
    have hrec (acc : List Char) : multiBasic acc .none (escape true 0 s ++ (tripleBasic ++ rest)) =
        some (acc.reverse ++ s, rest) := by
      simpa using ih (Nat.zero_le 2) acc
    by_cases hquote : c = '"'
    · subst hquote
      by_cases hroom : n < 2
      · have hescape : escape true n ('"' :: s) = '"' :: escape true (n + 1) s := if_pos hroom
        have hnext := ih hroom acc
        rw [List.replicate_succ', List.append_assoc, List.singleton_append] at hnext
        rw [hescape, List.cons_append, hnext]
        simp
      · have hescape : escape true n ('"' :: s) = '\\' :: '"' :: escape true 0 s := if_neg hroom
        refine triples_multiBasic.reads hn (fun more => ?_) (fun acc => ?_) hrec acc
        · rw [hescape]
          simp
        · rw [hescape]
          exact unescapes_multiBasic.simple acc _ rfl
    · refine triples_multiBasic.reads hn (fun more => ?_) (fun acc => ?_) hrec acc
      · obtain ⟨cs, heq | ⟨heq, -⟩⟩ := escape_cons true n c s
        · rw [heq]
          simp
        · rw [heq]
          simp [hquote]
      · by_cases hline : c = '\n'
        · subst hline
          exact multiBasic.eq_22 _ _ _ nofun nofun
        · exact unescapes_multiBasic.read_escape true n hquote hline acc s _

/-! ## Texts without escapes -/

theorem isPlain_of_needsCode (h : needsCode c = false) (hline : c ≠ '\n') : isPlain c = true := by
  by_cases htab : c = '\t'
  · subst htab
    rfl
  · simp [needsCode, htab, hline] at h
    simp [isPlain, h]

theorem le_longestRun (q : Char) (run : Nat) (s : List Char) : run ≤ longestRun q run s := by
  induction s generalizing run with
  | nil => exact Nat.le_refl run
  | cons c s ih =>
    rw [longestRun]
    split
    · exact Nat.le_of_succ_le (ih (run + 1))
    · exact Nat.le_max_left _ _

theorem notMem_of_longestRun {q : Char} (h : longestRun q 0 s = 0) : q ∉ s := by
  induction s with
  | nil => exact List.not_mem_nil
  | cons c s ih =>
    rw [longestRun] at h
    split at h
    next => exact absurd h (Nat.ne_of_gt (le_longestRun q 1 s))
    next hc =>
      rw [List.mem_cons, not_or]
      exact ⟨fun heq => hc heq.symm, ih (by omega)⟩

/-- **The literal form on one line** is read as it stands. -/
theorem literal_self (hplain : ∀ c ∈ s, isPlain c = true) (hquote : '\'' ∉ s)
    (acc rest : List Char) : literal acc (s ++ '\'' :: rest) = some (acc.reverse ++ s, rest) := by
  induction s generalizing acc with
  | nil => simp [literal]
  | cons c s ih =>
    rw [List.forall_mem_cons] at hplain
    rw [List.mem_cons, not_or] at hquote
    rw [List.cons_append, literal.eq_3 _ _ _ fun heq => hquote.1 heq.symm, if_pos hplain.1,
      ih hplain.2 hquote.2, List.reverse_cons, List.append_assoc]
    rfl

theorem triples_multiLiteral : Triples '\'' multiLiteral where
  plain acc rest hrest := by
    rw [multiLiteral.eq_7]
    all_goals simp [isPlain, hrest]
  closing n hn acc rest hrest := by
    obtain rfl | rfl | rfl : n = 0 ∨ n = 1 ∨ n = 2 := by omega
    · show multiLiteral acc ('\'' :: '\'' :: '\'' :: rest) = _
      rw [multiLiteral.eq_4]
      all_goals simp_all
    · show multiLiteral acc ('\'' :: '\'' :: '\'' :: '\'' :: rest) = _
      rw [multiLiteral.eq_3]
      all_goals simp_all
    · show multiLiteral acc ('\'' :: '\'' :: '\'' :: '\'' :: '\'' :: rest) = _
      rw [multiLiteral.eq_2]
      simp

/-- **The literal form on several lines** is read as it stands. -/
theorem multiLiteral_self {n : Nat} (hn : n ≤ 2) (hcodes : ∀ c ∈ s, needsCode c = false)
    (hrun : longestRun '\'' n s ≤ 2) (acc : List Char) (hrest : ∀ more, rest ≠ '\'' :: more) :
    multiLiteral acc (List.replicate n '\'' ++ (s ++ (tripleLiteral ++ rest))) =
      some (acc.reverse ++ List.replicate n '\'' ++ s, rest) := by
  induction s generalizing n acc with
  | nil =>
    rw [List.append_nil]
    exact triples_multiLiteral.closing n hn acc rest hrest
  | cons c s ih =>
    rw [List.forall_mem_cons] at hcodes
    rw [longestRun] at hrun
    split at hrun
    next hquote =>
      subst hquote
      have hroom : n + 1 ≤ 2 := Nat.le_trans (le_longestRun _ _ _) hrun
      have hnext := ih hroom hcodes.2 hrun acc
      rw [List.replicate_succ', List.append_assoc, List.singleton_append] at hnext
      rw [List.cons_append, hnext]
      simp
    next hquote =>
      have hread (acc : List Char) : multiLiteral acc (c :: (s ++ (tripleLiteral ++ rest))) =
          multiLiteral (c :: acc) (s ++ (tripleLiteral ++ rest)) := by
        have hreturn : c ≠ '\r' := by
          rintro rfl
          exact absurd hcodes.1 (by decide)
        by_cases hline : c = '\n'
        · subst hline
          rfl
        · rw [multiLiteral.eq_7]
          all_goals simp [hquote, hline, hreturn, isPlain_of_needsCode hcodes.1 hline]
      have hrec (acc : List Char) : multiLiteral acc (s ++ (tripleLiteral ++ rest)) =
          some (acc.reverse ++ s, rest) := by
        have hrun' : longestRun '\'' 0 s ≤ 2 := Nat.le_trans (Nat.le_max_right _ _) hrun
        simpa using ih (Nat.zero_le 2) hcodes.2 hrun' acc
      exact triples_multiLiteral.reads hn (by simp [hquote]) hread hrec acc

/-! ## All forms -/

theorem take?_one_basic (h : ∀ more, rest ≠ '"' :: '"' :: more) :
    take? ('"' :: rest) = basic [] rest := by
  rw [take?.eq_3]
  · rfl
  · exact fun more heq => h more (List.cons.inj heq).2
  · simp

theorem take?_one_literal (h : ∀ more, rest ≠ '\'' :: '\'' :: more) :
    take? ('\'' :: rest) = literal [] rest := by
  rw [take?.eq_3]
  · rfl
  · simp
  · exact fun more heq => h more (List.cons.inj heq).2

/-- Behind the opening quotes of several lines, the line break that the writer has put there is left
out, and nothing else. -/
theorem dropBreak_open {lines : Bool} (hline : lines = false → ∀ more, rest ≠ '\n' :: more)
    (hreturn : ∀ more, rest ≠ '\r' :: more) :
    dropBreak ((if lines then ['\n'] else []) ++ rest) = rest := by
  cases lines with
  | true => rfl
  | false =>
    show dropBreak rest = rest
    unfold dropBreak
    split
    next => exact absurd rfl (hline rfl _)
    next => exact absurd rfl (hreturn _)
    next => rfl

theorem take?_basic (s : List Char) (hrest : ∀ more, rest ≠ '"' :: more) :
    take? ('"' :: escape false 0 s ++ ['"'] ++ rest) = some (s, rest) := by
  have htext : '"' :: escape false 0 s ++ ['"'] ++ rest =
      '"' :: (escape false 0 s ++ '"' :: rest) := by simp
  rw [htext, take?_one_basic, basic_escape]
  · rfl
  · intro more
    cases s with
    | nil =>
      rw [escape]
      simpa using hrest more
    | cons c s =>
      obtain ⟨cs, heq | ⟨heq, -, hmulti⟩⟩ := escape_cons false 0 c s
      · rw [heq]
        simp
      · rw [heq]
        intro h
        exact nomatch hmulti (.inl (List.cons.inj h).1)

theorem take?_literal (hplain : ∀ c ∈ s, isPlain c = true) (hquote : '\'' ∉ s) (hs : s ≠ []) :
    take? ('\'' :: s ++ ['\''] ++ rest) = some (s, rest) := by
  have htext : '\'' :: s ++ ['\''] ++ rest = '\'' :: (s ++ '\'' :: rest) := by simp
  rw [htext, take?_one_literal, literal_self hplain hquote]
  · rfl
  · obtain ⟨c, s, rfl⟩ := List.exists_cons_of_ne_nil hs
    intro more heq
    obtain rfl : c = '\'' := (List.cons.inj heq).1
    exact hquote List.mem_cons_self

theorem take?_multiBasic (s : List Char) (hrest : ∀ more, rest ≠ '"' :: more) :
    take? (tripleBasic ++ (if s.contains '\n' then ['\n'] else []) ++ escape true 0 s ++
      tripleBasic ++ rest) = some (s, rest) := by
  have hopen : dropBreak ((if s.contains '\n' then ['\n'] else []) ++
      (escape true 0 s ++ (tripleBasic ++ rest))) = escape true 0 s ++ (tripleBasic ++ rest) := by
    cases s with
    | nil => rfl
    | cons c s =>
      obtain ⟨cs, heq | ⟨heq, hreturn, -⟩⟩ := escape_cons true 0 c s
      · exact dropBreak_open (by simp [heq]) (by simp [heq])
      · refine dropBreak_open (fun hlines more => ?_) (by simp [heq, hreturn])
        rw [heq]
        rintro ⟨⟩
        simp at hlines
  have hread := multiBasic_escape (Nat.zero_le 2) s [] hrest
  simp only [List.append_assoc]
  exact (congrArg (multiBasic [] .none) hopen).trans hread

theorem take?_multiLiteral (hcodes : ∀ c ∈ s, needsCode c = false)
    (hrun : longestRun '\'' 0 s ≤ 2) (hrest : ∀ more, rest ≠ '\'' :: more) :
    take? (tripleLiteral ++ (if s.contains '\n' then ['\n'] else []) ++ s ++ tripleLiteral ++
      rest) = some (s, rest) := by
  have hopen : dropBreak ((if s.contains '\n' then ['\n'] else []) ++
      (s ++ (tripleLiteral ++ rest))) = s ++ (tripleLiteral ++ rest) := by
    cases s with
    | nil => rfl
    | cons c s =>
      have hreturn : c ≠ '\r' := by
        rintro rfl
        exact absurd (hcodes _ List.mem_cons_self) (by decide)
      refine dropBreak_open (fun hlines more => ?_) (by simp [hreturn])
      rintro ⟨⟩
      simp at hlines
  have hread := multiLiteral_self (Nat.zero_le 2) hcodes hrun [] hrest
  simp only [List.append_assoc]
  exact (congrArg (multiLiteral []) hopen).trans hread

/-- **A text is read back from its quotes**, whatever it holds and whatever follows them. -/
theorem take?_write (s : List Char) (hbasic : ∀ more, rest ≠ '"' :: more)
    (hliteral : ∀ more, rest ≠ '\'' :: more) : take? (write s ++ rest) = some (s, rest) := by
  have hcodes (h : (!s.any needsCode) = true) : ∀ c ∈ s, needsCode c = false := by
    simpa using h
  unfold write
  simp only
  split
  next => exact take?_basic s hbasic
  next hfirst =>
    split
    next h =>
      simp only [Bool.and_eq_true, decide_eq_true_eq] at h
      obtain ⟨⟨hnone, hsingles⟩, hlines⟩ := h
      have hline : '\n' ∉ s := by simpa using hlines
      refine take?_literal (fun c hc => isPlain_of_needsCode (hcodes hnone c hc) ?_)
        (notMem_of_longestRun hsingles) ?_
      · rintro rfl
        exact hline hc
      · rintro rfl
        exact hfirst rfl
    next =>
      split
      next => exact take?_multiBasic s hbasic
      next =>
        split
        next h =>
          simp only [Bool.and_eq_true, decide_eq_true_eq] at h
          exact take?_multiLiteral (hcodes h.1) h.2 hliteral
        next =>
          split
          next hlines =>
            have hread := take?_multiBasic s hbasic
            rw [if_pos hlines] at hread
            exact hread
          next => exact take?_basic s hbasic

/-- What is written begins with a quote. -/
theorem write_cons (s : List Char) : ∃ cs, write s = '"' :: cs ∨ write s = '\'' :: cs := by
  unfold write
  simp only
  split
  next => exact ⟨_, .inl rfl⟩
  next =>
    split
    next => exact ⟨_, .inr rfl⟩
    next =>
      split
      next => exact ⟨_, .inl rfl⟩
      next =>
        split
        next => exact ⟨_, .inr rfl⟩
        next =>
          split
          next => exact ⟨_, .inl rfl⟩
          next => exact ⟨_, .inl rfl⟩

end Wiretap.Toml.Quoted
