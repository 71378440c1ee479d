import Mathlib.Data.List.Infix
import Wiretap.Text.Lowercase

/-!
# Small letters among others

The small form of a character depends on what stands around it only where it is a capital sigma: one
that ends a word has another small form than the rest. So a text that is put between others keeps
its small form, except for those of its sigmas that end a word there and not by themselves, or the
other way round.

Results:

* `lower_append`: the small form of a text between others.
* `lowerBetween_congr`: it is the same where the same sigmas end words.
* `count_lowerBetween_lt`: it is another one where they differ.
* `lower_congr`: the case of the letters of the basic alphabet is of no account.
* `occursIn_iff`: what it means to occur in a text.
-/

namespace Wiretap.Text

/-- Whether the first character that is not looked past has a case, where there is one. -/
def nearestCase (text : List Char) : Option Bool :=
  (text.find? fun c => !isCaseIgnorable c).map isCased

/-- A capital sigma between these texts ends a word: the last character before it that is not looked
past has a case, and the first one behind it has none, or there is none. -/
def EndsWord (before after : List Char) : Prop :=
  nearestCase before.reverse = some true ∧ nearestCase after ≠ some true

instance (before after : List Char) : Decidable (EndsWord before after) :=
  inferInstanceAs (Decidable (_ ∧ _))

/-- The small form of a character between these texts. -/
def smallBetween (before : List Char) (c : Char) (after : List Char) : List Char :=
  if c = 'Σ' then (if EndsWord before after then ['ς'] else ['σ']) else lowerChar c

/-- The small form of a text between two others, of which the first is `before`. -/
def lowerBetween (before : List Char) : List Char → List Char → List Char
  | [], _ => []
  | c :: rest, after =>
    smallBetween before c (rest ++ after) ++ lowerBetween (before ++ [c]) rest after

variable {before before' after after' text x y : List Char}

/-! ## One character -/

theorem nearestCase_append (text more : List Char) :
    nearestCase (text ++ more) = (nearestCase text).or (nearestCase more) := by
  unfold nearestCase
  rw [List.find?_append, Option.map_or]

theorem nearestCase_cons (c : Char) (rest : List Char) :
    nearestCase (c :: rest) = if isCaseIgnorable c then nearestCase rest else some (isCased c) := by
  unfold nearestCase
  rw [List.find?_cons]
  cases isCaseIgnorable c <;> rfl

theorem casedAhead_eq (text : List Char) :
    casedAhead text = decide (nearestCase text = some true) := by
  induction text with
  | nil => rfl
  | cons c rest ih =>
    rw [casedAhead, nearestCase_cons, ih]
    split
    next => rfl
    next => simp

/-! ## A text between others -/

theorem lowerAfter_eq (text before : List Char) :
    lowerAfter (decide (nearestCase before.reverse = some true)) text =
      lowerBetween before text [] := by
  induction text generalizing before with
  | nil => rfl
  | cons c rest ih =>
    have hnext : (if isCaseIgnorable c then decide (nearestCase before.reverse = some true)
        else isCased c) = decide (nearestCase (before ++ [c]).reverse = some true) := by
      rw [List.reverse_concat, nearestCase_cons]
      split
      next => rfl
      next => simp
    have hsmall : (if c = 'Σ' then
        if decide (nearestCase before.reverse = some true) && !casedAhead rest then ['ς'] else ['σ']
        else lowerChar c) = smallBetween before c rest := by
      simp only [smallBetween, EndsWord, casedAhead_eq, Bool.and_eq_true, decide_eq_true_eq,
        Bool.not_eq_true', decide_eq_false_iff_not]
      rfl
    rw [lowerAfter, lowerBetween, hnext, hsmall, ih, List.append_nil]

theorem lower_eq (text : List Char) : lower text = lowerBetween [] text [] := lowerAfter_eq text []

theorem lowerBetween_append (before text more after : List Char) :
    lowerBetween before (text ++ more) after =
      lowerBetween before text (more ++ after) ++ lowerBetween (before ++ text) more after := by
  induction text generalizing before with
  | nil => rw [List.append_nil]; rfl
  | cons c rest ih =>
    rw [List.cons_append, lowerBetween, lowerBetween, ih, List.append_assoc, List.append_assoc,
      List.append_assoc]
    rfl

/-- The small form of a text between others is part of that of the whole. -/
theorem lower_append (before text after : List Char) :
    lower (before ++ (text ++ after)) = lowerBetween [] before (text ++ after) ++
      (lowerBetween before text after ++ lowerBetween (before ++ text) after []) := by
  rw [lower_eq, lowerBetween_append, lowerBetween_append, List.append_nil, List.append_nil]
  rfl

/-- A text has the same small form in two places where the same of its sigmas end words. -/
theorem lowerBetween_congr
    (h : ∀ x y, text = x ++ 'Σ' :: y →
      (EndsWord (before ++ x) (y ++ after) ↔ EndsWord (before' ++ x) (y ++ after'))) :
    lowerBetween before text after = lowerBetween before' text after' := by
  induction text generalizing before before' with
  | nil => rfl
  | cons c rest ih =>
    have hsmall :
        smallBetween before c (rest ++ after) = smallBetween before' c (rest ++ after') := by
      unfold smallBetween
      split
      next hc =>
        have hends := h [] rest (by rw [hc]; rfl)
        rw [List.append_nil, List.append_nil] at hends
        simp only [hends]
      next => rfl
    have hrest :
        lowerBetween (before ++ [c]) rest after = lowerBetween (before' ++ [c]) rest after' := by
      refine ih fun x y hxy => ?_
      rw [List.append_assoc, List.append_assoc]
      exact h (c :: x) y (by rw [hxy]; rfl)
    rw [lowerBetween, lowerBetween, hsmall, hrest]

/-! ## Where the small forms differ -/

/-- Where more sigmas end words, more of them have the small form for that. -/
theorem count_lowerBetween_le
    (h : ∀ x y, text = x ++ 'Σ' :: y →
      EndsWord (before ++ x) (y ++ after) → EndsWord (before' ++ x) (y ++ after')) :
    (lowerBetween before' text after').count 'σ' ≤ (lowerBetween before text after).count 'σ' ∧
      (lowerBetween before text after).count 'ς' ≤
        (lowerBetween before' text after').count 'ς' := by
  induction text generalizing before before' with
  | nil => exact ⟨Nat.le_refl _, Nat.le_refl _⟩
  | cons c rest ih =>
    have hsmall :
        (smallBetween before' c (rest ++ after')).count 'σ' ≤
            (smallBetween before c (rest ++ after)).count 'σ' ∧
          (smallBetween before c (rest ++ after)).count 'ς' ≤
            (smallBetween before' c (rest ++ after')).count 'ς' := by
      unfold smallBetween
      split
      next hc =>
        have hends := h [] rest (by rw [hc]; rfl)
        rw [List.append_nil, List.append_nil] at hends
        by_cases hbefore : EndsWord before (rest ++ after)
        · rw [if_pos hbefore, if_pos (hends hbefore)]
          exact ⟨Nat.le_refl _, Nat.le_refl _⟩
        · rw [if_neg hbefore]
          split <;> decide
      next => exact ⟨Nat.le_refl _, Nat.le_refl _⟩
    have hnext : ∀ x y, rest = x ++ 'Σ' :: y → EndsWord (before ++ [c] ++ x) (y ++ after) →
        EndsWord (before' ++ [c] ++ x) (y ++ after') := by
      intro x y hxy
      rw [List.append_assoc, List.append_assoc]
      exact h (c :: x) y (by rw [hxy]; rfl)
    have hrest := ih hnext
    simp only [lowerBetween, List.count_append]
    omega

/-- A sigma that ends a word in the second place only tells the two small forms apart. -/
theorem count_lowerBetween_lt
    (h : ∀ x y, text = x ++ 'Σ' :: y →
      EndsWord (before ++ x) (y ++ after) → EndsWord (before' ++ x) (y ++ after'))
    (htext : text = x ++ 'Σ' :: y) (hnot : ¬ EndsWord (before ++ x) (y ++ after))
    (hends : EndsWord (before' ++ x) (y ++ after')) :
    (lowerBetween before' text after').count 'σ' < (lowerBetween before text after).count 'σ' ∧
      (lowerBetween before text after).count 'ς' <
        (lowerBetween before' text after').count 'ς' := by
  subst htext
  have hx : ∀ u v, x = u ++ 'Σ' :: v → EndsWord (before ++ u) (v ++ ('Σ' :: y ++ after)) →
      EndsWord (before' ++ u) (v ++ ('Σ' :: y ++ after')) := by
    intro u v huv
    have hu := h u (v ++ 'Σ' :: y) (by rw [huv, List.append_assoc]; rfl)
    rwa [List.append_assoc, List.append_assoc] at hu
  have hy : ∀ u v, y = u ++ 'Σ' :: v → EndsWord (before ++ x ++ ['Σ'] ++ u) (v ++ after) →
      EndsWord (before' ++ x ++ ['Σ'] ++ u) (v ++ after') := by
    intro u v huv
    have hu := h (x ++ 'Σ' :: u) v (by rw [huv, List.append_assoc]; rfl)
    simpa using hu
  have hfront := count_lowerBetween_le hx
  have hback := count_lowerBetween_le hy
  rw [lowerBetween_append, lowerBetween_append, lowerBetween, lowerBetween, smallBetween,
    smallBetween, if_pos rfl, if_pos rfl, if_neg hnot, if_pos hends]
  simp only [List.count_append]
  have hσ : ['σ'].count 'σ' = 1 ∧ ['σ'].count 'ς' = 0 := by decide
  have hς : ['ς'].count 'σ' = 0 ∧ ['ς'].count 'ς' = 1 := by decide
  omega

/-! ## Texts that keep their small form everywhere -/

/-- Whether a sigma of the text ends a word does not depend on what stands around the text. -/
def Settled (text : List Char) : Prop :=
  ∀ x y, text = x ++ 'Σ' :: y → nearestCase x.reverse = some false ∨ nearestCase y = some true ∨
    nearestCase x.reverse = some true ∧ nearestCase y = some false

theorem settled_iff_forall : Settled text ↔ ∀ i : Fin text.length, text[i] = 'Σ' →
    nearestCase (text.take i).reverse = some false ∨ nearestCase (text.drop (i + 1)) = some true ∨
      nearestCase (text.take i).reverse = some true ∧
        nearestCase (text.drop (i + 1)) = some false := by
  constructor
  · intro h i hi
    refine h _ _ ?_
    rw [← hi]
    exact (List.take_append_drop i text).symm.trans (by rw [List.drop_eq_getElem_cons i.isLt]; rfl)
  · rintro h x y rfl
    have hdrop : (x ++ 'Σ' :: y).drop (x.length + 1) = y := by
      rw [List.append_cons, List.drop_left' (by simp)]
    have hx := h ⟨x.length, by simp⟩ (by simp)
    rwa [List.take_left, hdrop] at hx

instance (text : List Char) : Decidable (Settled text) := decidable_of_iff' _ settled_iff_forall

theorem endsWord_append_iff : EndsWord (before ++ x) (y ++ after) ↔
    (nearestCase x.reverse).or (nearestCase before.reverse) = some true ∧
      (nearestCase y).or (nearestCase after) ≠ some true := by
  rw [EndsWord, List.reverse_append, nearestCase_append, nearestCase_append]

theorem Settled.endsWord_iff (h : Settled text) (htext : text = x ++ 'Σ' :: y) :
    EndsWord (before ++ x) (y ++ after) ↔ EndsWord x y := by
  rw [endsWord_append_iff, EndsWord]
  rcases h x y htext with hx | hy | ⟨hx, hy⟩
  · simp [hx]
  · simp [hy]
  · simp [hx, hy]

/-- The small form of a text occurs where the same of its sigmas end words as in the text by
itself. -/
theorem isInfix_lower (h : ∀ x y, text = x ++ 'Σ' :: y →
    (EndsWord (before ++ x) (y ++ after) ↔ EndsWord x y)) :
    lower text <:+: lower (before ++ (text ++ after)) := by
  have hsame : lowerBetween before text after = lower text := by
    rw [lower_eq]
    refine lowerBetween_congr fun x y hxy => ?_
    rw [h x y hxy, List.nil_append, List.append_nil]
  rw [lower_append, hsame, ← List.append_assoc]
  exact List.infix_append _ _ _

theorem lowerBetween_letter (before after : List Char) :
    lowerBetween before ['A'] after = ['a'] := by
  rw [lowerBetween, lowerBetween, smallBetween, if_neg (by decide), lowerChar_ascii (by decide)]
  rfl

theorem nearestCase_letter : nearestCase ['A'] = some true := by decide +kernel

theorem endsWord_alone : EndsWord ([] ++ x) (y ++ []) ↔ EndsWord x y := by
  rw [List.nil_append, List.append_nil]

theorem endsWord_behind_letter : EndsWord (['A'] ++ x) (y ++ []) ↔
    nearestCase x.reverse ≠ some false ∧ nearestCase y ≠ some true := by
  rw [endsWord_append_iff, List.reverse_singleton, nearestCase_letter,
    show nearestCase [] = none from rfl, Option.or_none]
  refine and_congr_left fun _ => ?_
  rcases nearestCase x.reverse with _ | _ | _ <;> simp

theorem endsWord_before_letter : EndsWord ([] ++ x) (y ++ ['A']) ↔
    nearestCase x.reverse = some true ∧ nearestCase y = some false := by
  rw [endsWord_append_iff, List.reverse_nil, nearestCase_letter,
    show nearestCase [] = none from rfl, Option.or_none]
  refine and_congr_right fun _ => ?_
  rcases nearestCase y with _ | _ | _ <;> simp

/-- A sigma at the front of a text may end a word where a letter stands before it. -/
theorem not_isInfix_lower_behind (htext : text = x ++ 'Σ' :: y) (hx : nearestCase x.reverse = none)
    (hy : nearestCase y ≠ some true) : ¬ lower text <:+: lower (['A'] ++ (text ++ [])) := by
  have hmore : ∀ u v, text = u ++ 'Σ' :: v →
      EndsWord ([] ++ u) (v ++ []) → EndsWord (['A'] ++ u) (v ++ []) := by
    intro u v _ hends
    obtain ⟨hu, hv⟩ := endsWord_alone.mp hends
    exact endsWord_behind_letter.mpr ⟨by simp [hu], hv⟩
  have hnot : ¬ EndsWord ([] ++ x) (y ++ []) := by
    rw [endsWord_alone, EndsWord, hx]
    simp
  have hends : EndsWord (['A'] ++ x) (y ++ []) := endsWord_behind_letter.mpr ⟨by simp [hx], hy⟩
  have hlt := (count_lowerBetween_lt hmore htext hnot hends).1
  intro hinfix
  have hle := hinfix.sublist.count_le 'σ'
  rw [lower_append, lower_eq, lowerBetween_letter, lowerBetween, List.append_nil, List.count_append,
    show ['a'].count 'σ' = 0 by decide] at hle
  omega

/-- A sigma at the end of a text does not end a word where a letter stands behind it. -/
theorem not_isInfix_lower_before (htext : text = x ++ 'Σ' :: y)
    (hx : nearestCase x.reverse = some true) (hy : nearestCase y = none) :
    ¬ lower text <:+: lower ([] ++ (text ++ ['A'])) := by
  have hmore : ∀ u v, text = u ++ 'Σ' :: v →
      EndsWord ([] ++ u) (v ++ ['A']) → EndsWord ([] ++ u) (v ++ []) := by
    intro u v _ hends
    obtain ⟨hu, hv⟩ := endsWord_before_letter.mp hends
    exact endsWord_alone.mpr ⟨hu, by simp [hv]⟩
  have hnot : ¬ EndsWord ([] ++ x) (y ++ ['A']) := by
    rw [endsWord_before_letter, hy]
    simp
  have hends : EndsWord ([] ++ x) (y ++ []) := endsWord_alone.mpr ⟨hx, by simp [hy]⟩
  have hlt := (count_lowerBetween_lt hmore htext hnot hends).2
  intro hinfix
  have hle := hinfix.sublist.count_le 'ς'
  rw [lower_append, lower_eq, lowerBetween_letter, lowerBetween, List.nil_append, List.count_append,
    show ['a'].count 'ς' = 0 by decide] at hle
  omega

/-- A letter in front of a text, or behind it, can tell apart what its sigmas leave open. -/
theorem exists_of_not_settled (h : ¬ Settled text) :
    ∃ before after, ¬ lower text <:+: lower (before ++ (text ++ after)) := by
  simp only [Settled, not_forall, not_or, not_and] at h
  obtain ⟨x, y, htext, hx, hy, hxy⟩ := h
  cases hcase : nearestCase x.reverse with
  | none => exact ⟨_, _, not_isInfix_lower_behind htext hcase hy⟩
  | some cased =>
    cases cased with
    | false => exact absurd hcase hx
    | true =>
      refine ⟨_, _, not_isInfix_lower_before htext hcase ?_⟩
      cases hcase' : nearestCase y with
      | none => rfl
      | some cased' =>
        cases cased' with
        | false => exact absurd hcase' (hxy hcase)
        | true => exact absurd hcase' hy

/-! ## The case of the basic alphabet -/

/-- A letter of the basic alphabet and its small letter are alike. -/
theorem toLower_alike (c : Char) : lowerChar c.toLower = lowerChar c ∧
    isCaseIgnorable c.toLower = isCaseIgnorable c ∧ isCased c.toLower = isCased c ∧
    (c.toLower = 'Σ' ↔ c = 'Σ') := by
  by_cases hcapital : c.val ≥ 'A'.val ∧ c.val ≤ 'Z'.val
  · have hletters : ∀ n : Fin 26, let c := Char.ofNat (65 + n)
        lowerChar c.toLower = lowerChar c ∧ isCaseIgnorable c.toLower = isCaseIgnorable c ∧
          isCased c.toLower = isCased c ∧ (c.toLower = 'Σ' ↔ c = 'Σ') := by
      decide +kernel
    have hA : 65 ≤ c.toNat := hcapital.1
    have hZ : c.toNat ≤ 90 := hcapital.2
    have hletter := hletters ⟨c.toNat - 65, by omega⟩
    rwa [show 65 + (c.toNat - 65) = c.toNat by omega, Char.ofNat_toNat] at hletter
  · have hlower : c.toLower = c := dif_neg hcapital
    rw [hlower]
    exact ⟨rfl, rfl, rfl, Iff.rfl⟩

/-- The texts differ at most in the case of letters of the basic alphabet. -/
def SameLetters (text text' : List Char) : Prop := text.map Char.toLower = text'.map Char.toLower

instance (text text' : List Char) : Decidable (SameLetters text text') :=
  inferInstanceAs (Decidable (_ = _))

theorem casedAhead_map (text : List Char) :
    casedAhead (text.map Char.toLower) = casedAhead text := by
  induction text with
  | nil => rfl
  | cons c rest ih =>
    obtain ⟨-, hignorable, hcased, -⟩ := toLower_alike c
    rw [List.map_cons, casedAhead, casedAhead, hignorable, hcased, ih]

theorem lowerAfter_map (casedBefore : Bool) (text : List Char) :
    lowerAfter casedBefore (text.map Char.toLower) = lowerAfter casedBefore text := by
  induction text generalizing casedBefore with
  | nil => rfl
  | cons c rest ih =>
    obtain ⟨hlower, hignorable, hcased, hsigma⟩ := toLower_alike c
    simp only [List.map_cons, lowerAfter, hsigma, hlower, hignorable, hcased, casedAhead_map, ih]

/-- The case of the letters of the basic alphabet is of no account. -/
theorem lower_congr {text text' : List Char} (h : SameLetters text text') :
    lower text = lower text' := by
  calc lower text = lower (text.map Char.toLower) := (lowerAfter_map false text).symm
    _ = lower (text'.map Char.toLower) := congrArg lower h
    _ = lower text' := lowerAfter_map false text'

/-! ## Occurring in a text -/

theorem occursIn_iff {part text : List Char} : occursIn part text = true ↔ part <:+: text := by
  induction text with
  | nil =>
    rw [occursIn, List.isEmpty_iff, List.infix_nil]
  | cons c rest ih =>
    rw [occursIn, Bool.or_eq_true, ih, List.isPrefixOf_iff_prefix, List.infix_cons_iff]

end Wiretap.Text
