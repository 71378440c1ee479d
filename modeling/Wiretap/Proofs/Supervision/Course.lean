import Wiretap.Proofs.Supervision.Isolation

/-!
# The course of one service

What can become of a service in time: it is run, its runs end, it rests and is run again, it is told
to end, and it retires. The course of a service is a chronicle of this together with where the
service stands. A service may take its time, or be prompt: then time does not go past the end of a
rest.

Results:

* `kept_of_course`: what holds at any time in a course.
-/

namespace Wiretap

def Exit.isFailure : Exit → Bool
  | .failed _ => true
  | _ => false

namespace Supervision

/-! ## Reading a chronicle -/

/-- The times at which the service was run. -/
def starts (ch : Chronicle) : List Nat :=
  ch.filterMap fun (x, notice) => if notice = .starts then some x else none

/-- When its runs ended, and how. -/
def endings (ch : Chronicle) : List (Nat × Exit) :=
  ch.filterMap fun
    | (x, .ends e) => some (x, e)
    | _ => none

/-- The times at which it was told to end. -/
def tellings (ch : Chronicle) : List Nat :=
  ch.filterMap fun (x, notice) => if notice = .told then some x else none

/-- How often it has failed by the end of its `i`-th run, counting from 0. -/
def failures (ch : Chronicle) (i : Nat) : Nat :=
  ((endings ch).take (i + 1)).countP (·.2.isFailure)

/-! ## The course of one service -/

/-- The time past which a service does not rest. Being told to end ends a rest at once. -/
def restsUntil? (now : Nat) : Option (Life × Bool) → Option Nat
  | some (.resting _ due, told) => some (if told then now else due)
  | _ => none

/-- What became of one service up to now, and where it stands now: its life, once it was added, and
whether it was told to end. A service that is `prompt` rests no longer than it has to. -/
inductive Course (prompt : Prop) (policy : RestartPolicy) :
    Nat → Chronicle → Option (Life × Bool) → Prop
  | absent {now : Nat} : Course prompt policy now [] none
  | waits {now later : Nat} {ch : Chronicle} {stand : Option (Life × Bool)}
      (h : Course prompt policy now ch stand)
      (hprompt : prompt → now ≤ later ∧ ∀ due ∈ restsUntil? now stand, later ≤ due) :
      Course prompt policy later ch stand
  | added {now : Nat} : Course prompt policy now [(now, .starts)] (some (.fresh, false))
  | told {now : Nat} {ch : Chronicle} {life : Life} (hlive : life.isOver = false)
      (h : Course prompt policy now ch (some (life, false))) :
      Course prompt policy now (ch ++ [(now, .told)]) (some (life, true))
  | rests {now : Nat} {ch : Chronicle} {failures : Nat} (reason : String)
      (hfew : failures < policy.failureThreshold.toNat)
      (h : Course prompt policy now ch (some (.running failures, false))) :
      Course prompt policy now (ch ++ [(now, .ends (.failed reason))])
        (some (.resting (failures + 1) (now + policy.failureBackoff.toNat), false))
  | ends {now : Nat} {ch : Chronicle} {failures : Nat} {told : Bool} {e : Exit}
      (hlast : e.isFailure = false ∨ told = true ∨ policy.failureThreshold.toNat ≤ failures)
      (h : Course prompt policy now ch (some (.running failures, told))) :
      Course prompt policy now (ch ++ [(now, .ends e), (now, .retired)]) (some (.finished, false))
  | interrupted {now : Nat} {ch : Chronicle} {failures due : Nat}
      (h : Course prompt policy now ch (some (.resting failures due, true))) :
      Course prompt policy now (ch ++ [(now, .retired)]) (some (.finished, false))
  | resumes {now : Nat} {ch : Chronicle} {failures due : Nat} {told : Bool} (hdue : due ≤ now)
      (h : Course prompt policy now ch (some (.resting failures due, told))) :
      Course prompt policy now (ch ++ [(now, .starts)]) (some (.running failures, told))

/-- Where a service stands according to its chronicle. -/
inductive Stands (prompt : Prop) (policy : RestartPolicy) (now : Nat) (ch : Chronicle) :
    Option (Life × Bool) → Prop
  | absent (hnew : ch = []) : Stands prompt policy now ch none
  | running {told : Bool} (hruns : (starts ch).length = (endings ch).length + 1)
      (hfew : (endings ch).length ≤ policy.failureThreshold.toNat) :
      Stands prompt policy now ch (some (.running (endings ch).length, told))
  | resting {told : Bool} {y : Nat} {reason : String}
      (hruns : (starts ch).length = (endings ch).length)
      (hfew : (endings ch).length ≤ policy.failureThreshold.toNat)
      (hlast : (endings ch).getLast? = some (y, .failed reason))
      (hprompt : prompt → now ≤ y + policy.failureBackoff.toNat ∧ ∀ z ∈ tellings ch, now ≤ z) :
      Stands prompt policy now ch
        (some (.resting (endings ch).length (y + policy.failureBackoff.toNat), told))
  | retired {y : Nat} {e : Exit} (hruns : (starts ch).length = (endings ch).length)
      (hlast : (endings ch).getLast? = some (y, e))
      (hreason : prompt → e.isFailure = false ∨
        policy.failureThreshold.toNat < (endings ch).length ∨
        ∃ z ∈ tellings ch, z ≤ y + policy.failureBackoff.toNat) :
      Stands prompt policy now ch (some (.finished, false))

/-- What holds at any time in the course of a service. -/
structure Kept (prompt : Prop) (policy : RestartPolicy) (now : Nat) (ch : Chronicle)
    (stand : Option (Life × Bool)) : Prop where
  stands : Stands prompt policy now ch stand
  told_iff : ∀ {life told}, stand = some (life, told) → life.isOver = false →
    (told = true ↔ tellings ch ≠ [])
  /-- Each run after the first one follows a failure. -/
  reruns : ∀ {i x}, (starts ch)[i + 1]? = some x → i + 1 ≤ policy.failureThreshold.toNat ∧
    ∃ y reason, (endings ch)[i]? = some (y, .failed reason) ∧
      y + policy.failureBackoff.toNat ≤ x ∧ (prompt → x = y + policy.failureBackoff.toNat)
  /-- A run that ends after the service was told is the last one. -/
  last : ∀ {past y e future}, ch = past ++ (y, .ends e) :: future → tellings past ≠ [] →
    starts future = [] ∧ stand = some (.finished, false)
  /-- The service is over once it has retired. -/
  retired_iff : (∃ x, (x, .retired) ∈ ch) ↔ stand = some (.finished, false)
  times : prompt → ∀ p ∈ ch, p.1 ≤ now
  starts_le : prompt → ∀ x ∈ starts ch, ∀ z ∈ tellings ch, x ≤ z

/-! ## Each part is kept -/

variable {prompt : Prop} {policy : RestartPolicy} {now later n x y : Nat} {ch past future : Chronicle}
  {stand : Option (Life × Bool)} {life : Life} {told : Bool} {e : Exit}

@[simp] theorem starts_append (ch ch' : Chronicle) : starts (ch ++ ch') = starts ch ++ starts ch' :=
  List.filterMap_append

@[simp] theorem endings_append (ch ch' : Chronicle) :
    endings (ch ++ ch') = endings ch ++ endings ch' := List.filterMap_append

@[simp] theorem tellings_append (ch ch' : Chronicle) :
    tellings (ch ++ ch') = tellings ch ++ tellings ch' := List.filterMap_append

@[simp] theorem starts_cons (x : Nat) (notice : Notice) (ch : Chronicle) :
    starts ((x, notice) :: ch) = if notice = .starts then x :: starts ch else starts ch := by
  unfold starts
  rw [List.filterMap_cons]
  split <;> simp_all

@[simp] theorem tellings_cons (x : Nat) (notice : Notice) (ch : Chronicle) :
    tellings ((x, notice) :: ch) = if notice = .told then x :: tellings ch else tellings ch := by
  unfold tellings
  rw [List.filterMap_cons]
  split <;> simp_all

@[simp] theorem endings_ends (x : Nat) (e : Exit) (ch : Chronicle) :
    endings ((x, .ends e) :: ch) = (x, e) :: endings ch := rfl

@[simp] theorem endings_starts (x : Nat) (ch : Chronicle) :
    endings ((x, .starts) :: ch) = endings ch := rfl

@[simp] theorem endings_told (x : Nat) (ch : Chronicle) :
    endings ((x, .told) :: ch) = endings ch := rfl

@[simp] theorem endings_retired (x : Nat) (ch : Chronicle) :
    endings ((x, .retired) :: ch) = endings ch := rfl

@[simp] theorem starts_nil : starts [] = [] := rfl
@[simp] theorem endings_nil : endings [] = [] := rfl
@[simp] theorem tellings_nil : tellings [] = [] := rfl

theorem split_concat {α : Type} {l past future : List α} {a b : α}
    (h : l ++ [a] = past ++ b :: future) :
    (∃ future', future = future' ++ [a] ∧ l = past ++ b :: future') ∨
      past = l ∧ b = a ∧ future = [] := by
  rcases List.eq_nil_or_concat future with rfl | ⟨future', a', rfl⟩
  · obtain ⟨rfl, hlast⟩ := List.append_inj' h rfl
    exact .inr ⟨rfl, (List.cons.inj hlast).1.symm, rfl⟩
  · have h : l ++ [a] = (past ++ b :: future') ++ [a'] := by simpa using h
    obtain ⟨rfl, hlast⟩ := List.append_inj' h rfl
    obtain rfl := (List.cons.inj hlast).1
    exact .inl ⟨future', by simp, rfl⟩

namespace Kept

theorem absent : Kept prompt policy now [] none where
  stands := .absent rfl
  told_iff := nofun
  reruns := nofun
  last h := by simp at h
  retired_iff := by simp
  times _ := by simp
  starts_le _ := by simp

theorem waits (h : Kept prompt policy now ch stand)
    (hprompt : prompt → now ≤ later ∧ ∀ due ∈ restsUntil? now stand, later ≤ due) :
    Kept prompt policy later ch stand := by
  refine { h with stands := ?_, times := fun hp p hmem => ?_ }
  · cases h.stands with
    | absent hnew => exact .absent hnew
    | running hruns hfew => exact .running hruns hfew
    | @resting told y reason hruns hfew hlast hrest =>
      refine .resting hruns hfew hlast fun hp => ?_
      have hdue := (hprompt hp).2 _ rfl
      obtain ⟨hnow, htellings⟩ := hrest hp
      cases told with
      | true => exact ⟨Nat.le_trans hdue hnow, fun z hz => Nat.le_trans hdue (htellings z hz)⟩
      | false =>
        have huntold : tellings ch = [] := by simpa using h.told_iff rfl rfl
        exact ⟨hdue, by simp [huntold]⟩
    | retired hruns hlast hreason => exact .retired hruns hlast hreason
  · exact Nat.le_trans (h.times hp p hmem) (hprompt hp).1

theorem added : Kept prompt policy now [(now, .starts)] (some (.fresh, false)) where
  stands := .running rfl (Nat.zero_le _)
  told_iff h _ := by
    cases h
    simp
  reruns h := by simp at h
  last {past y e future} h := by
    have hmem : (y, Notice.ends e) ∈ [(now, Notice.starts)] := by simp [h]
    simp at hmem
  retired_iff := by simp [Life.fresh]
  times _ := by simp
  starts_le _ := by simp

/-- A service that is not over has ended no run after it was told. -/
theorem untold_of_live (h : Kept prompt policy now ch (some (life, told)))
    (hlive : life.isOver = false) (hch : ch = past ++ (y, .ends e) :: future) :
    tellings past = [] := by
  by_contra htold
  obtain ⟨-, hover⟩ := h.last hch htold
  cases hover
  cases hlive

theorem notMem_retired (h : Kept prompt policy now ch (some (life, told)))
    (hlive : life.isOver = false) : ¬ ∃ x, (x, .retired) ∈ ch := by
  intro hretired
  cases h.retired_iff.mp hretired
  cases hlive

/-- What is noted of a service that is not over, apart from an end of a run. -/
theorem last_concat (h : Kept prompt policy now ch (some (life, told)))
    (hlive : life.isOver = false) {notice : Notice} (hnotice : ∀ e, notice ≠ .ends e)
    (hch : ch ++ [(now, notice)] = past ++ (y, .ends e) :: future) : tellings past = [] := by
  rcases split_concat hch with ⟨future', -, hch⟩ | ⟨-, hends, -⟩
  · exact h.untold_of_live hlive hch
  · cases hends
    exact absurd rfl (hnotice e)

theorem times_append (h : Kept prompt policy now ch stand) {new : Chronicle}
    (hnew : ∀ p ∈ new, p.1 ≤ now) (hp : prompt) : ∀ p ∈ ch ++ new, p.1 ≤ now := by
  intro p hmem
  rcases List.mem_append.mp hmem with hold | hmem
  · exact h.times hp p hold
  · exact hnew p hmem

theorem starts_le_now (h : Kept prompt policy now ch stand) (hp : prompt) :
    ∀ x ∈ starts ch, x ≤ now := by
  intro x hx
  obtain ⟨⟨x', notice⟩, hmem, hstarts⟩ := List.mem_filterMap.mp hx
  obtain ⟨-, rfl⟩ : notice = .starts ∧ x' = x := by simpa using hstarts
  exact h.times hp _ hmem

theorem tellings_le_now (h : Kept prompt policy now ch stand) (hp : prompt) :
    ∀ z ∈ tellings ch, z ≤ now := by
  intro z hz
  obtain ⟨⟨z', notice⟩, hmem, htold⟩ := List.mem_filterMap.mp hz
  obtain ⟨-, rfl⟩ : notice = .told ∧ z' = z := by simpa using htold
  exact h.times hp _ hmem

/-- More endings change nothing in what is known of the runs so far. -/
theorem reruns_append (h : Kept prompt policy now ch stand) {ch' : Chronicle}
    {more : List (Nat × Exit)} (hstarts : starts ch' = starts ch)
    (hendings : endings ch' = endings ch ++ more) {i x : Nat}
    (hrun : (starts ch')[i + 1]? = some x) : i + 1 ≤ policy.failureThreshold.toNat ∧
      ∃ y reason, (endings ch')[i]? = some (y, .failed reason) ∧
        y + policy.failureBackoff.toNat ≤ x ∧ (prompt → x = y + policy.failureBackoff.toNat) := by
  rw [hstarts] at hrun
  obtain ⟨hle, y, reason, hend, hrest⟩ := h.reruns hrun
  have hlt := (List.getElem?_eq_some_iff.mp hend).1
  refine ⟨hle, y, reason, ?_, hrest⟩
  rw [hendings, List.getElem?_append_left hlt, hend]

theorem tells (hlive : life.isOver = false) (h : Kept prompt policy now ch (some (life, false))) :
    Kept prompt policy now (ch ++ [(now, .told)]) (some (life, true)) := by
  have huntold : tellings ch = [] := by simpa using h.told_iff rfl hlive
  have hstarts : starts (ch ++ [(now, .told)]) = starts ch := by simp
  have hendings : endings (ch ++ [(now, .told)]) = endings ch := by simp
  have htellings : tellings (ch ++ [(now, .told)]) = [now] := by simp [huntold]
  refine ⟨?_, ?_, ?_, ?_, ?_, h.times_append (by simp), ?_⟩
  · cases h.stands with
    | running hruns hfew =>
      rw [← hendings] at hruns hfew ⊢
      exact .running (hstarts ▸ hruns) hfew
    | resting hruns hfew hlast hrest =>
      rw [← hendings] at hruns hfew hlast ⊢
      refine .resting (hstarts ▸ hruns) hfew hlast fun hp => ⟨(hrest hp).1, ?_⟩
      rw [htellings]
      simp
    | retired => cases hlive
  · intro life told hstand _
    cases hstand
    simp
  · exact h.reruns_append hstarts (hendings.trans (List.append_nil _).symm)
  · intro past y e future hch hpast
    exact absurd (h.last_concat hlive (by simp) hch) hpast
  · have hnone := h.notMem_retired hlive
    refine iff_of_false (by simpa using hnone) ?_
    rintro ⟨⟩
  · intro hp x hx z hz
    rw [hstarts] at hx
    rw [htellings] at hz
    rw [List.mem_singleton.mp hz]
    exact h.starts_le_now hp x hx

theorem rests (reason : String) (hfew : n < policy.failureThreshold.toNat)
    (h : Kept prompt policy now ch (some (.running n, false))) :
    Kept prompt policy now (ch ++ [(now, .ends (.failed reason))])
      (some (.resting (n + 1) (now + policy.failureBackoff.toNat), false)) := by
  have huntold : tellings ch = [] := by simpa using h.told_iff rfl rfl
  have hstarts : starts (ch ++ [(now, .ends (.failed reason))]) = starts ch := by simp
  have hendings : endings (ch ++ [(now, .ends (.failed reason))]) =
      endings ch ++ [(now, .failed reason)] := by simp
  have htellings : tellings (ch ++ [(now, .ends (.failed reason))]) = [] := by simp [huntold]
  refine ⟨?_, ?_, ?_, ?_, ?_, h.times_append (by simp), ?_⟩
  · cases h.stands with | running hruns _ => ?_
    have hlength : (endings (ch ++ [(now, .ends (.failed reason))])).length =
        (endings ch).length + 1 := by simp
    rw [← hlength]
    refine .resting (by rw [hstarts, hruns, hlength]) (by rw [hlength]; exact hfew)
      (by rw [hendings, List.getLast?_concat]) fun _ => ⟨Nat.le_add_right .., ?_⟩
    rw [htellings]
    simp
  · intro life told hstand _
    cases hstand
    simp [huntold]
  · exact h.reruns_append hstarts hendings
  · intro past y e future hch hpast
    rcases split_concat hch with ⟨future', -, hch⟩ | ⟨rfl, -, -⟩
    · exact absurd (h.untold_of_live rfl hch) hpast
    · exact absurd huntold hpast
  · have hnone := h.notMem_retired rfl
    exact iff_of_false (by simpa using hnone) nofun
  · intro hp x hx z hz
    rw [htellings] at hz
    cases hz

theorem ends (hlast : e.isFailure = false ∨ told = true ∨ policy.failureThreshold.toNat ≤ n)
    (h : Kept prompt policy now ch (some (.running n, told))) :
    Kept prompt policy now (ch ++ [(now, .ends e), (now, .retired)]) (some (.finished, false)) := by
  have hstarts : starts (ch ++ [(now, .ends e), (now, .retired)]) = starts ch := by simp
  have hendings : endings (ch ++ [(now, .ends e), (now, .retired)]) = endings ch ++ [(now, e)] := by
    simp
  have htellings : tellings (ch ++ [(now, .ends e), (now, .retired)]) = tellings ch := by simp
  refine ⟨?_, ?_, h.reruns_append hstarts hendings, ?_, by simp, h.times_append (by simp), ?_⟩
  · cases h.stands with | running hruns _ => ?_
    have hlength : (endings (ch ++ [(now, .ends e), (now, .retired)])).length =
        (endings ch).length + 1 := by simp
    refine .retired (y := now) (e := e) (by rw [hstarts, hruns, hlength])
      (by rw [hendings, List.getLast?_concat]) fun hp => ?_
    rw [hlength, htellings]
    rcases hlast with hdone | htold | hmany
    · exact .inl hdone
    · obtain ⟨z, hz⟩ := List.exists_mem_of_ne_nil _ ((h.told_iff rfl rfl).mp htold)
      have hle := h.tellings_le_now hp z hz
      exact .inr (.inr ⟨z, hz, by omega⟩)
    · exact .inr (.inl (by omega))
  · intro life told hstand hlive
    cases hstand
    cases hlive
  · intro past y e' future hch hpast
    have hch : (ch ++ [(now, .ends e)]) ++ [(now, .retired)] =
        past ++ (y, .ends e') :: future := by simpa using hch
    rcases split_concat hch with ⟨future', rfl, hfront⟩ | ⟨-, hends, -⟩
    · rcases split_concat hfront with ⟨_, -, hold⟩ | ⟨-, -, rfl⟩
      · exact absurd (h.untold_of_live rfl hold) hpast
      · exact ⟨by simp, rfl⟩
    · cases hends
  · intro hp x hx z hz
    rw [hstarts] at hx
    rw [htellings] at hz
    exact h.starts_le hp x hx z hz

theorem interrupted (h : Kept prompt policy now ch (some (.resting n x, true))) :
    Kept prompt policy now (ch ++ [(now, .retired)]) (some (.finished, false)) := by
  have hstarts : starts (ch ++ [(now, .retired)]) = starts ch := by simp
  have hendings : endings (ch ++ [(now, .retired)]) = endings ch := by simp
  have htellings : tellings (ch ++ [(now, .retired)]) = tellings ch := by simp
  refine ⟨?_, ?_, h.reruns_append hstarts (hendings.trans (List.append_nil _).symm), ?_, by simp,
    h.times_append (by simp), ?_⟩
  · obtain ⟨z, hz⟩ := List.exists_mem_of_ne_nil _ ((h.told_iff rfl rfl).mp rfl)
    cases h.stands with | @resting _ y reason hruns _ hlast hrest => ?_
    refine .retired (y := y) (e := .failed reason) (by rw [hstarts, hendings, hruns])
      (by rw [hendings, hlast]) fun hp => .inr (.inr ⟨z, htellings ▸ hz, ?_⟩)
    exact Nat.le_trans (h.tellings_le_now hp z hz) (hrest hp).1
  · intro life told hstand hlive
    cases hstand
    cases hlive
  · intro past y e future hch hpast
    exact absurd (h.last_concat rfl (by simp) hch) hpast
  · intro hp x hx z hz
    rw [hstarts] at hx
    rw [htellings] at hz
    exact h.starts_le hp x hx z hz

theorem resumes (hdue : x ≤ now) (h : Kept prompt policy now ch (some (.resting n x, told))) :
    Kept prompt policy now (ch ++ [(now, .starts)]) (some (.running n, told)) := by
  have hstarts : starts (ch ++ [(now, .starts)]) = starts ch ++ [now] := by simp
  have hendings : endings (ch ++ [(now, .starts)]) = endings ch := by simp
  have htellings : tellings (ch ++ [(now, .starts)]) = tellings ch := by simp
  cases h.stands with | @resting _ y reason hruns hfew hlast hrest => ?_
  refine ⟨?_, ?_, ?_, ?_, ?_, h.times_append (by simp), ?_⟩
  · rw [← hendings] at hfew ⊢
    exact .running (by rw [hstarts, hendings, List.length_append, hruns]; rfl) hfew
  · intro life told' hstand hlive
    cases hstand
    rw [htellings]
    exact h.told_iff rfl rfl
  · intro i x hrun
    rw [hstarts] at hrun
    by_cases hi : i + 1 < (starts ch).length
    · rw [List.getElem?_append_left hi] at hrun
      exact hendings ▸ h.reruns hrun
    · -- it is the run that begins now
      have hlt := (List.getElem?_eq_some_iff.mp hrun).1
      rw [List.length_append, List.length_singleton] at hlt
      have hi : i + 1 = (endings ch).length := by omega
      obtain rfl : x = now := by
        rw [List.getElem?_append_right (by omega), hruns, hi] at hrun
        simpa using hrun.symm
      refine ⟨by omega, y, reason, ?_, hdue, fun hp => Nat.le_antisymm (hrest hp).1 hdue⟩
      rw [hendings, ← hlast, List.getLast?_eq_getElem?, ← hi]
      rfl
  · intro past y e future hch hpast
    exact absurd (h.last_concat rfl (by simp) hch) hpast
  · have hnone := h.notMem_retired rfl
    exact iff_of_false (by simpa using hnone) nofun
  · intro hp x hx z hz
    rw [hstarts] at hx
    rw [htellings] at hz
    rcases List.mem_append.mp hx with hold | hnew
    · exact h.starts_le hp x hold z hz
    · rw [List.mem_singleton.mp hnew]
      exact (hrest hp).2 z hz

end Kept

theorem kept_of_course (h : Course prompt policy now ch stand) :
    Kept prompt policy now ch stand := by
  induction h with
  | absent => exact .absent
  | waits _ hprompt ih => exact ih.waits hprompt
  | added => exact .added
  | told hlive _ ih => exact ih.tells hlive
  | rests reason hfew _ ih => exact ih.rests reason hfew
  | ends hlast _ ih => exact ih.ends hlast
  | interrupted _ ih => exact ih.interrupted
  | resumes hdue _ ih => exact ih.resumes hdue

end Supervision
end Wiretap
