import Mathlib.Data.List.Chain
import Mathlib.Data.List.Induction

/-!
# Who has a session

A book has an entry for each change of who has a session: a process has been given one, or has lost
the one that it had. Each change is announced in its turn.

Results:

* `book_concat`: what one more entry says of a process.
* `book_eq_some_iff`: a process has the session that it was given last, if it has not lost it.
* `Regular.alternates`: where a process is given a session only when it has none, and loses only the
  one that it has, its announcements alternate between up and down.
* `mem_starts_of_book`: the session of a process is one that it was given.
-/

namespace Wiretap.Manager

/-- A process has been given that session, or has lost it. -/
inductive Change where
  | up (pid : UInt32) (session : Nat)
  | down (pid : UInt32) (session : Nat)
  deriving DecidableEq, Repr

/-- What is told to those who listen. -/
inductive Announcement where
  | up (pid : UInt32) (session : Nat)
  | down (pid : UInt32)
  deriving DecidableEq, Repr

def Change.announcement : Change → Announcement
  | .up pid i => .up pid i
  | .down pid _ => .down pid

/-- The process that has been given a session, or has lost it. -/
def Change.pid : Change → UInt32
  | .up pid _ => pid
  | .down pid _ => pid

/-- The process and the session that it is given. -/
def Change.start? : Change → Option (UInt32 × Nat)
  | .up pid i => some (pid, i)
  | .down _ _ => none

/-- The session of a process after a change. -/
def Change.enter (pid : UInt32) (held : Option Nat) : Change → Option Nat
  | .up pid' i => if pid' = pid then some i else held
  | .down pid' _ => if pid' = pid then none else held

/-- The session of a process after these changes, if it has one. -/
def book (cs : List Change) (pid : UInt32) : Option Nat := cs.foldl (Change.enter pid) none

/-- The sessions that were started by these changes, each with its process. -/
def starts (cs : List Change) : List (UInt32 × Nat) := cs.filterMap Change.start?

variable {cs : List Change} {pid : UInt32} {i : Nat}

theorem book_concat (c : Change) : book (cs ++ [c]) pid = c.enter pid (book cs pid) :=
  List.foldl_concat _ _ _ _

theorem book_up (pid' : UInt32) :
    book (cs ++ [.up pid i]) pid' = if pid = pid' then some i else book cs pid' := book_concat _

theorem book_down (pid' : UInt32) :
    book (cs ++ [.down pid i]) pid' = if pid = pid' then none else book cs pid' := book_concat _

theorem book_append {cs' : List Change} (h : ∀ c ∈ cs', c.pid ≠ pid) :
    book (cs ++ cs') pid = book cs pid := by
  induction cs' using List.reverseRecOn with
  | nil => rw [List.append_nil]
  | append_singleton cs' c ih =>
    have hc : c.pid ≠ pid := h c (List.mem_append_right _ List.mem_cons_self)
    have henter : c.enter pid (book (cs ++ cs') pid) = book (cs ++ cs') pid := by
      cases c <;> exact if_neg hc
    rw [← List.append_assoc, book_concat, henter]
    exact ih fun c' hc' => h c' (List.mem_append_left _ hc')

/-- **A process has the session that it was given last**, if it has not lost it. -/
theorem book_eq_some_iff : book cs pid = some i ↔
    ∃ before after, cs = before ++ .up pid i :: after ∧ ∀ c ∈ after, c.pid ≠ pid := by
  constructor
  · intro h
    induction cs using List.reverseRecOn with
    | nil => cases h
    | append_singleton cs c ih =>
      by_cases hc : c.pid = pid
      · refine ⟨cs, [], ?_, nofun⟩
        subst hc
        cases c with
        | up pid j =>
          have hj : j = i := by simpa [book_up, Change.pid] using h
          rw [hj]
          rfl
        | down pid j =>
          have hnone : book (cs ++ [.down pid j]) pid = none := by rw [book_down, if_pos rfl]
          exact absurd h (by rw [Change.pid, hnone]; exact nofun)
      · rw [book_append (by simpa using hc)] at h
        obtain ⟨before, after, rfl, hafter⟩ := ih h
        refine ⟨before, after ++ [c], by simp, ?_⟩
        intro c' hc'
        rcases List.mem_append.mp hc' with hc' | hc'
        · exact hafter c' hc'
        · rw [List.mem_singleton.mp hc']
          exact hc
  · rintro ⟨before, after, rfl, hafter⟩
    rw [← List.singleton_append, ← List.append_assoc, book_append hafter, book_up, if_pos rfl]

theorem starts_up : starts (cs ++ [.up pid i]) = starts cs ++ [(pid, i)] := by
  rw [starts, List.filterMap_append]
  rfl

theorem starts_down : starts (cs ++ [.down pid i]) = starts cs := by
  rw [starts, List.filterMap_append]
  exact List.append_nil _

/-- A process is given a session only where it has none, and loses only the one that it has. -/
inductive Regular : List Change → Prop where
  | nil : Regular []
  | up {cs : List Change} {pid : UInt32} (i : Nat) (h : Regular cs) (hnone : book cs pid = none) :
      Regular (cs ++ [.up pid i])
  | down {cs : List Change} {pid : UInt32} {i : Nat} (h : Regular cs)
      (hheld : book cs pid = some i) : Regular (cs ++ [.down pid i])

/-! ## Alternation -/

/-- Whether the session of this process is announced to be up, where it is announced at all. -/
def Announcement.turn? (pid : UInt32) : Announcement → Option Bool
  | .up pid' _ => if pid' = pid then some true else none
  | .down pid' => if pid' = pid then some false else none

/-- The announcements that concern this process. -/
def turns (pid : UInt32) (as : List Announcement) : List Bool :=
  as.filterMap (Announcement.turn? pid)

/-- A session is announced to be up, to be down, to be up again, and so on. -/
def Alternates (turns : List Bool) : Prop := (false :: turns).IsChain (· ≠ ·)

theorem turns_append (as as' : List Announcement) :
    turns pid (as ++ as') = turns pid as ++ turns pid as' := List.filterMap_append

theorem Alternates.of_isPrefix {bs bs' : List Bool} (h : Alternates bs) (hinit : bs' <+: bs) :
    Alternates bs' :=
  List.IsChain.prefix h (List.cons_prefix_cons.mpr ⟨rfl, hinit⟩)

theorem alternates_concat {bs : List Bool} {b : Bool} (h : Alternates bs)
    (hlast : bs.getLast?.getD false ≠ b) : Alternates (bs ++ [b]) := by
  have hlast' : (false :: bs).getLast? = some (bs.getLast?.getD false) := by
    cases bs with
    | nil => rfl
    | cons b' bs => rw [List.getLast?_cons_cons, List.getLast?_cons]; rfl
  refine List.isChain_append.mpr ⟨h, List.IsChain.singleton b, ?_⟩
  intro x hx y hy
  rw [hlast'] at hx
  cases hx
  cases hy
  exact hlast

theorem Regular.turns_spec (h : Regular cs) (pid : UInt32) :
    Alternates (turns pid (cs.map Change.announcement)) ∧
      (turns pid (cs.map Change.announcement)).getLast?.getD false = (book cs pid).isSome := by
  induction h with
  | nil => exact ⟨List.IsChain.singleton false, rfl⟩
  | @up cs pid' i _ hnone ih =>
    obtain ⟨halternates, hlast⟩ := ih
    rw [List.map_append, turns_append, book_up]
    by_cases hpid : pid' = pid
    · subst hpid
      have hturn : turns pid' ([Change.up pid' i].map Change.announcement) = [true] := by
        simp [turns, Change.announcement, Announcement.turn?]
      rw [hturn, if_pos rfl]
      rw [hnone] at hlast
      exact ⟨alternates_concat halternates (by rw [hlast]; exact Bool.noConfusion), by simp⟩
    · have hturn : turns pid ([Change.up pid' i].map Change.announcement) = [] := by
        simp [turns, Change.announcement, Announcement.turn?, hpid]
      rw [hturn, if_neg hpid, List.append_nil]
      exact ⟨halternates, hlast⟩
  | @down cs pid' i _ hheld ih =>
    obtain ⟨halternates, hlast⟩ := ih
    rw [List.map_append, turns_append, book_down]
    by_cases hpid : pid' = pid
    · subst hpid
      have hturn : turns pid' ([Change.down pid' i].map Change.announcement) = [false] := by
        simp [turns, Change.announcement, Announcement.turn?]
      rw [hturn, if_pos rfl]
      rw [hheld] at hlast
      exact ⟨alternates_concat halternates (by rw [hlast]; exact Bool.noConfusion), by simp⟩
    · have hturn : turns pid ([Change.down pid' i].map Change.announcement) = [] := by
        simp [turns, Change.announcement, Announcement.turn?, hpid]
      rw [hturn, if_neg hpid, List.append_nil]
      exact ⟨halternates, hlast⟩

/-- **The announcements of a process alternate.** -/
theorem Regular.alternates (h : Regular cs) (pid : UInt32) :
    Alternates (turns pid (cs.map Change.announcement)) := (h.turns_spec pid).1

/-- The session of a process is one that was started for it. -/
theorem mem_starts_of_book (h : book cs pid = some i) : (pid, i) ∈ starts cs := by
  induction cs using List.reverseRecOn with
  | nil => cases h
  | append_singleton cs c ih =>
    cases c with
    | up pid' j =>
      rw [book_up] at h
      rw [starts_up]
      split at h
      next hpid =>
        cases h
        rw [hpid]
        exact List.mem_append_right _ List.mem_cons_self
      next => exact List.mem_append_left _ (ih h)
    | down pid' j =>
      rw [book_down] at h
      rw [starts_down]
      split at h
      next => cases h
      next => exact ih h

end Wiretap.Manager
