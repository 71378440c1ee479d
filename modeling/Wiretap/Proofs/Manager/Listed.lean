import Wiretap.Proofs.Manager.Book
import Wiretap.Proofs.Manager.Sessions

/-!
# The table and the book

The table of the manager lists the sessions of the book, each under the token with which it is
supervised, and the supervisor runs no others. Tokens and sessions are numbered alike.

Results:

* `Listed.of_lookup`: what the table lists is in the book and supervised.
* `Listed.up`, `Listed.down`: a session comes into the book, or goes out of it.
-/

namespace Wiretap.Manager

variable {cs : List Change} {pid : UInt32} {i : Nat}

/-- The table and the supervisor hold the sessions of the book. A manager that is done has emptied
its table. -/
structure Listed (cs : List Change) (completed : Bool) (table : List (UInt32 × Entry))
    (roster : Supervisor Nat) : Prop where
  lookup_eq : ∀ pid, table.lookup pid =
    if completed then none else (book cs pid).map fun i => ⟨i, i⟩
  ordered : roster.Ordered
  mem_iff : ∀ token i, (token, i) ∈ roster.members ↔ token = i ∧ ∃ pid, book cs pid = some i

namespace Listed

variable {completed : Bool} {table : List (UInt32 × Entry)} {roster : Supervisor Nat}

/-- A session of the book is supervised. -/
theorem member?_of_book (h : Listed cs completed table roster) (hbook : book cs pid = some i) :
    roster.member? i = some i :=
  lookup_of_mem h.ordered.nodup ((h.mem_iff i i).mpr ⟨rfl, pid, hbook⟩)

theorem lookup_eq_map (h : Listed cs false table roster) (pid : UInt32) :
    table.lookup pid = (book cs pid).map fun i => ⟨i, i⟩ := h.lookup_eq pid

/-- What the table lists is in the book and supervised. -/
theorem of_lookup (h : Listed cs false table roster) {entry : Entry}
    (hlookup : table.lookup pid = some entry) : book cs pid = some entry.session ∧
      entry.token = entry.session ∧ roster.member? entry.token = some entry.session := by
  rw [h.lookup_eq_map] at hlookup
  obtain ⟨i, hbook, rfl⟩ := Option.map_eq_some_iff.mp hlookup
  exact ⟨hbook, rfl, h.member?_of_book hbook⟩

theorem completes (h : Listed cs completed table roster) : Listed cs true [] roster :=
  ⟨fun _ => rfl, h.ordered, h.mem_iff⟩

theorem up (h : Listed cs false table roster) (hnone : book cs pid = none)
    (hi : roster.nextToken = i) : Listed (cs ++ [.up pid i]) false
      ((pid, ⟨roster.nextToken, i⟩) :: table.filter (·.1 != pid)) (roster.add i) where
  lookup_eq := by
    intro pid'
    rw [List.lookup_cons, lookup_without, h.lookup_eq_map, book_up, hi]
    by_cases hpid : pid = pid'
    · rw [hpid, if_pos rfl, if_pos rfl, beq_self_eq_true]
      rfl
    · rw [if_neg hpid, if_neg hpid, beq_eq_false_iff_ne.mpr (Ne.symm hpid)]
      rfl
  ordered := h.ordered.add i
  mem_iff := by
    intro token j
    show (token, j) ∈ (roster.nextToken, i) :: roster.members ↔ _
    rw [List.mem_cons, h.mem_iff, hi]
    constructor
    · rintro (hnew | ⟨rfl, pid', hbook⟩)
      · cases hnew
        exact ⟨rfl, pid, by rw [book_up, if_pos rfl]⟩
      · refine ⟨rfl, pid', ?_⟩
        rw [book_up, if_neg, hbook]
        rintro rfl
        rw [hnone] at hbook
        cases hbook
    · rintro ⟨rfl, pid', hbook⟩
      rw [book_up] at hbook
      split at hbook
      next =>
        cases hbook
        exact .inl rfl
      next => exact .inr ⟨rfl, pid', hbook⟩

theorem down (h : Listed cs false table roster) (hheld : book cs pid = some i)
    (honly : ∀ pid', book cs pid' = some i → pid' = pid) :
    Listed (cs ++ [.down pid i]) false (table.filter (·.1 != pid)) (roster.drop i) where
  lookup_eq := by
    intro pid'
    rw [lookup_without, h.lookup_eq_map, book_down]
    split <;> rfl
  ordered := h.ordered.filter _
  mem_iff := by
    intro token j
    show (token, j) ∈ roster.members.filter (·.1 != i) ↔ _
    rw [List.mem_filter, h.mem_iff, bne_iff_ne]
    constructor
    · rintro ⟨⟨rfl, pid', hbook⟩, hne⟩
      refine ⟨rfl, pid', ?_⟩
      rw [book_down, if_neg, hbook]
      rintro rfl
      rw [hheld] at hbook
      exact hne (Option.some.inj hbook).symm
    · rintro ⟨rfl, pid', hbook⟩
      rw [book_down] at hbook
      split at hbook
      next => cases hbook
      next hpid =>
        refine ⟨⟨rfl, pid', hbook⟩, ?_⟩
        rintro rfl
        exact hpid (honly pid' hbook).symm

end Listed

end Wiretap.Manager
