import Wiretap.Proofs.Manager.Book
import Wiretap.Proofs.Manager.Sessions

/-!
# The sessions and the book

The sessions of the manager are those that the book tells of, in the order in which they were
started. A session is told to stop when it goes out of the book, and then it is over, or it is the
one that the manager waits for.

Results:

* `Staffed.session_of_book`, `Staffed.pid_eq_of_book`: a process has a session of its own.
* `Staffed.up`, `Staffed.down`: a session is started, or told to stop.
* `Staffed.acts`: a session does something.
-/

namespace Wiretap

theorem modify_of_getElem? {α : Type} {l : List α} {i : Nat} {a : α} (h : l[i]? = some a)
    (f : α → α) : l.modify i f = l.set i (f a) := by
  refine List.ext_getElem? fun j => ?_
  rw [List.getElem?_modify, List.getElem?_set]
  by_cases hij : i = j
  · subst hij
    rw [h, if_pos rfl, if_pos (List.getElem?_eq_some_iff.mp h).1]
    exact congrArg some (if_pos rfl)
  · rw [if_neg hij]
    cases l[j]? with
    | none => rfl
    | some b => exact congrArg some (if_neg hij)

namespace Manager

variable {cs : List Change} {pid : UInt32} {i : Nat}

/-- How a session that was started stands to the book. -/
structure Minded (cs : List Change) (service : Service) (i : Nat) (x : Session.State) : Prop where
  dutiful : Session.Dutiful x
  cancelled_iff : x.cancelled = false ↔ book cs x.id = some i
  isOver_or_removing : x.cancelled = true → x.isOver = true ∨ service = .removing x.id i

/-- The sessions that were started are those that the book tells of. -/
structure Staffed (cs : List Change) (service : Service) (sessions : List Session.State) :
    Prop where
  starts_eq : starts cs = (sessions.map (·.id)).zipIdx
  minded : ∀ (i : Nat) x, sessions[i]? = some x → Minded cs service i x
  lost : ∀ pid i, .down pid i ∈ cs → ∃ x, sessions[i]? = some x ∧ x.id = pid ∧ x.cancelled = true

namespace Staffed

variable {service service' : Service} {sessions : List Session.State}

/-- A process has a session of its own. -/
theorem session_of_book (h : Staffed cs service sessions) (hbook : book cs pid = some i) :
    ∃ x, sessions[i]? = some x ∧ x.id = pid := by
  have hstart := mem_starts_of_book hbook
  rw [h.starts_eq, List.mk_mem_zipIdx_iff_getElem?, List.getElem?_map] at hstart
  exact Option.map_eq_some_iff.mp hstart

/-- No two processes have the same session. -/
theorem pid_eq_of_book (h : Staffed cs service sessions) {pid' : UInt32}
    (hbook' : book cs pid' = some i) (hbook : book cs pid = some i) : pid' = pid := by
  obtain ⟨x, hx, rfl⟩ := h.session_of_book hbook
  obtain ⟨x', hx', rfl⟩ := h.session_of_book hbook'
  rw [hx] at hx'
  rw [Option.some.inj hx']

/-- The service goes on. The session that it waits for is over, or it waits still. -/
theorem serves (h : Staffed cs service sessions)
    (hover : ∀ pid i x, service = .removing pid i → sessions[i]? = some x →
      x.isOver = true ∨ service' = .removing pid i) : Staffed cs service' sessions where
  starts_eq := h.starts_eq
  minded := by
    intro i x hx
    have hminded := h.minded i x hx
    refine ⟨hminded.dutiful, hminded.cancelled_iff, fun hcancelled => ?_⟩
    rcases hminded.isOver_or_removing hcancelled with hx' | hservice
    · exact .inl hx'
    · exact hover x.id i x hservice hx
  lost := h.lost

theorem up (h : Staffed cs service sessions) (hservice : ∀ pid i, service ≠ .removing pid i)
    {x : Session.State} (hnone : book cs x.id = none) (hcreated : x.stage = .created)
    (hcancelled : x.cancelled = false) :
    Staffed (cs ++ [.up x.id sessions.length]) service' (sessions ++ [x]) where
  starts_eq := by
    rw [starts_up, h.starts_eq, List.map_append, List.zipIdx_append, List.length_map, Nat.zero_add]
    rfl
  minded := by
    intro i y hy
    rw [List.getElem?_append, List.getElem?_singleton] at hy
    split at hy
    next hi =>
      have hminded := h.minded i y hy
      refine ⟨hminded.dutiful, ?_, fun hcancelled => .inl ?_⟩
      · rw [hminded.cancelled_iff, book_up]
        split
        next hid =>
          rw [← hid, hnone]
          refine ⟨nofun, fun hlength => ?_⟩
          cases hlength
          exact absurd hi (Nat.lt_irrefl _)
        next => exact Iff.rfl
      · exact (hminded.isOver_or_removing hcancelled).resolve_right (hservice y.id i)
    next hi =>
      split at hy <;> cases hy
      next hlast =>
        obtain rfl : i = sessions.length := by omega
        refine ⟨Session.dutiful_of_created hcreated, ?_, fun hcancelled' => ?_⟩
        · rw [book_up, if_pos rfl]
          exact iff_of_true hcancelled rfl
        · rw [hcancelled] at hcancelled'
          cases hcancelled'
  lost := by
    intro pid i hlost
    rcases List.mem_append.mp hlost with hold | hnew
    · obtain ⟨y, hy, hid, hcancelled⟩ := h.lost pid i hold
      exact ⟨y, (List.getElem?_append_left (List.getElem?_eq_some_iff.mp hy).1).trans hy, hid,
        hcancelled⟩
    · cases List.mem_singleton.mp hnew

section Set

variable {x x' : Session.State}

theorem ids_set (hx : sessions[i]? = some x) (hid : x'.id = x.id) :
    (sessions.set i x').map (·.id) = sessions.map (·.id) := by
  obtain ⟨hi, rfl⟩ := List.getElem?_eq_some_iff.mp hx
  have hself := @List.set_getElem_self _ (sessions.map (·.id)) i (by simpa using hi)
  rw [List.getElem_map] at hself
  rw [List.map_set, hid, hself]

theorem lost_set (h : Staffed cs service sessions) (hx : sessions[i]? = some x)
    (hid : x'.id = x.id) (hcancelled : x.cancelled = true → x'.cancelled = true) {j : Nat}
    (hlost : .down pid j ∈ cs) :
    ∃ y, (sessions.set i x')[j]? = some y ∧ y.id = pid ∧ y.cancelled = true := by
  obtain ⟨y, hy, hyid, hycancelled⟩ := h.lost pid j hlost
  rw [List.getElem?_set]
  by_cases hij : i = j
  · subst hij
    rw [hx] at hy
    cases hy
    rw [if_pos rfl, if_pos (List.getElem?_eq_some_iff.mp hx).1]
    exact ⟨x', rfl, hid.trans hyid, hcancelled hycancelled⟩
  · rw [if_neg hij]
    exact ⟨y, hy, hyid, hycancelled⟩

/-- The session of a process is told to stop. -/
theorem down (h : Staffed cs service sessions) (hservice : ∀ pid i, service ≠ .removing pid i)
    (hheld : book cs x.id = some i) (hx : sessions[i]? = some x) :
    Staffed (cs ++ [.down x.id i]) (.removing x.id i)
      (sessions.set i { x with cancelled := true }) where
  starts_eq := by
    have hids : (sessions.set i { x with cancelled := true }).map (·.id) = sessions.map (·.id) :=
      ids_set hx rfl
    rw [starts_down, h.starts_eq, hids]
  minded := by
    intro j y hy
    rw [List.getElem?_set] at hy
    split at hy
    next hij =>
      subst hij
      split at hy <;> cases hy
      refine ⟨nofun, iff_of_false nofun ?_, fun _ => .inr rfl⟩
      show book _ x.id ≠ _
      rw [book_down, if_pos rfl]
      exact nofun
    next hij =>
      have hminded := h.minded j y hy
      refine ⟨hminded.dutiful, ?_, fun hcancelled => .inl ?_⟩
      · rw [hminded.cancelled_iff, book_down]
        split
        next hid =>
          rw [← hid, hheld]
          exact iff_of_false (fun hj => hij (Option.some.inj hj)) nofun
        next => exact Iff.rfl
      · exact (hminded.isOver_or_removing hcancelled).resolve_right (hservice y.id j)
  lost := by
    intro pid j hlost
    rcases List.mem_append.mp hlost with hold | hnew
    · refine h.lost_set hx ?_ (fun _ => ?_) hold <;> rfl
    · cases List.mem_singleton.mp hnew
      exact ⟨{ x with cancelled := true },
        List.getElem?_set_self (List.getElem?_eq_some_iff.mp hx).1, rfl, rfl⟩

/-- A session does something. -/
theorem acts (h : Staffed cs service sessions) (hx : sessions[i]? = some x) {e : Session.Event}
    (hact : x.act? e = some x') (hcancel : e ≠ .cancel) (hdrop : e ≠ .drop) :
    Staffed cs service (sessions.set i x') := by
  obtain ⟨hid, hcancelled⟩ := Session.id_of_act? hact hcancel
  have hminded := h.minded i x hx
  refine ⟨?_, ?_, fun pid j => h.lost_set hx hid (hcancelled.trans ·)⟩
  · rw [h.starts_eq, ids_set hx hid]
  intro j y hy
  rw [List.getElem?_set] at hy
  split at hy
  next hij =>
    subst hij
    split at hy <;> cases hy
    refine ⟨hminded.dutiful.next hact hdrop, ?_, ?_⟩
    · rw [hcancelled, hid]
      exact hminded.cancelled_iff
    · rw [hcancelled, hid]
      exact fun htold => (hminded.isOver_or_removing htold).imp_left (Session.isOver_of_act? hact)
  next => exact h.minded j y hy

end Set

end Staffed

end Manager
end Wiretap
