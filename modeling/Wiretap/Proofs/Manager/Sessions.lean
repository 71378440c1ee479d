import Wiretap.Proofs.Manager.Step
import Wiretap.Proofs.Session.Ending

/-!
# What becomes of the sessions of the manager

The sessions that were started and are not over are in the roster, and the manager takes one out of
it only to wait for it.

Results:

* `Kept.steps`: the roster is in order, and each of its sessions keeps to the order in which things
  come to an end.
* `isSessionOver_of_steps`, `mem_roster_of_steps`, `removing_of_steps`: what a move of the manager
  makes of the sessions that are over, in the roster, or being removed.
-/

namespace Wiretap

/-! ## Rosters -/

/-- Tokens count up and are never used again. -/
structure Supervisor.Ordered {α : Type} (s : Supervisor α) : Prop where
  nodup : (s.members.map (·.1)).Nodup
  issued : ∀ p ∈ s.members, p.1 < s.nextToken

/-- The services of a supervisor. -/
def Supervisor.services {α : Type} (s : Supervisor α) : List α := s.members.map (·.2)

theorem lookup_of_mem {α : Type} {l : List (Nat × α)} (h : (l.map (·.1)).Nodup) {k : Nat} {a : α}
    (hmem : (k, a) ∈ l) : l.lookup k = some a := by
  induction l with
  | nil => cases hmem
  | cons p l ih =>
    obtain ⟨k', a'⟩ := p
    rw [List.map_cons, List.nodup_cons] at h
    rcases List.mem_cons.mp hmem with heq | hold
    · cases heq
      exact List.lookup_cons_self
    · have hne : (k == k') = false := by
        rw [beq_eq_false_iff_ne]
        rintro rfl
        exact h.1 (List.mem_map.mpr ⟨_, hold, rfl⟩)
      rw [List.lookup_cons, hne]
      exact ih h.2 hold

namespace Supervisor.Ordered

variable {α : Type} {s : Supervisor α}

theorem empty : Ordered ({} : Supervisor α) := ⟨List.nodup_nil, nofun⟩

theorem add (h : Ordered s) (a : α) : Ordered (s.add a) := by
  constructor
  · apply List.nodup_cons.mpr
    refine ⟨?_, h.nodup⟩
    intro hmem
    obtain ⟨p, hp, htoken⟩ := List.mem_map.mp hmem
    have hissued := h.issued p hp
    rw [htoken] at hissued
    exact absurd hissued (Nat.lt_irrefl s.nextToken)
  · intro p hp
    show p.1 < s.nextToken + 1
    rcases List.mem_cons.mp hp with rfl | hold
    · omega
    · have hissued : p.1 < s.nextToken := h.issued p hold
      omega

theorem filter (h : Ordered s) (keep : Nat × α → Bool) :
    Ordered { s with members := s.members.filter keep } where
  nodup := h.nodup.sublist (List.filter_sublist.map _)
  issued p hp := h.issued p (List.mem_filter.mp hp).1

theorem stop : Ordered s.stop := ⟨List.nodup_nil, nofun⟩

/-- Dropping a token drops no other service than its own. -/
theorem mem_drop (h : Ordered s) {token : Nat} {a b : α} (hmember : s.member? token = some a)
    (hb : b ∈ s.services) : b = a ∨ b ∈ (s.drop token).services := by
  obtain ⟨⟨token', b⟩, hmem, rfl⟩ := List.mem_map.mp hb
  by_cases htoken : token' = token
  · subst htoken
    rw [Supervisor.member?, lookup_of_mem h.nodup hmem] at hmember
    exact .inl (Option.some.inj hmember)
  · refine .inr (List.mem_map.mpr ⟨(token', b), List.mem_filter.mpr ⟨hmem, ?_⟩, rfl⟩)
    simpa using htoken

end Supervisor.Ordered

namespace Manager

variable {s s' : State} {now : Nat} {cancelled : Bool} {m : Move}

/-- The roster is in order, and so is each session. -/
structure Kept (s : State) : Prop where
  roster : s.roster.Ordered
  sessions : ∀ (i : Nat) x, s.sessions[i]? = some x → Session.Orderly x

/-! ## One session -/

theorem isSessionOver_of_some {i : Nat} {x : Session.State} (hx : s.sessions[i]? = some x) :
    s.isSessionOver i = x.isOver := by
  rw [State.isSessionOver, hx]
  rfl

theorem isSessionOver_of_none {i : Nat} (hi : s.sessions[i]? = none) :
    s.isSessionOver i = true := by
  rw [State.isSessionOver, hi]
  rfl

section SetSession

variable {i : Nat} {x x' : Session.State}

theorem Kept.setSession (h : Kept s) (hx' : Session.Orderly x') : Kept (s.setSession i x') := by
  constructor
  · show Supervisor.Ordered (if x'.isOver then _ else _)
    split
    next => exact h.roster.filter _
    next => exact h.roster
  · intro j y hy
    rw [State.setSession, List.getElem?_set] at hy
    split at hy
    next =>
      split at hy <;> cases hy
      exact hx'
    next => exact h.sessions j y hy

theorem isSessionOver_setSession (hx : s.sessions[i]? = some x)
    (hover : x.isOver = true → x'.isOver = true) {j : Nat} (hj : s.isSessionOver j = true) :
    (s.setSession i x').isSessionOver j = true := by
  rw [State.isSessionOver, State.setSession, List.getElem?_set]
  split
  next hij =>
    subst hij
    split
    next =>
      rw [isSessionOver_of_some hx] at hj
      exact hover hj
    next => rfl
  next => exact hj

/-- A session leaves the roster only when it is over. -/
theorem mem_roster_setSession (hx : s.sessions[i]? = some x) {j : Nat}
    (hj : j ∈ s.roster.services) :
    (s.setSession i x').isSessionOver j = true ∨ j ∈ (s.setSession i x').roster.services := by
  by_cases hover : x'.isOver = true
  · by_cases hij : i = j
    · subst hij
      refine .inl ?_
      rw [isSessionOver_of_some (x := x') ?_, hover]
      rw [State.setSession, List.getElem?_set_self (List.getElem?_eq_some_iff.mp hx).1]
    · refine .inr ?_
      obtain ⟨⟨token, j⟩, hmem, rfl⟩ := List.mem_map.mp hj
      rw [State.setSession, if_pos hover]
      have hkept : (token, j) ∈ s.roster.members.filter (·.2 != i) :=
        List.mem_filter.mpr ⟨hmem, by simpa using Ne.symm hij⟩
      exact List.mem_map.mpr ⟨(token, j), hkept, rfl⟩
  · refine .inr ?_
    rw [State.setSession, if_neg hover]
    exact hj

end SetSession

/-! ## Cancelling -/

theorem isSessionOver_cancelSession (i j : Nat) :
    (s.cancelSession i).isSessionOver j = s.isSessionOver j := by
  rw [State.isSessionOver, State.isSessionOver, State.cancelSession, List.getElem?_modify]
  cases s.sessions[j]? with
  | none => rfl
  | some x => by_cases hij : i = j <;> simp [hij, Session.State.isOver]

theorem Kept.cancelSession (h : Kept s) (i : Nat) : Kept (s.cancelSession i) := by
  refine ⟨h.roster, ?_⟩
  intro j y hy
  rw [State.cancelSession, List.getElem?_modify] at hy
  obtain ⟨x, hx, rfl⟩ := Option.map_eq_some_iff.mp hy
  split
  · exact (h.sessions j x hx).cancel true
  · exact h.sessions j x hx

theorem isSessionOver_stopSessions (j : Nat) :
    s.stopSessions.1.isSessionOver j = s.isSessionOver j := by
  obtain ⟨sessions, hstop, hsessions⟩ := stopSessions_cases s
  rw [hstop, State.isSessionOver, hsessions j, State.isSessionOver]
  cases s.sessions[j]? with
  | none => rfl
  | some x => by_cases hmem : j ∈ s.roster.members.map (·.2) <;> simp [hmem, Session.State.isOver]

theorem Kept.stopSessions (h : Kept s) : Kept s.stopSessions.1 := by
  obtain ⟨sessions, hstop, hsessions⟩ := stopSessions_cases s
  rw [hstop]
  refine ⟨.stop, ?_⟩
  intro j y hy
  rw [hsessions j] at hy
  obtain ⟨x, hx, rfl⟩ := Option.map_eq_some_iff.mp hy
  split
  · exact (h.sessions j x hx).cancel true
  · exact h.sessions j x hx

/-! ## One move -/

theorem isSessionOver_congr (hsessions : s'.sessions = s.sessions) (i : Nat) :
    s'.isSessionOver i = s.isSessionOver i := by
  rw [State.isSessionOver, hsessions, State.isSessionOver]

theorem Kept.congr (h : Kept s) (hroster : s'.roster = s.roster)
    (hsessions : s'.sessions = s.sessions) : Kept s' := by
  constructor
  · rw [hroster]
    exact h.roster
  · rw [hsessions]
    exact h.sessions

theorem Kept.register (h : Kept s) (pid : UInt32) {x : Session.State} (hx : Session.Orderly x) :
    Kept (s.register pid x) := by
  refine ⟨h.roster.add _, ?_⟩
  intro i y hy
  have hy : (s.sessions ++ [{ x with cancelled := s.roster.cancelled }])[i]? = some y := hy
  rcases Nat.lt_or_ge i s.sessions.length with hi | hi
  · rw [List.getElem?_append_left hi] at hy
    exact h.sessions i y hy
  · rw [List.getElem?_append_right hi] at hy
    cases List.mem_singleton.mp (List.mem_of_getElem? hy)
    exact hx.cancel _

theorem isSessionOver_register (pid : UInt32) (x : Session.State) {i : Nat}
    (hi : i ≠ s.sessions.length) : (s.register pid x).isSessionOver i = s.isSessionOver i := by
  have hsame : (s.register pid x).sessions[i]? = s.sessions[i]? := by
    simp only [State.register]
    rw [List.getElem?_append, List.getElem?_singleton]
    split
    next => rfl
    next hlarge => rw [if_neg (by omega), List.getElem?_eq_none (by omega)]
  rw [State.isSessionOver, hsame, State.isSessionOver]

/-- **One move of the manager** keeps roster and sessions in order. -/
theorem Kept.steps (h : Kept s) (hsteps : Steps now cancelled s m s') : Kept s' := by
  cases hsteps with
  | detaches _ _ hdetached =>
    cases hdetached with
    | @waits token i =>
      have hcancelled := h.cancelSession i
      exact ⟨hcancelled.roster.filter _, hcancelled.sessions⟩
    | unknown | gone => exact h.congr rfl rfl
  | builds _ _ hbuilt =>
    cases hbuilt with
    | succeeds _ hnew => exact h.register _ (Session.orderly_of_new? hnew)
    | fails | goesOn => exact h.congr rfl rfl
  | session hx hstep => exact h.setSession ((h.sessions _ _ hx).step hstep)
  | _ => exact h.congr rfl rfl

/-- The move starts that session. -/
structure Starts (s s' : State) (i : Nat) : Prop where
  index : i = s.sessions.length
  more : s.sessions.length < s'.sessions.length
  held : i ∈ s'.roster.services

/-- A session that is over stays over. A number that no session has counts as over as well. -/
theorem isSessionOver_of_steps (hsteps : Steps now cancelled s m s') {i : Nat}
    (hi : s.isSessionOver i = true) : s'.isSessionOver i = true ∨ Starts s s' i := by
  cases hsteps with
  | detaches _ _ hdetached =>
    cases hdetached with
    | @waits token j => exact .inl ((isSessionOver_cancelSession j i).trans hi)
    | unknown | gone => exact .inl hi
  | builds _ _ hbuilt =>
    cases hbuilt with
    | @succeeds _ session =>
      by_cases hnew : i = s.sessions.length
      · refine .inr ⟨hnew, ?_, ?_⟩
        · simp [State.register]
        · rw [hnew]
          exact List.mem_cons_self
      · exact .inl ((isSessionOver_register _ session hnew).trans hi)
    | fails | goesOn => exact .inl hi
  | session hx hstep =>
    have hact : Session.State.act? _ (.move now _) = some _ := hstep
    exact .inl (isSessionOver_setSession hx (Session.isOver_of_act? hact) hi)
  | _ => exact .inl hi

/-- A session leaves the roster when it is over, or for the manager to wait for it. -/
theorem mem_roster_of_steps (hsteps : Steps now cancelled s m s') (hroster : s.roster.Ordered)
    {i : Nat} (hi : i ∈ s.roster.services) : s'.isSessionOver i = true ∨
      i ∈ s'.roster.services ∨ ∃ pid, s'.service = .removing pid i := by
  cases hsteps with
  | @detaches pid _ _ _ _ hdetached =>
    cases hdetached with
    | waits hmember =>
      rcases hroster.mem_drop hmember hi with rfl | hdrop
      · exact .inr (.inr ⟨pid, rfl⟩)
      · exact .inr (.inl hdrop)
    | unknown | gone => exact .inr (.inl hi)
  | builds _ _ hbuilt =>
    cases hbuilt with
    | succeeds => exact .inr (.inl (List.mem_cons_of_mem _ hi))
    | fails | goesOn => exact .inr (.inl hi)
  | session hx hstep => exact (mem_roster_setSession hx hi).imp_right .inl
  | _ => exact .inr (.inl hi)

/-- The manager waits for a session until it is over or the manager is told to stop. -/
theorem removing_of_steps (hsteps : Steps now cancelled s m s') {pid : UInt32} {i : Nat}
    (hservice : s.service = .removing pid i) :
    s'.isSessionOver i = true ∨ s'.service = .removing pid i ∨ m = .stops := by
  cases hsteps with
  | ignores hidle | begins hidle | detaches hidle | completes hidle | builds hidle
  | announces hidle | reports hidle =>
    rw [hservice] at hidle
    cases hidle
  | released hremoving hover =>
    rw [hservice] at hremoving
    cases hremoving
    exact .inl hover
  | stops => exact .inr (.inr rfl)
  | session => exact .inr (.inl hservice)

end Manager
end Wiretap
