import Mathlib.Data.List.Nodup
import Wiretap.Proofs.Supervision.View

/-!
# Who is in the set of a supervisor

A service leaves the set of its supervisor in one of two ways: somebody takes it out, or it ends by
itself and drops out. Whatever comes first, the set holds exactly the services that are not over and
that nobody has taken out.

Results:

* `Current.next`: a set has no token twice, and no service that is over.
* `nextToken_le_adds`: a supervisor gives out no more tokens than services are added to it.
* `mem_members_iff`: a service that is not over is in the set until it is dismissed.
* `told_of_serve?`: a service is told to end only where it is dismissed.
* `services_accounted`: the tokens that are given out, how many services a set has, and what becomes
  of a call that removes one.
-/

namespace Wiretap.Supervision

variable {policies : Nat → RestartPolicy} {s s' : Host} {e : Event} {n c token x : Nat}
  {k k' : Child}

/-! ## Sets are up to date -/

/-- A set has no token twice, and no service that is over. -/
structure Current (s : Host) : Prop where
  nodup : ∀ n, ((s.tree.members n).map (·.1)).Nodup
  live : ∀ {n token c}, (token, c) ∈ s.tree.members n → ∃ k, s.tree.Live c k

namespace Current

theorem root (policy : RestartPolicy) : Current { tree := .root policy } := by
  have hempty : ∀ n, (Tree.root policy).members n = [] := by
    intro n
    rcases n with _ | n <;> rfl
  refine ⟨fun n => ?_, fun {n _ _} hmember => ?_⟩
  · rw [hempty n]
    exact List.nodup_nil
  · rw [hempty n] at hmember
    cases hmember

theorem nodup_filter (h : Current s) (n : Nat) (p : Nat × Nat → Bool) :
    (((s.tree.members n).filter p).map (·.1)).Nodup :=
  (h.nodup n).sublist (List.filter_sublist.map _)

/-- The next token is above all that are in the set. -/
theorem next_nodup (h : Current s) (hsound : Sound s) (hacts : Acts s e s') (m : Nat) :
    ((s'.tree.members m).map (·.1)).Nodup := by
  cases hacts with
  | found =>
    rw [Tree.members_found]
    exact h.nodup m
  | @added n work hn hfree =>
    rw [Tree.members_add hn]
    split
    next hm =>
      subst hm
      refine List.nodup_cons.mpr ⟨fun hmem => ?_, h.nodup m⟩
      obtain ⟨⟨token, c⟩, hmember, htoken⟩ := List.mem_map.mp hmem
      obtain ⟨k, hk, hparent, hktoken⟩ := hsound.attached hmember
      have hlt := hsound.token_lt hk
      have htoken : token = s.tree.nextToken m := htoken
      rw [hparent, hktoken, htoken] at hlt
      exact Nat.lt_irrefl _ hlt
    next => exact h.nodup m
  | @removed n token c hmember =>
    have hdrop := Tree.members_drop s.tree n token m
    show (((s.tree.alterNode n (·.drop token)).members m).map (·.1)).Nodup
    rw [hdrop]
    split
    next => exact h.nodup_filter m _
    next => exact h.nodup m
  | stopped =>
    rw [Tree.members_stop]
    split
    next => exact List.nodup_nil
    next => exact h.nodup m
  | entered | released =>
    rw [Tree.members_enter]
    split
    next => exact h.nodup_filter m _
    next => exact h.nodup m
  | gathered =>
    rw [Tree.members_gather]
    split
    next => exact List.nodup_nil
    next => exact h.nodup m

/-- A service that goes over to another life is over only if it has left the set. -/
theorem live_enter (h : Current s) (hsound : Sound s) {c' : Nat} {child : Child} {life : Life}
    (hchild : s.tree.child? c' = some child)
    (hmember : (token, c) ∈ (s.tree.enter c' child life).members n) :
    ∃ k, (s.tree.enter c' child life).Live c k := by
  rw [Tree.members_enter] at hmember
  have hold : (token, c) ∈ s.tree.members n := by
    split at hmember
    next => exact (List.mem_filter.mp hmember).1
    next => exact hmember
  obtain ⟨k, hk⟩ := h.live hold
  unfold Tree.Live
  rw [Tree.service?_enter hchild]
  by_cases hc : c = c'
  · subst hc
    rw [if_pos rfl]
    refine ⟨_, rfl, ?_⟩
    obtain ⟨k₁, hk₁, hparent, htoken⟩ := hsound.attached hold
    cases hk₁.symm.trans (Tree.service?_of_child? hchild)
    cases hover : life.isOver with
    | false => rfl
    | true =>
      -- it has just been dropped
      rw [if_pos ⟨hparent.symm, hover⟩] at hmember
      exact absurd htoken.symm (bne_iff_ne.mp (List.mem_filter.mp hmember).2)
  · rw [if_neg hc]
    exact ⟨k, hk⟩

theorem next_live (h : Current s) (hsound : Sound s) (hacts : Acts s e s')
    (hmember : (token, c) ∈ s'.tree.members n) : ∃ k, s'.tree.Live c k := by
  rcases hacts.mem_members hmember with hold | ⟨k', hadded, -, -⟩
  · obtain ⟨k, hk⟩ := h.live hold
    cases hacts with
    | found => exact ⟨k, hk⟩
    | added =>
      have hne := Nat.ne_of_lt (Tree.lt_of_service? hk.1)
      exact ⟨k, (Tree.service?_add ..).trans ((if_neg hne).trans hk.1), hk.2⟩
    | removed => exact ⟨k, (Tree.service?_cancel ..).trans hk.1, hk.2⟩
    | stopped => exact ⟨k, (Tree.service?_stop ..).trans hk.1, hk.2⟩
    | entered hchild | released hchild => exact h.live_enter hsound hchild hmember
    | gathered hchild hlive =>
      unfold Tree.Live
      rw [Tree.service?_gather hchild]
      split
      next => exact ⟨_, rfl, hlive⟩
      next => exact ⟨k, hk⟩
  · refine ⟨k', hadded.service, ?_⟩
    cases hadded
    rfl

theorem next (h : Current s) (hsound : Sound s) (hacts : Acts s e s') : Current s' :=
  ⟨h.next_nodup hsound hacts, h.next_live hsound hacts⟩

end Current

theorem current_of_served {policy : RestartPolicy} {run : List (Nat × Event)}
    (h : run? (Host.serve? policies) { tree := .root policy } run = some s) :
    Sound s ∧ Attends s ∧ Current s := by
  refine run?_invariant (motive := fun _ s => Sound s ∧ Attends s ∧ Current s)
    ⟨.root policy, attends_root policy, .root policy⟩ ?_ h
  rintro past s₁ p s₂ - ⟨hsound, hattends, hcurrent⟩ hserve
  rcases acts_of_serve? hserve with hacts | rfl
  · exact ⟨hsound.next hacts, hattends.next hsound hacts, hcurrent.next hsound hacts⟩
  · exact ⟨hsound, hattends, hcurrent⟩

/-! ## How many tokens there are -/

/-- How often somebody adds a service to the supervisor `n` in a run. -/
def adds (n : Nat) (run : List (Nat × Event)) : Nat := run.countP (·.2.addsTo n)

theorem adds_concat (n : Nat) (past : List (Nat × Event)) (p : Nat × Event) :
    adds n (past ++ [p]) = adds n past + if p.2.addsTo n then 1 else 0 := by
  rw [adds, List.countP_append, List.countP_singleton]
  rfl

theorem nextToken_le_adds {policy : RestartPolicy} {run : List (Nat × Event)}
    (h : run? (Host.serve? policies) { tree := .root policy } run = some s) (n : Nat) :
    s.tree.nextToken n ≤ adds n run := by
  refine run?_invariant (motive := fun past s => s.tree.nextToken n ≤ adds n past) ?_ ?_ h
  · rcases n with _ | n <;> exact Nat.le_refl 0
  · rintro past s₁ ⟨x, e⟩ s₂ - hle hserve
    rw [adds_concat]
    rcases acts_of_serve? hserve with hacts | rfl
    · rw [hacts.nextToken_eq n]
      exact Nat.add_le_add_right hle _
    · exact Nat.le_add_right_of_le hle

/-! ## Who is dismissed -/

/-- The event takes the service out of the set: it is a call that names the service or stops its
supervisor, or the service that runs its supervisor stops that. -/
def Event.dismisses (t : Tree) (k : Child) : Event → Bool
  | .remove n token => decide (n = k.parent ∧ token = k.token)
  | .stop n => decide (n = k.parent)
  | .move _ _ c .gather => (t.child? c).any (·.work = .supervisor k.parent)
  | _ => false

/-- Those whom an event dismisses. -/
def Host.dismisses (s : Host) (e : Event) : List Nat :=
  (List.range s.tree.children.length).filter fun c => (s.tree.child? c).any (e.dismisses s.tree)

/-- Those who were dismissed in the course of a run. -/
def dismissed (policies : Nat → RestartPolicy) (s : Host) (run : List (Nat × Event)) : List Nat :=
  history (Host.serve? policies) (fun s p => s.dismisses p.2) s run

theorem lt_of_dismisses (h : c ∈ s.dismisses e) : c < s.tree.children.length :=
  List.mem_range.mp (List.mem_filter.mp h).1

theorem mem_dismisses_iff (hk : s.tree.child? c = some k) :
    c ∈ s.dismisses e ↔ e.dismisses s.tree k = true := by
  have hlt := Tree.lt_of_child? hk
  unfold Host.dismisses
  simp [hk, hlt]

theorem mem_dismissed_concat {run : List (Nat × Event)} {s₀ : Host}
    (h : run? (Host.serve? policies) s₀ run = some s) (p : Nat × Event) :
    c ∈ dismissed policies s₀ (run ++ [p]) ↔
      c ∈ dismissed policies s₀ run ∨ c ∈ s.dismisses p.2 := by
  unfold dismissed
  rw [history_concat run p h, List.mem_append]

/-- A call that is to remove a service finds one with that token, or changes nothing. -/
theorem removed_of_serve? (h : s.serve? policies (x, .remove n token) = some s') :
    s.tree.remove? n token = none ∧ s' = s ∨ ∃ c, (token, c) ∈ s.tree.members n ∧
      s' = { tree := (s.tree.alterNode n (·.drop token)).cancel c, calls := [c] :: s.calls } := by
  have hact : s.act? (.remove n token) = (s.tree.remove? n token).map
      fun p => { tree := p.1, calls := [p.2] :: s.calls } := rfl
  have h : some ((s.act? (.remove n token)).getD s) = some s' := h
  rw [hact] at h
  cases hremove : s.tree.remove? n token with
  | none =>
    rw [hremove] at h
    cases h
    exact .inl ⟨rfl, rfl⟩
  | some p =>
    obtain ⟨tree, c⟩ := p
    rw [hremove] at h
    obtain ⟨hmember, rfl⟩ := mem_members_of_remove? hremove
    cases h
    exact .inr ⟨c, hmember, rfl⟩

/-- A service that an event dismisses is not in the set any more. -/
theorem notMem_of_dismisses (h : s.serve? policies (x, e) = some s')
    (hdismisses : e.dismisses s.tree k = true) : (k.token, c) ∉ s'.tree.members k.parent := by
  cases e with
  | remove n token =>
    obtain ⟨rfl, rfl⟩ := of_decide_eq_true hdismisses
    intro hmember
    rcases removed_of_serve? h with ⟨hnone, rfl⟩ | ⟨c', -, rfl⟩
    · exact remove?_of_mem hmember hnone
    · have hdrop := Tree.members_drop s.tree k.parent k.token k.parent
      rw [if_pos rfl] at hdrop
      have hfilter : (k.token, c) ∈ (s.tree.members k.parent).filter (·.1 != k.token) :=
        hdrop ▸ hmember
      exact bne_iff_ne.mp (List.mem_filter.mp hfilter).2 rfl
  | stop n =>
    obtain rfl := of_decide_eq_true hdismisses
    have hact : some { tree := (s.tree.stop k.parent).1, calls := (s.tree.stop k.parent).2 :: s.calls }
        = some s' := (act?_of_serve? h (by simp)).2
    cases hact
    have hempty := Tree.members_stop s.tree k.parent k.parent
    rw [if_pos rfl] at hempty
    rw [hempty]
    exact List.not_mem_nil
  | move policy now c' m =>
    cases m with
    | gather =>
      obtain ⟨-, hact⟩ := act?_of_serve? h (by simp)
      obtain ⟨tree, hstep, rfl⟩ := Option.map_eq_some_iff.mp hact
      obtain ⟨child, m, hchild, hwork, htree⟩ := gather_of_step? hstep rfl
      obtain rfl : m = k.parent := by simpa [Event.dismisses, hchild, hwork] using hdismisses
      have hempty := Tree.members_gather s.tree c' child k.parent k.parent
      rw [if_pos rfl] at hempty
      rw [htree, hempty]
      exact List.not_mem_nil
    | ended | awake | release => cases hdismisses
  | found | add | resume => cases hdismisses

/-- Whoever takes a service out of the set dismisses it. -/
theorem dismisses_of_taken (h : Taken s c k e s') : e.dismisses s.tree k = true := by
  cases h with
  | removed => exact decide_eq_true ⟨rfl, rfl⟩
  | stopped => exact decide_eq_true rfl
  | gathered hchild _ hwork => simp [Event.dismisses, hchild, hwork]

/-- Being told to end is nothing that a dismissal looks at. -/
theorem dismisses_of_child? {child : Child} (hchild : s.tree.child? c = some child)
    (hk : s.tree.service? c = some k) : e.dismisses s.tree child = e.dismisses s.tree k := by
  cases (Tree.service?_of_child? hchild).symm.trans hk
  rfl

/-! ## Services stay in the set until they are dismissed -/

/-- The set holds those services that are not over and were not dismissed. -/
structure Accounted (policies : Nat → RestartPolicy) (s₀ : Host) (past : List (Nat × Event))
    (s : Host) : Prop where
  lt : ∀ c ∈ dismissed policies s₀ past, c < s.tree.children.length
  attached_iff : ∀ {c k}, s.tree.Live c k →
    ((k.token, c) ∈ s.tree.members k.parent ↔ c ∉ dismissed policies s₀ past)

variable {s₀ : Host} {past run : List (Nat × Event)}

theorem length_le_of_acts (h : Acts s e s') :
    s.tree.children.length ≤ s'.tree.children.length := by
  by_contra hlt
  have hlt := Nat.lt_of_not_le hlt
  obtain ⟨child, hchild⟩ : ∃ child, s.tree.child? s'.tree.children.length = some child :=
    ⟨_, List.getElem?_eq_getElem hlt⟩
  obtain ⟨k', hk', -⟩ := h.later (Tree.service?_of_child? hchild)
  exact Nat.lt_irrefl _ (Tree.lt_of_service? hk')

/-- **One event.** A service stays in the set, or it is dismissed. -/
theorem attached_iff_of_acts (hsound : Sound s) (h : s.serve? policies (x, e) = some s')
    (hacts : Acts s e s') (hk : s.tree.Live c k) (hk' : s'.tree.Live c k')
    (hmember : (k.token, c) ∈ s.tree.members k.parent) :
    (k.token, c) ∈ s'.tree.members k.parent ↔ c ∉ s.dismisses e := by
  obtain ⟨child, hchild, -⟩ := child?_of_service? hk.1
  rw [mem_dismisses_iff hchild, dismisses_of_child? hchild hk.1]
  constructor
  · intro hstays hdismisses
    exact notMem_of_dismisses h hdismisses hstays
  · intro hspared
    rcases hsound.attached_or_taken hacts hk hk' hmember with hstays | htaken
    · exact hstays
    · exact absurd (dismisses_of_taken htaken) hspared

namespace Accounted

theorem next (h : Accounted policies s₀ past s) (hsound : Sound s)
    (hrun : run? (Host.serve? policies) s₀ past = some s)
    (hserve : s.serve? policies (x, e) = some s') :
    Accounted policies s₀ (past ++ [(x, e)]) s' := by
  rcases acts_of_serve? hserve with hacts | rfl
  · have hacts : Acts s e s' := hacts
    have hle := length_le_of_acts hacts
    refine ⟨fun c hc => ?_, fun {c k'} hk' => ?_⟩
    · rcases (mem_dismissed_concat hrun (x, e)).mp hc with hpast | hnow
      · exact Nat.lt_of_lt_of_le (h.lt c hpast) hle
      · exact Nat.lt_of_lt_of_le (lt_of_dismisses hnow) hle
    · rw [mem_dismissed_concat hrun (x, e), not_or]
      rcases hacts.origin_live hk' with ⟨k, hk, hlater⟩ | hadded
      · rw [hlater.token_eq, hlater.parent_eq]
        by_cases hpast : c ∈ dismissed policies s₀ past
        · -- it is not taken up again
          have hout : (k.token, c) ∉ s.tree.members k.parent := fun hmember =>
            (h.attached_iff hk).mp hmember hpast
          refine iff_of_false (fun hmember => ?_) (fun hboth => hboth.1 hpast)
          rcases hacts.mem_members hmember with hold | ⟨k₁, hadded, -, -⟩
          · exact hout hold
          · cases hadded
            exact Nat.lt_irrefl _ (Tree.lt_of_service? hk.1)
        · have hmember := (h.attached_iff hk).mpr hpast
          rw [and_iff_right hpast]
          exact attached_iff_of_acts hsound hserve hacts hk hk' hmember
      · refine iff_of_true hadded.attached ⟨fun hpast => ?_, fun hnow => ?_⟩
        · cases hadded
          exact Nat.lt_irrefl _ (h.lt _ hpast)
        · cases hadded
          exact Nat.lt_irrefl _ (lt_of_dismisses hnow)
  · refine ⟨fun c hc => ?_, fun {c k} hk => ?_⟩
    · rcases (mem_dismissed_concat hrun (x, e)).mp hc with hpast | hnow
      · exact h.lt c hpast
      · exact lt_of_dismisses hnow
    · rw [mem_dismissed_concat hrun (x, e), not_or, h.attached_iff hk]
      refine (and_iff_left_of_imp fun hpast hnow => ?_).symm
      obtain ⟨child, hchild, -⟩ := child?_of_service? hk.1
      rw [mem_dismisses_iff hchild, dismisses_of_child? hchild hk.1] at hnow
      exact notMem_of_dismisses hserve hnow ((h.attached_iff hk).mpr hpast)

end Accounted

theorem accounted_of_served {policy : RestartPolicy}
    (h : run? (Host.serve? policies) { tree := .root policy } run = some s) :
    Accounted policies { tree := .root policy } run s := by
  refine run?_invariant (motive := Accounted policies { tree := .root policy }) ?_ ?_ h
  · refine ⟨fun c hc => ?_, fun {c k} hk => ?_⟩
    · cases hc
    · exact absurd (Tree.lt_of_service? hk.1) (Nat.not_lt_zero c)
  · rintro past s₁ ⟨x, e⟩ s₂ hrun haccounted hserve
    exact haccounted.next (current_of_served hrun).1 hrun hserve

/-- **The set of a supervisor**: its services that are not over and were not dismissed. -/
theorem mem_members_iff {policy : RestartPolicy}
    (h : run? (Host.serve? policies) { tree := .root policy } run = some s) :
    (token, c) ∈ s.tree.members n ↔
      ∃ k, s.tree.Live c k ∧ k.parent = n ∧ k.token = token ∧
        c ∉ dismissed policies { tree := .root policy } run := by
  obtain ⟨hsound, -, hcurrent⟩ := current_of_served h
  have haccounted := accounted_of_served h
  constructor
  · intro hmember
    obtain ⟨k, hk, rfl, rfl⟩ := hsound.attached hmember
    obtain ⟨k', hlive⟩ := hcurrent.live hmember
    cases hlive.1.symm.trans hk
    exact ⟨k, hlive, rfl, rfl, (haccounted.attached_iff hlive).mp hmember⟩
  · rintro ⟨k, hlive, rfl, rfl, hspared⟩
    exact (haccounted.attached_iff hlive).mpr hspared

/-! ## How many there are -/

/-- The services of the supervisor `n` that are not over, apart from those that are gone. -/
def Host.present (s : Host) (gone : List Nat) (n : Nat) : List Nat :=
  (List.range s.tree.children.length).filter fun c =>
    (s.tree.child? c).any (fun k => k.parent = n && !k.life.isOver) && c ∉ gone

theorem mem_present_iff {gone : List Nat} :
    c ∈ s.present gone n ↔ ∃ k, s.tree.Live c k ∧ k.parent = n ∧ c ∉ gone := by
  unfold Host.present Tree.Live Tree.service?
  constructor
  · intro hpresent
    have hboth := (List.mem_filter.mp hpresent).2
    cases hchild : s.tree.child? c with
    | none => simp [hchild] at hboth
    | some k =>
      obtain ⟨⟨hparent, hlive⟩, hgone⟩ : (k.parent = n ∧ k.life.isOver = false) ∧ c ∉ gone := by
        simpa [hchild] using hboth
      exact ⟨{ k with cancelled := false }, ⟨rfl, hlive⟩, hparent, hgone⟩
  · rintro ⟨k, ⟨hk, hlive⟩, hparent, hgone⟩
    obtain ⟨child, hchild, rfl⟩ := Option.map_eq_some_iff.mp hk
    have hlt := Tree.lt_of_child? hchild
    have hparent : child.parent = n := hparent
    have hlive : child.life.isOver = false := hlive
    simp [hchild, hlt, hparent, hlive, hgone]

/-- The numbers in a set are those of the services that are present. -/
theorem perm_present {policy : RestartPolicy}
    (h : run? (Host.serve? policies) { tree := .root policy } run = some s) (n : Nat) :
    ((s.tree.members n).map (·.2)).Perm
      (s.present (dismissed policies { tree := .root policy } run) n) := by
  obtain ⟨hsound, -, hcurrent⟩ := current_of_served h
  have hmembers : (s.tree.members n).Nodup := List.Nodup.of_map _ (hcurrent.nodup n)
  have hnumbers : ((s.tree.members n).map (·.2)).Nodup := by
    refine List.Nodup.map_on ?_ hmembers
    rintro ⟨token, c⟩ hmember ⟨token', c'⟩ hmember' hsame
    obtain rfl : c = c' := hsame
    obtain ⟨k, hk, -, htoken⟩ := hsound.attached hmember
    obtain ⟨k', hk', -, htoken'⟩ := hsound.attached hmember'
    cases hk.symm.trans hk'
    rw [← htoken, ← htoken']
  refine (List.perm_ext_iff_of_nodup hnumbers (List.nodup_range.filter _)).mpr fun c => ?_
  refine Iff.trans ?_ mem_present_iff.symm
  constructor
  · intro hmem
    obtain ⟨⟨token, c'⟩, hmember, rfl⟩ := List.mem_map.mp hmem
    obtain ⟨k, hlive, hparent, -, hspared⟩ := (mem_members_iff h).mp hmember
    exact ⟨k, hlive, hparent, hspared⟩
  · rintro ⟨k, hlive, hparent, hspared⟩
    exact List.mem_map.mpr ⟨_, (mem_members_iff h).mpr ⟨k, hlive, hparent, rfl, hspared⟩, rfl⟩

/-! ## Who is told -/

/-- A service is told to end only by an event that dismisses it. -/
theorem told_of_serve? (hsound : Sound s) (h : s.serve? policies (x, e) = some s') {child : Child}
    (hchild : s.tree.child? c = some child) (htold : s'.tree.isTold c = true) :
    s.tree.isTold c = true ∨ c ∈ s.dismisses e := by
  rcases acts_of_serve? h with hacts | rfl
  · have hacts : Acts s e s' := hacts
    rw [mem_dismisses_iff hchild]
    cases hacts with
    | found => exact .inl ((Tree.isTold_found ..).symm.trans htold)
    | added =>
      rw [Tree.isTold_add, if_neg (Nat.ne_of_lt (Tree.lt_of_child? hchild))] at htold
      exact .inl htold
    | @removed n token c' hmember =>
      rw [Tree.isTold_remove hchild, Bool.or_eq_true, decide_eq_true_eq] at htold
      refine htold.imp_right fun hc => ?_
      subst hc
      obtain ⟨k, hk, hparent, htoken⟩ := hsound.attached hmember
      cases (Tree.service?_of_child? hchild).symm.trans hk
      exact decide_eq_true ⟨hparent.symm, htoken.symm⟩
    | stopped =>
      rw [Tree.isTold_stop hchild, Bool.or_eq_true, decide_eq_true_eq] at htold
      refine htold.imp_right fun hc => ?_
      have hparent := hc.elim (fun hmem => (hsound.parent_of_mem_stop hchild hmem).1) (·.1)
      exact decide_eq_true hparent.symm
    | entered hchild' | released hchild' =>
      exact .inl ((Tree.isTold_enter hchild' ..).symm.trans htold)
    | gathered hchild' _ hwork =>
      rw [Tree.isTold_gather hchild' hchild, Bool.or_eq_true, decide_eq_true_eq] at htold
      refine htold.imp_right fun hc => ?_
      have hparent := hc.elim (fun hmem => (hsound.parent_of_mem_stop hchild hmem.2).1) (·.1)
      simp [Event.dismisses, hchild', hwork, hparent]
  · exact .inl htold

/-- What a run leaves of a service: it is not run again once it is over, and it is told to end only
where it is dismissed. -/
structure Remains (policies : Nat → RestartPolicy) (s : Host) (c : Nat) (window : List (Nat × Event))
    (s' : Host) : Prop where
  sound : Sound s'
  exists_child : ∃ k, s'.tree.child? c = some k
  stays_over : s.tree.isOver c = true → s'.tree.isOver c = true
  told : s'.tree.isTold c = true → s.tree.isTold c = true ∨ c ∈ dismissed policies s window

theorem remains_of_run? {window : List (Nat × Event)} (hsound : Sound s)
    (hlt : c < s.tree.children.length) (h : run? (Host.serve? policies) s window = some s') :
    Remains policies s c window s' := by
  refine run?_invariant (motive := Remains policies s c)
    ⟨hsound, ⟨_, List.getElem?_eq_getElem hlt⟩, id, .inl⟩ ?_ h
  rintro past s₁ ⟨x, e⟩ s₂ hrun ⟨hsound₁, ⟨k, hk⟩, hover, htold⟩ hserve
  have htold₂ : s₂.tree.isTold c = true →
      s.tree.isTold c = true ∨ c ∈ dismissed policies s (past ++ [(x, e)]) := by
    intro h₂
    rw [mem_dismissed_concat hrun (x, e), ← or_assoc]
    exact (told_of_serve? hsound₁ hserve hk h₂).imp_left htold
  rcases acts_of_serve? hserve with hacts | rfl
  · obtain ⟨k', hk', hlater⟩ := hacts.later (Tree.service?_of_child? hk)
    obtain ⟨child, hchild, -⟩ := child?_of_service? hk'
    refine ⟨hsound₁.next hacts, ⟨child, hchild⟩, fun h₀ => Tree.isOver_iff.mpr fun k'' hlive => ?_,
      htold₂⟩
    cases hk'.symm.trans hlive.1
    exact Tree.isOver_iff.mp (hover h₀) _
      ⟨Tree.service?_of_child? hk, hlater.isOver_eq_false hlive.2⟩
  · exact ⟨hsound₁, ⟨k, hk⟩, hover, htold₂⟩

/-! ## Calls that remove a service -/

/-- What a call does that takes the service `c` out of a set, and what holds when it returns. -/
structure Removes (policies : Nat → RestartPolicy) (s : Host) (n token c : Nat) (tree : Tree) :
    Prop where
  named : ∃ k, s.tree.child? c = some k ∧ k.parent = n ∧ k.token = token
  told : tree.isTold c = true
  /-- Nobody else is told. -/
  alone : ∀ c', c' ≠ c → tree.isTold c' = s.tree.isTold c'
  /-- It returns when the service is over. That is then so for good, and others were told only by
  other calls. -/
  returned : ∀ window s', run? (Host.serve? policies) { tree, calls := [c] :: s.calls } window = some s' →
    s'.tree.isOver c = true →
      (∀ future s'', run? (Host.serve? policies) s' future = some s'' → s''.tree.isOver c = true) ∧
      ∀ c', c' ≠ c → c' < s.tree.children.length → s'.tree.isTold c' = true →
        s.tree.isTold c' = true ∨
          c' ∈ dismissed policies { tree, calls := [c] :: s.calls } window

theorem isTold_of_remove? {tree : Tree} (hsound : Sound s)
    (hremove : s.tree.remove? n token = some (tree, c)) (c' : Nat) :
    tree.isTold c' = (s.tree.isTold c' || decide (c = c')) := by
  obtain ⟨hmember, rfl⟩ := mem_members_of_remove? hremove
  cases hchild : s.tree.child? c' with
  | some k => exact Tree.isTold_remove hchild n token c
  | none =>
    have hnone : ((s.tree.alterNode n (·.drop token)).cancel c).child? c' = none := by
      rw [Tree.child?_cancel, show (s.tree.alterNode n (·.drop token)).child? c' = none from hchild]
      rfl
    have hne : c ≠ c' := by
      rintro rfl
      obtain ⟨k, hk, -⟩ := hsound.attached hmember
      obtain ⟨child, hchild', -⟩ := child?_of_service? hk
      cases hchild.symm.trans hchild'
    rw [Tree.isTold_of_none hchild, Tree.isTold_of_none hnone, decide_eq_false hne]
    rfl

theorem removes_of_remove? {tree : Tree} (hsound : Sound s)
    (hremove : s.tree.remove? n token = some (tree, c)) : Removes policies s n token c tree := by
  have htold := isTold_of_remove? hsound hremove
  obtain ⟨hmember, rfl⟩ := mem_members_of_remove? hremove
  obtain ⟨k, hk, hparent, htoken⟩ := hsound.attached hmember
  obtain ⟨child, hchild, rfl⟩ := child?_of_service? hk
  have hlength : ((s.tree.alterNode n (·.drop token)).cancel c).children.length =
      s.tree.children.length := List.length_modify ..
  have hsound' : Sound
      { tree := (s.tree.alterNode n (·.drop token)).cancel c, calls := [c] :: s.calls } :=
    hsound.next (.removed hmember)
  have halone : ∀ c', c' ≠ c → ((s.tree.alterNode n (·.drop token)).cancel c).isTold c' =
      s.tree.isTold c' := by
    intro c' hne
    rw [htold, decide_eq_false hne.symm, Bool.or_false]
  refine ⟨⟨child, hchild, hparent, htoken⟩, ?_, halone, ?_⟩
  · rw [htold, decide_eq_true rfl, Bool.or_true]
  · intro window s' hwindow hover
    have hlt := Tree.lt_of_child? hchild
    have hremains := remains_of_run? hsound' (hlength.symm ▸ hlt) hwindow
    refine ⟨fun future s'' hfuture => ?_, fun c' hne hlt' htold' => ?_⟩
    · obtain ⟨k', hk'⟩ := hremains.exists_child
      exact (remains_of_run? hremains.sound (Tree.lt_of_child? hk') hfuture).stays_over hover
    · have hothers := (remains_of_run? hsound' (hlength.symm ▸ hlt') hwindow).told htold'
      rw [halone c' hne] at hothers
      exact hothers

/-- **The services of a supervisor are accounted for**, however calls that add, remove and stop are
mixed with services that end by themselves. No token is given out twice, and tokens stay below the
number of services that were added; as long as these are no more than 64 bits can tell apart, no
word is given out twice either. The set has as many members as there are services that are not over
and were not dismissed. A call that removes a service finds it exactly if it is one of these; then
it tells that service and nobody else, and returns when it is over. Any other such call changes
nothing. -/
theorem services_accounted {policy : RestartPolicy} {run : List (Nat × Event)}
    (hrun : run? (Host.serve? policies) { tree := .root policy } run = some s) (n : Nat) :
    (∀ c c' k k', s.tree.child? c = some k → s.tree.child? c' = some k' → k.parent = n →
      k'.parent = n → k.token = k'.token → c = c') ∧
    (∀ c k, s.tree.child? c = some k → k.parent = n → k.token < adds n run) ∧
    (adds n run ≤ UInt64.size → ∀ c c' k k', s.tree.child? c = some k → s.tree.child? c' = some k' →
      k.parent = n → k'.parent = n →
      Supervisor.tokenWord k.token = Supervisor.tokenWord k'.token → c = c') ∧
    (∀ node, s.tree.nodes[n]? = some node →
      node.size = (s.present (dismissed policies { tree := .root policy } run) n).length) ∧
    ∀ token,
      ((s.tree.remove? n token).isSome = true ↔
        ∃ c ∈ s.present (dismissed policies { tree := .root policy } run) n,
          ∃ k, s.tree.child? c = some k ∧ k.token = token) ∧
      (∀ tree c, s.tree.remove? n token = some (tree, c) → Removes policies s n token c tree) ∧
      (s.tree.remove? n token = none → ∀ x, s.serve? policies (x, .remove n token) = some s) := by
  obtain ⟨hsound, -, -⟩ := current_of_served hrun
  have hinj : ∀ c c' k k', s.tree.child? c = some k → s.tree.child? c' = some k' → k.parent = n →
      k'.parent = n → k.token = k'.token → c = c' := by
    intro c c' k k' hk hk' hparent hparent' htoken
    exact hsound.token_inj (Tree.service?_of_child? hk) (Tree.service?_of_child? hk')
      (hparent.trans hparent'.symm) htoken
  have hbelow : ∀ c k, s.tree.child? c = some k → k.parent = n → k.token < adds n run := by
    rintro c k hk rfl
    have hlt := hsound.token_lt (Tree.service?_of_child? hk)
    exact Nat.lt_of_lt_of_le hlt (nextToken_le_adds hrun k.parent)
  refine ⟨hinj, hbelow, ?_, ?_, fun token => ⟨?_, fun tree c => removes_of_remove? hsound, ?_⟩⟩
  · intro hfew c c' k k' hk hk' hparent hparent' hword
    have hlt : k.token < UInt64.size := Nat.lt_of_lt_of_le (hbelow c k hk hparent) hfew
    have hlt' : k'.token < UInt64.size := Nat.lt_of_lt_of_le (hbelow c' k' hk' hparent') hfew
    exact hinj c c' k k' hk hk' hparent hparent' ((Supervisor.tokenWord_inj hlt hlt').mp hword)
  · intro node hnode
    have hmembers : s.tree.members n = node.members := by
      rw [Tree.members, hnode]
      rfl
    have hlength := (perm_present hrun n).length_eq
    rw [List.length_map, hmembers] at hlength
    exact hlength
  · have hmember : (s.tree.remove? n token).isSome = true ↔ ∃ c, (token, c) ∈ s.tree.members n := by
      constructor
      · intro hsome
        obtain ⟨⟨tree, c⟩, hremove⟩ := Option.isSome_iff_exists.mp hsome
        exact ⟨c, (mem_members_of_remove? hremove).1⟩
      · rintro ⟨c, hmember⟩
        exact Option.isSome_iff_ne_none.mpr (remove?_of_mem hmember)
    rw [hmember]
    constructor
    · rintro ⟨c, hmember⟩
      obtain ⟨k, hlive, hparent, htoken, hspared⟩ := (mem_members_iff hrun).mp hmember
      obtain ⟨child, hchild, rfl⟩ := child?_of_service? hlive.1
      exact ⟨c, mem_present_iff.mpr ⟨_, hlive, hparent, hspared⟩, child, hchild, htoken⟩
    · rintro ⟨c, hpresent, child, hchild, htoken⟩
      obtain ⟨k, hlive, hparent, hspared⟩ := mem_present_iff.mp hpresent
      cases (Tree.service?_of_child? hchild).symm.trans hlive.1
      exact ⟨c, (mem_members_iff hrun).mpr ⟨_, hlive, hparent, htoken, hspared⟩⟩
  · intro hnone x
    have hact : s.act? (.remove n token) = none := Option.map_eq_none_iff.mpr hnone
    show some ((s.act? (.remove n token)).getD s) = some s
    rw [hact]
    rfl

/-- Of three services one is done at once, and one was removed but still runs. The one that is left
can be removed, and the one that is still running stays as it is. -/
theorem services_accounted_mixed : ∃ s : Host,
    run? (Host.serve? fun _ => {}) { tree := .root {} } [(0, .add 0 .leaf), (0, .add 0 .leaf),
      (0, .add 0 .leaf), (0, .move {} 0 0 (.ended .complete)), (7, .remove 0 1)] = some s ∧
    (∀ node, s.tree.nodes[0]? = some node → node.size = 1) ∧
    (s.tree.remove? 0 1).isSome = false ∧
    ∃ tree, s.tree.remove? 0 2 = some (tree, 2) ∧ tree.isTold 2 = true ∧ tree.isTold 0 = false := by
  obtain ⟨s, hrun, hpresent, htoken, htold, tree, hremove⟩ : ∃ s : Host,
      run? (Host.serve? fun _ => {}) { tree := .root {} } [(0, .add 0 .leaf), (0, .add 0 .leaf),
        (0, .add 0 .leaf), (0, .move {} 0 0 (.ended .complete)), (7, .remove 0 1)] = some s ∧
      s.present (dismissed (fun _ => {}) { tree := .root {} } [(0, .add 0 .leaf),
        (0, .add 0 .leaf), (0, .add 0 .leaf), (0, .move {} 0 0 (.ended .complete)),
        (7, .remove 0 1)]) 0 = [2] ∧
      (s.tree.child? 2).map (·.token) = some 2 ∧ s.tree.isTold 0 = false ∧
      ∃ tree, s.tree.remove? 0 2 = some (tree, 2) :=
    ⟨_, rfl, by decide, rfl, rfl, _, rfl⟩
  obtain ⟨-, -, -, hsize, hremoves⟩ := services_accounted hrun 0
  rw [hpresent] at hsize hremoves
  refine ⟨s, hrun, hsize, ?_, tree, hremove, ?_, ?_⟩
  · refine Bool.eq_false_iff.mpr fun hsome => ?_
    obtain ⟨c, hc, k, hk, hktoken⟩ := (hremoves 1).1.mp hsome
    rw [List.mem_singleton.mp hc] at hk
    rw [hk, Option.map_some, hktoken] at htoken
    cases htoken
  · exact ((hremoves 2).2.1 tree 2 hremove).told
  · exact (((hremoves 2).2.1 tree 2 hremove).alone 0 (by decide)).trans htold

end Wiretap.Supervision
