import Wiretap.Proofs.Supervision.Event

/-!
# Order in a tree of supervisors

Whatever happens to a tree, each of its services that is not over is accounted for: it is in the set
of its supervisor, or somebody who took it out of there waits for it.

Results:

* `Acts.origin`: a service was there before, or has just been added.
* `Acts.nextToken_eq`: the tokens of a supervisor count the services that are added to it.
* `sound_of_run?`: tokens and supervisors are not confused, and `Held` accounts for each service.
-/

namespace Wiretap.Supervision

/-- Who accounts for a service that is not over. -/
inductive Held (s : Host) (c : Nat) (k : Child) : Prop where
  | attached (hmember : (k.token, c) ∈ s.tree.members k.parent)
  /-- A call took it out of the set. -/
  | called {call : List Nat} (hcall : call ∈ s.calls) (hc : c ∈ call)
  /-- The service that runs its supervisor did. -/
  | gathered {c' : Nat} {k' : Child} {awaited : List Nat} (hlive : s.tree.Live c' k')
      (hwork : k'.work = .supervisor k.parent) (hawaited : k'.awaited = some awaited)
      (hc : c ∈ awaited)

/-- What holds of a tree at all times. -/
structure Sound (s : Host) : Prop where
  /-- A set holds services of its supervisor, under their tokens. -/
  attached : ∀ {n token c}, (token, c) ∈ s.tree.members n →
    ∃ k, s.tree.service? c = some k ∧ k.parent = n ∧ k.token = token
  /-- No token is given out twice. -/
  token_lt : ∀ {c k}, s.tree.service? c = some k → k.token < s.tree.nextToken k.parent
  token_inj : ∀ {c c' k k'}, s.tree.service? c = some k → s.tree.service? c' = some k' →
    k.parent = k'.parent → k.token = k'.token → c = c'
  /-- A supervisor is the service of at most one other. -/
  single : ∀ {c c' k k' n}, s.tree.Live c k → s.tree.Live c' k' → k.work = .supervisor n →
    k'.work = .supervisor n → c = c'
  /-- A supervisor does not fail. -/
  steady : ∀ {c k n}, s.tree.service? c = some k → k.work = .supervisor n →
    ∀ failures due, k.life ≠ .resting failures due
  held : ∀ {c k}, s.tree.Live c k → Held s c k

variable {s s' : Host} {e : Event} {c : Nat} {k k' : Child}

theorem Child.Later.isOver_eq_false (h : k.Later k') (hlive : k'.life.isOver = false) :
    k.life.isOver = false := by
  cases hover : k.life.isOver with
  | false => rfl
  | true => cases (h.isOver hover).symm.trans hlive

/-! ## What an event adds -/

/-- The service that an event adds. -/
inductive Added (s : Host) : Event → Host → Nat → Child → Prop where
  | intro {n : Nat} {work : Work} (hn : n < s.tree.nodes.length)
      (hfree : s.tree.isFree work = true) :
      Added s (.add n work) { s with tree := s.tree.add n work } s.tree.children.length
        { parent := n, token := s.tree.nextToken n, work }

/-- A service was there before, or has just been added. -/
theorem Acts.origin (h : Acts s e s') (hk' : s'.tree.service? c = some k') :
    (∃ k, s.tree.service? c = some k ∧ k.Later k') ∨ Added s e s' c k' := by
  cases hk : s.tree.service? c with
  | some k =>
    obtain ⟨k₁, hk₁, hlater⟩ := h.later hk
    cases hk₁.symm.trans hk'
    exact .inl ⟨k, rfl, hlater⟩
  | none =>
    cases h with
    | found => cases hk.symm.trans hk'
    | @added n work hn hfree =>
      rw [Tree.service?_add] at hk'
      split at hk'
      next hc =>
        cases hk'
        cases hc
        exact .inr ⟨hn, hfree⟩
      next => cases hk.symm.trans hk'
    | removed => cases hk.symm.trans ((Tree.service?_cancel ..).symm.trans hk')
    | stopped => cases hk.symm.trans ((Tree.service?_stop ..).symm.trans hk')
    | entered hchild | released hchild =>
      rw [Tree.service?_enter hchild] at hk'
      split at hk'
      next hc =>
        rw [hc, Tree.service?_of_child? hchild] at hk
        cases hk
      next => cases hk.symm.trans hk'
    | gathered hchild =>
      rw [Tree.service?_gather hchild] at hk'
      split at hk'
      next hc =>
        rw [hc, Tree.service?_of_child? hchild] at hk
        cases hk
      next => cases hk.symm.trans hk'

/-- A service that is not over was not over before, or has just been added. -/
theorem Acts.origin_live (h : Acts s e s') (hk' : s'.tree.Live c k') :
    (∃ k, s.tree.Live c k ∧ k.Later k') ∨ Added s e s' c k' := by
  rcases h.origin hk'.1 with ⟨k, hk, hlater⟩ | hadded
  · exact .inl ⟨k, ⟨hk, hlater.isOver_eq_false hk'.2⟩, hlater⟩
  · exact .inr hadded

/-- The event adds a service to the supervisor `n`. -/
def Event.addsTo (n : Nat) : Event → Bool
  | .add m _ => m == n
  | _ => false

/-- Tokens count the services that are added. -/
theorem Acts.nextToken_eq (h : Acts s e s') (n : Nat) :
    s'.tree.nextToken n = s.tree.nextToken n + if e.addsTo n then 1 else 0 := by
  cases h with
  | found => exact Tree.nextToken_found ..
  | @added m work hm =>
    rw [Tree.nextToken_add hm, Event.addsTo]
    by_cases heq : n = m
    · simp [heq]
    · simp [heq, Ne.symm heq]
  | removed => exact Tree.nextToken_drop ..
  | stopped => exact Tree.nextToken_stop ..
  | entered _ _ _ hmove =>
    rcases hmove with ⟨policy, now, m, rfl⟩ | ⟨now, rfl⟩
    · exact Tree.nextToken_enter ..
    · exact Tree.nextToken_enter ..
  | released => exact Tree.nextToken_enter ..
  | gathered => exact Tree.nextToken_stop ..

theorem Acts.nextToken_le (h : Acts s e s') (n : Nat) :
    s.tree.nextToken n ≤ s'.tree.nextToken n := by
  rw [h.nextToken_eq]
  exact Nat.le_add_right _ _

theorem Acts.mem_members (h : Acts s e s') {n token : Nat}
    (hmember : (token, c) ∈ s'.tree.members n) :
    (token, c) ∈ s.tree.members n ∨
      ∃ k', Added s e s' c k' ∧ k'.parent = n ∧ k'.token = token := by
  cases h with
  | found => exact .inl ((Tree.members_found ..) ▸ hmember)
  | @added n' work hn hfree =>
    rw [Tree.members_add hn] at hmember
    split at hmember
    next heq =>
      rcases List.mem_cons.mp hmember with hnew | hold
      · cases hnew
        exact .inr ⟨_, ⟨hn, hfree⟩, heq.symm, rfl⟩
      · exact .inl hold
    next => exact .inl hmember
  | removed =>
    refine .inl ?_
    have hmember : (token, c) ∈ (s.tree.alterNode _ (·.drop _)).members n := hmember
    rw [Tree.members_drop] at hmember
    split at hmember
    next => exact (List.mem_filter.mp hmember).1
    next => exact hmember
  | stopped =>
    rw [Tree.members_stop] at hmember
    split at hmember
    next => cases hmember
    next => exact .inl hmember
  | entered | released =>
    rw [Tree.members_enter] at hmember
    split at hmember
    next => exact .inl (List.mem_filter.mp hmember).1
    next => exact .inl hmember
  | gathered =>
    rw [Tree.members_gather] at hmember
    split at hmember
    next => cases hmember
    next => exact .inl hmember

theorem Acts.calls_sub (h : Acts s e s') : s.calls ⊆ s'.calls := by
  cases h with
  | removed | stopped => exact List.subset_cons_self ..
  | _ => exact List.Subset.refl _

/-! ## Each part is kept -/

namespace Added

theorem service (h : Added s e s' c k') : s'.tree.service? c = some k' := by
  cases h
  exact (Tree.service?_add ..).trans (if_pos rfl)

theorem nextToken (h : Added s e s' c k') :
    k'.token = s.tree.nextToken k'.parent ∧
      s'.tree.nextToken k'.parent = s.tree.nextToken k'.parent + 1 := by
  cases h with | intro hn hfree => ?_
  exact ⟨rfl, (Tree.nextToken_add hn ..).trans (if_pos rfl)⟩

theorem attached (h : Added s e s' c k') : (k'.token, c) ∈ s'.tree.members k'.parent := by
  cases h with | intro hn hfree => ?_
  rw [Tree.members_add hn, if_pos rfl]
  exact List.mem_cons_self

theorem event_eq (h : Added s e s' c k') : ∃ work, e = .add k'.parent work := by
  cases h
  exact ⟨_, rfl⟩

/-- A supervisor that is added is no service yet. -/
theorem work_ne {c' n : Nat} {k : Child} (h : Added s e s' c k') (hk : s.tree.Live c' k)
    (hwork : k'.work = .supervisor n) : k.work ≠ .supervisor n := by
  cases h with | intro hn hfree => ?_
  exact Tree.isFree_supervisor (hwork ▸ hfree) hk

theorem unique {c' : Nat} {k'' : Child} (h : Added s e s' c k') (h' : Added s e s' c' k'') :
    c' = c := by
  cases h
  cases h'
  rfl

end Added

/-- A service is taken out of the set of its supervisor. -/
inductive Taken (s : Host) (c : Nat) (k : Child) : Event → Host → Prop where
  | removed : Taken s c k (.remove k.parent k.token)
      { tree := (s.tree.alterNode k.parent (·.drop k.token)).cancel c, calls := [c] :: s.calls }
  | stopped : Taken s c k (.stop k.parent)
      { tree := (s.tree.stop k.parent).1, calls := (s.tree.stop k.parent).2 :: s.calls }
  | gathered {policy : RestartPolicy} {now c' : Nat} {child : Child}
      (hchild : s.tree.child? c' = some child) (hlive : child.life.isOver = false)
      (hwork : child.work = .supervisor k.parent) :
      Taken s c k (.move policy now c' .gather) { s with tree := s.tree.gather c' child k.parent }

theorem mem_awaited_stop {t : Tree} {n token : Nat} (h : (token, c) ∈ t.members n) :
    c ∈ (t.stop n).2 := by
  rw [Tree.awaited_stop]
  exact List.mem_map.mpr ⟨_, h, rfl⟩

/-- Who takes a service out of a set waits for it. -/
theorem Taken.held (h : Taken s c k e s') (hmember : (k.token, c) ∈ s.tree.members k.parent)
    (hlater : k.Later k') : Held s' c k' := by
  cases h with
  | removed => exact .called List.mem_cons_self List.mem_cons_self
  | stopped => exact .called List.mem_cons_self (mem_awaited_stop hmember)
  | @gathered _ _ c' child hchild hlive hwork =>
    have hservice := (Tree.service?_gather hchild k.parent c').trans (if_pos rfl)
    exact .gathered ⟨hservice, hlive⟩ (hwork.trans (congrArg _ hlater.parent_eq.symm)) rfl
      (mem_awaited_stop hmember)

/-- What becomes of a service that runs the supervisor `n`. -/
inductive Works (s : Host) (c : Nat) (k : Child) (n : Nat) : Host → Prop where
  | stays {s' : Host} (hlive : s'.tree.Live c k) : Works s c k n s'
  /-- It stops the supervisor. -/
  | gathers {child : Child} (hchild : s.tree.child? c = some child) (hnone : k.awaited = none) :
      Works s c k n { s with tree := s.tree.gather c child n }
  /-- All that it has waited for is over, and so is the service. -/
  | releases {s' : Host} {awaited : List Nat} (hawaited : k.awaited = some awaited)
      (hover : ∀ c' ∈ awaited, s.tree.isOver c' = true) (hends : s'.tree.isOver c = true) :
      Works s c k n s'

namespace Sound

theorem next_token_lt (h : Sound s) (hacts : Acts s e s') (hk' : s'.tree.service? c = some k') :
    k'.token < s'.tree.nextToken k'.parent := by
  rcases hacts.origin hk' with ⟨k, hk, hlater⟩ | hadded
  · rw [hlater.token_eq, hlater.parent_eq]
    exact Nat.lt_of_lt_of_le (h.token_lt hk) (hacts.nextToken_le _)
  · rw [hadded.nextToken.1, hadded.nextToken.2]
    exact Nat.lt_succ_self _

/-- A token that is given out is above all that were. -/
theorem token_ne (h : Sound s) {c' : Nat} {k₀ k'' : Child} (hadded : Added s e s' c k')
    (hk₀ : s.tree.service? c' = some k₀) (hlater : k₀.Later k'') (hparent : k'.parent = k''.parent) :
    k'.token ≠ k''.token := by
  intro htoken
  have hlt := h.token_lt hk₀
  rw [← hlater.token_eq, ← hlater.parent_eq, ← htoken, ← hparent, hadded.nextToken.1] at hlt
  exact Nat.lt_irrefl _ hlt

theorem next_token_inj (h : Sound s) (hacts : Acts s e s') {c₁ c₂ : Nat} {k₁ k₂ : Child}
    (hk₁ : s'.tree.service? c₁ = some k₁) (hk₂ : s'.tree.service? c₂ = some k₂)
    (hparent : k₁.parent = k₂.parent) (htoken : k₁.token = k₂.token) : c₁ = c₂ := by
  rcases hacts.origin hk₁ with hold₁ | hadded₁ <;> rcases hacts.origin hk₂ with hold₂ | hadded₂
  · obtain ⟨k₁', hk₁', hlater₁⟩ := hold₁
    obtain ⟨k₂', hk₂', hlater₂⟩ := hold₂
    refine h.token_inj hk₁' hk₂' ?_ ?_
    · rw [← hlater₁.parent_eq, ← hlater₂.parent_eq, hparent]
    · rw [← hlater₁.token_eq, ← hlater₂.token_eq, htoken]
  · obtain ⟨k₁', hk₁', hlater₁⟩ := hold₁
    exact absurd htoken.symm (h.token_ne hadded₂ hk₁' hlater₁ hparent.symm)
  · obtain ⟨k₂', hk₂', hlater₂⟩ := hold₂
    exact absurd htoken (h.token_ne hadded₁ hk₂' hlater₂ hparent)
  · exact hadded₂.unique hadded₁

theorem next_single (h : Sound s) (hacts : Acts s e s') {c₁ c₂ n : Nat} {k₁ k₂ : Child}
    (hk₁ : s'.tree.Live c₁ k₁) (hk₂ : s'.tree.Live c₂ k₂) (hwork₁ : k₁.work = .supervisor n)
    (hwork₂ : k₂.work = .supervisor n) : c₁ = c₂ := by
  rcases hacts.origin_live hk₁ with hold₁ | hadded₁ <;>
    rcases hacts.origin_live hk₂ with hold₂ | hadded₂
  · obtain ⟨k₁', hk₁', hlater₁⟩ := hold₁
    obtain ⟨k₂', hk₂', hlater₂⟩ := hold₂
    exact h.single hk₁' hk₂' (hlater₁.work_eq.symm.trans hwork₁) (hlater₂.work_eq.symm.trans hwork₂)
  · obtain ⟨k₁', hk₁', hlater₁⟩ := hold₁
    exact absurd (hlater₁.work_eq.symm.trans hwork₁) (hadded₂.work_ne hk₁' hwork₂)
  · obtain ⟨k₂', hk₂', hlater₂⟩ := hold₂
    exact absurd (hlater₂.work_eq.symm.trans hwork₂) (hadded₁.work_ne hk₂' hwork₁)
  · exact hadded₂.unique hadded₁

theorem next_attached (h : Sound s) (hacts : Acts s e s') {n token : Nat}
    (hmember : (token, c) ∈ s'.tree.members n) :
    ∃ k, s'.tree.service? c = some k ∧ k.parent = n ∧ k.token = token := by
  rcases hacts.mem_members hmember with hold | ⟨k', hadded, hparent, htoken⟩
  · obtain ⟨k, hk, hparent, htoken⟩ := h.attached hold
    obtain ⟨k', hk', hlater⟩ := hacts.later hk
    exact ⟨k', hk', hlater.parent_eq.trans hparent, hlater.token_eq.trans htoken⟩
  · exact ⟨k', hadded.service, hparent, htoken⟩

/-- Only services that have failed, or leaves, go over to another run. -/
theorem not_ordinary (h : Sound s) {child : Child} {n : Nat} (hchild : s.tree.child? c = some child)
    (hwork : child.work = .supervisor n) :
    ¬ (child.work = .leaf ∨ ∃ failures due, child.life = .resting failures due) := by
  rintro (hleaf | ⟨failures, due, hlife⟩)
  · cases hleaf.symm.trans hwork
  · exact h.steady (Tree.service?_of_child? hchild) hwork failures due hlife

theorem next_steady (h : Sound s) (hacts : Acts s e s') {n : Nat}
    (hk' : s'.tree.service? c = some k') (hwork : k'.work = .supervisor n) (failures due : Nat) :
    k'.life ≠ .resting failures due := by
  cases hacts with
  | found => exact h.steady hk' hwork failures due
  | added =>
    rw [Tree.service?_add] at hk'
    split at hk'
    next =>
      cases hk'
      nofun
    next => exact h.steady hk' hwork failures due
  | removed => exact h.steady ((Tree.service?_cancel ..).symm.trans hk') hwork failures due
  | stopped => exact h.steady ((Tree.service?_stop ..).symm.trans hk') hwork failures due
  | entered hchild _ hordinary =>
    rw [Tree.service?_enter hchild] at hk'
    split at hk'
    next =>
      cases hk'
      exact absurd hordinary (h.not_ordinary hchild hwork)
    next => exact h.steady hk' hwork failures due
  | gathered hchild =>
    rw [Tree.service?_gather hchild] at hk'
    split at hk'
    next =>
      cases hk'
      exact h.steady (Tree.service?_of_child? hchild) hwork failures due
    next => exact h.steady hk' hwork failures due
  | released hchild =>
    rw [Tree.service?_enter hchild] at hk'
    split at hk'
    next =>
      cases hk'
      nofun
    next => exact h.steady hk' hwork failures due

/-- A service that is not over is still in the set after any of them has gone on to another life. -/
theorem attached_enter (h : Sound s) {c' : Nat} {child : Child} {life : Life}
    (hchild : s.tree.child? c' = some child) (hk : s.tree.Live c k)
    (hk' : (s.tree.enter c' child life).Live c k')
    (hmember : (k.token, c) ∈ s.tree.members k.parent) :
    (k.token, c) ∈ (s.tree.enter c' child life).members k.parent := by
  rw [Tree.members_enter]
  split
  next hleaves =>
    refine List.mem_filter.mpr ⟨hmember, bne_iff_ne.mpr fun htoken => ?_⟩
    -- only the service itself has its token
    obtain rfl := h.token_inj hk.1 (Tree.service?_of_child? hchild) hleaves.1 htoken
    rw [Tree.Live, Tree.service?_enter hchild, if_pos rfl] at hk'
    cases hk'.1
    cases hleaves.2.symm.trans hk'.2
  next => exact hmember

/-- A service in the set of its supervisor stays there until it is over or is taken out. -/
theorem attached_or_taken (h : Sound s) (hacts : Acts s e s') (hk : s.tree.Live c k)
    (hk' : s'.tree.Live c k') (hmember : (k.token, c) ∈ s.tree.members k.parent) :
    (k.token, c) ∈ s'.tree.members k.parent ∨ Taken s c k e s' := by
  cases hacts with
  | found => exact .inl ((Tree.members_found ..).symm ▸ hmember)
  | added hn =>
    refine .inl ?_
    rw [Tree.members_add hn]
    split
    next => exact List.mem_cons_of_mem _ hmember
    next => exact hmember
  | @removed n token c' hremoved =>
    by_cases hsame : k.parent = n ∧ k.token = token
    · obtain ⟨rfl, rfl⟩ := hsame
      obtain ⟨k₁, hk₁, hparent, htoken⟩ := h.attached hremoved
      obtain rfl := h.token_inj hk.1 hk₁ hparent.symm htoken.symm
      exact .inr .removed
    · refine .inl ?_
      change _ ∈ (s.tree.alterNode n (·.drop token)).members k.parent
      rw [Tree.members_drop]
      split
      next hparent =>
        exact List.mem_filter.mpr ⟨hmember, bne_iff_ne.mpr fun htoken => hsame ⟨hparent, htoken⟩⟩
      next => exact hmember
  | @stopped n =>
    by_cases hparent : k.parent = n
    · subst hparent
      exact .inr .stopped
    · exact .inl (by rwa [Tree.members_stop, if_neg hparent])
  | entered hchild | released hchild => exact .inl (h.attached_enter hchild hk hk' hmember)
  | @gathered _ _ c' n child hchild hlive hwork =>
    by_cases hparent : k.parent = n
    · subst hparent
      exact .inr (.gathered hchild hlive hwork)
    · exact .inl (by rwa [Tree.members_gather, if_neg hparent])

theorem works (h : Sound s) (hacts : Acts s e s') {n : Nat} (hk : s.tree.Live c k)
    (hwork : k.work = .supervisor n) : Works s c k n s' := by
  cases hacts with
  | found => exact .stays hk
  | added =>
    refine .stays ⟨?_, hk.2⟩
    rw [Tree.service?_add, if_neg (Nat.ne_of_lt (Tree.lt_of_service? hk.1))]
    exact hk.1
  | removed => exact .stays ⟨(Tree.service?_cancel ..).trans hk.1, hk.2⟩
  | stopped => exact .stays ⟨(Tree.service?_stop ..).trans hk.1, hk.2⟩
  | @entered _ c' child life hchild _ hordinary =>
    by_cases hc : c = c'
    · subst hc
      cases (Tree.service?_of_child? hchild).symm.trans hk.1
      exact absurd hordinary (h.not_ordinary hchild hwork)
    · exact .stays ⟨(Tree.service?_enter hchild ..).trans ((if_neg hc).trans hk.1), hk.2⟩
  | @gathered _ _ c' n' child hchild _ hwork' hnone =>
    by_cases hc : c = c'
    · subst hc
      cases (Tree.service?_of_child? hchild).symm.trans hk.1
      cases hwork'.symm.trans hwork
      exact .gathers hchild hnone
    · exact .stays ⟨(Tree.service?_gather hchild ..).trans ((if_neg hc).trans hk.1), hk.2⟩
  | @released _ _ c' _ child awaited hchild _ _ hawaited hover =>
    by_cases hc : c = c'
    · subst hc
      cases (Tree.service?_of_child? hchild).symm.trans hk.1
      refine .releases hawaited hover (Tree.isOver_iff.mpr fun k' hk' => ?_)
      rw [Tree.Live, Tree.service?_enter hchild, if_pos rfl] at hk'
      cases hk'.1
      cases hk'.2
    · exact .stays ⟨(Tree.service?_enter hchild ..).trans ((if_neg hc).trans hk.1), hk.2⟩

theorem next_held (h : Sound s) (hacts : Acts s e s') (hk' : s'.tree.Live c k') :
    Held s' c k' := by
  rcases hacts.origin_live hk' with ⟨k, hk, hlater⟩ | hadded
  · cases h.held hk with
    | attached hmember =>
      rcases h.attached_or_taken hacts hk hk' hmember with hstays | htaken
      · exact .attached (by rwa [hlater.token_eq, hlater.parent_eq])
      · exact htaken.held hmember hlater
    | called hcall hc => exact .called (hacts.calls_sub hcall) hc
    | gathered hlive hwork hawaited hc =>
      cases h.works hacts hlive hwork with
      | stays hlive' =>
        exact .gathered hlive' (hwork.trans (congrArg _ hlater.parent_eq.symm)) hawaited hc
      | gathers _ hnone => cases hnone.symm.trans hawaited
      | releases hawaited' hover =>
        cases hawaited'.symm.trans hawaited
        exact absurd hk (Tree.isOver_iff.mp (hover c hc) k)
  · exact .attached hadded.attached

theorem next (h : Sound s) (hacts : Acts s e s') : Sound s' where
  attached := h.next_attached hacts
  token_lt := h.next_token_lt hacts
  token_inj := h.next_token_inj hacts
  single := h.next_single hacts
  steady := h.next_steady hacts
  held := h.next_held hacts

theorem root (policy : RestartPolicy) : Sound { tree := .root policy } := by
  have hnone : ∀ {c k}, (Tree.root policy).service? c ≠ some k := by
    intro c k hk
    exact absurd (Tree.lt_of_service? hk) (Nat.not_lt_zero c)
  have hempty : ∀ n, (Tree.root policy).members n = [] := by
    intro n
    rcases n with _ | n <;> rfl
  exact {
    attached := fun {n _ _} hmember => by
      rw [hempty n] at hmember
      cases hmember
    token_lt := fun hk => absurd hk hnone
    token_inj := fun hk => absurd hk hnone
    single := fun hk => absurd hk.1 hnone
    steady := fun hk => absurd hk hnone
    held := fun hk => absurd hk.1 hnone }

end Sound

/-- **All services of a tree are accounted for**, at any time of any run. -/
theorem sound_of_run? {policy : RestartPolicy} {es : List Event}
    (h : run? Host.act? { tree := .root policy } es = some s) : Sound s :=
  run?_invariant (motive := fun _ s => Sound s) (.root policy)
    (fun _ hsound hact => hsound.next (acts_of_act? hact)) h

end Wiretap.Supervision
