import Wiretap.Proofs.Supervision.Order

/-!
# Stopping a tree of supervisors

A call that stops a supervisor waits for the services that it takes out of the set of that
supervisor. Those that are supervisors themselves stop in turn what is below them, so that
everything below is over when the call returns, provided that nobody else is stopping a part of it.

Results:

* `Winding.next`: while the call waits, each supervisor below is at work, or is being stopped, or is
  done.
* `over_of_returned`: what is over when the call returns.
* `not_over_of_overlap`: it is less where calls overlap, or where a supervisor outlives its service.
-/

namespace Wiretap.Supervision

/-- The supervisors below another one, and that one itself: the services of each of them that are
not over lead further down. -/
inductive Below (t : Tree) (n : Nat) : Nat → Prop where
  | self : Below t n n
  | service {c : Nat} {k : Child} {m : Nat} (hlive : t.Live c k) (hwork : k.work = .supervisor m)
      (hparent : Below t n k.parent) : Below t n m

/-- Nobody is stopping the supervisor or one below it, and nobody has taken a service out of their
sets that is not over. -/
structure Calm (s : Host) (n : Nat) : Prop where
  calls : ∀ call ∈ s.calls, ∀ c ∈ call, ∀ k, s.tree.Live c k → ¬ Below s.tree n k.parent
  services : ∀ c k m, s.tree.Live c k → k.work = .supervisor m → Below s.tree n m →
    k.awaited = none

/-- Nothing is added to the supervisor or one below it, and nobody stops one below it or takes a
service out of it. -/
def Event.Spares (t : Tree) (n : Nat) : Event → Prop
  | .add m _ => ¬ Below t n m
  | .remove m _ | .stop m => Below t n m → m = n
  | _ => True

/-! ## While the call waits -/

/-- How far a supervisor below has been stopped, given the service that runs it. -/
inductive Stage (t : Tree) (m : Nat) (k : Child) : Prop where
  | working (hlive : k.life.isOver = false) (hnone : k.awaited = none)
      (hattached : ∀ {c k'}, t.Live c k' → k'.parent = m → (k'.token, c) ∈ t.members m)
  | stopping {awaited : List Nat} (hlive : k.life.isOver = false)
      (hawaited : k.awaited = some awaited) (hempty : t.members m = [])
      (hwaits : ∀ {c k'}, t.Live c k' → k'.parent = m → c ∈ awaited)
  | done (hover : k.life.isOver = true) (hempty : t.members m = [])
      (hnobody : ∀ {c k'}, t.Live c k' → k'.parent ≠ m)

/-- What holds while a call that stops `n` waits for services. The tree `t` is that of its
beginning. -/
structure Winding (t : Tree) (n : Nat) (awaited : List Nat) (s : Host) : Prop where
  empty : s.tree.members n = []
  waits : ∀ {c k}, s.tree.Live c k → k.parent = n → c ∈ awaited
  below : ∀ {c k m}, t.Live c k → k.work = .supervisor m → Below t n k.parent → m ≠ n →
    ∃ k', s.tree.service? c = some k' ∧ k.Later k' ∧ Stage s.tree m k'

variable {s s' : Host} {e : Event} {n m c : Nat} {k k' : Child}

/-- In a calm tree every service below is in the set of its supervisor. -/
theorem Calm.attached (hcalm : Calm s n) (hsound : Sound s) (hlive : s.tree.Live c k)
    (hbelow : Below s.tree n k.parent) : (k.token, c) ∈ s.tree.members k.parent := by
  cases hsound.held hlive with
  | attached hmember => exact hmember
  | called hcall hc => exact absurd hbelow (hcalm.calls _ hcall c hc k hlive)
  | gathered hlive' hwork hawaited =>
    cases (hcalm.services _ _ _ hlive' hwork hbelow).symm.trans hawaited

theorem live_stop {t : Tree} (h : (t.stop n).1.Live c k) : t.Live c k :=
  ⟨(Tree.service?_stop ..).symm.trans h.1, h.2⟩

/-- What holds as soon as the call has taken the services out of the set. -/
theorem Winding.start (hcalm : Calm s n) (hsound : Sound s) :
    Winding s.tree n (s.tree.stop n).2
      { tree := (s.tree.stop n).1, calls := (s.tree.stop n).2 :: s.calls } where
  empty := (Tree.members_stop ..).trans (if_pos rfl)
  waits := by
    rintro c k hlive rfl
    exact mem_awaited_stop (hcalm.attached hsound (live_stop hlive) .self)
  below := by
    intro c k m hlive hwork hparent hne
    refine ⟨k, (Tree.service?_stop ..).trans hlive.1, .rfl, .working hlive.2 ?_ ?_⟩
    · exact hcalm.services c k m hlive hwork (.service hlive hwork hparent)
    · rintro c' k' hlive' rfl
      rw [Tree.members_stop, if_neg hne]
      exact hcalm.attached hsound (live_stop hlive') (.service hlive hwork hparent)

/-- An empty set to which nothing is added stays empty. -/
theorem members_eq_nil (hacts : Acts s e s') (hempty : s.tree.members m = [])
    (hadds : ∀ work, e ≠ .add m work) : s'.tree.members m = [] := by
  refine List.eq_nil_iff_forall_not_mem.mpr fun ⟨token, c⟩ hmember => ?_
  rcases hacts.mem_members hmember with hold | ⟨k', hadded, rfl, -⟩
  · rw [hempty] at hold
    cases hold
  · obtain ⟨work, he⟩ := hadded.event_eq
    exact hadds work he

/-- A supervisor to which nothing is added has only the services that it had. -/
theorem live_of_parent (hacts : Acts s e s') (hadds : ∀ work, e ≠ .add m work)
    (hlive : s'.tree.Live c k') (hparent : k'.parent = m) :
    ∃ k, s.tree.Live c k ∧ k.parent = m ∧ k.token = k'.token := by
  rcases hacts.origin_live hlive with ⟨k, hk, hlater⟩ | hadded
  · exact ⟨k, hk, hlater.parent_eq.symm.trans hparent, hlater.token_eq.symm⟩
  · obtain ⟨work, he⟩ := hadded.event_eq
    exact absurd (hparent ▸ he) (hadds work)

/-- A supervisor keeps its services as long as nobody but its own service takes them out, and that
one has not begun to. -/
theorem attached_of_stays (hsound : Sound s) (hacts : Acts s e s')
    (hremoves : ∀ token, e ≠ .remove m token) (hstops : e ≠ .stop m) (hk : s.tree.Live c k)
    (hwork : k.work = .supervisor m) (hnone : k.awaited = none) (hk' : s'.tree.Live c k)
    {c₀ : Nat} {k₀ k₁ : Child} (hlive₀ : s.tree.Live c₀ k₀) (hlive₁ : s'.tree.Live c₀ k₁)
    (hparent : k₀.parent = m) (hmember : (k₀.token, c₀) ∈ s.tree.members m) :
    (k₀.token, c₀) ∈ s'.tree.members m := by
  subst hparent
  rcases hsound.attached_or_taken hacts hlive₀ hlive₁ hmember with hstays | htaken
  · exact hstays
  · cases htaken with
    | removed => exact absurd rfl (hremoves _)
    | stopped => exact absurd rfl hstops
    | gathered hchild hlive hwork' =>
      obtain rfl := hsound.single hk ⟨Tree.service?_of_child? hchild, hlive⟩ hwork hwork'
      rw [Tree.Live, Tree.service?_gather hchild, if_pos rfl] at hk'
      cases hk'.1
      cases hnone

namespace Stage

/-- Nothing is added to the supervisor, and nobody but its own service stops it or takes a service
out of it. -/
theorem next (h : Stage s.tree m k) (hsound : Sound s) (hacts : Acts s e s')
    (hadds : ∀ work, e ≠ .add m work) (hremoves : ∀ token, e ≠ .remove m token)
    (hstops : e ≠ .stop m) (hk : s.tree.service? c = some k) (hwork : k.work = .supervisor m)
    (hk' : s'.tree.service? c = some k') (hlater : k.Later k') : Stage s'.tree m k' := by
  cases h with
  | working hlive hnone hattached =>
    cases hsound.works hacts ⟨hk, hlive⟩ hwork with
    | stays hlive' =>
      cases hlive'.1.symm.trans hk'
      refine .working hlive hnone fun hlive₁ hparent₁ => ?_
      obtain ⟨k₀, hlive₀, hparent₀, htoken₀⟩ := live_of_parent hacts hadds hlive₁ hparent₁
      rw [← htoken₀]
      exact attached_of_stays hsound hacts hremoves hstops ⟨hk, hlive⟩ hwork hnone hlive' hlive₀
        hlive₁ hparent₀ (hattached hlive₀ hparent₀)
    | gathers hchild =>
      cases (Tree.service?_of_child? hchild).symm.trans hk
      rw [Tree.service?_gather hchild, if_pos rfl] at hk'
      cases hk'
      refine .stopping hlive rfl ((Tree.members_gather ..).trans (if_pos rfl)) ?_
      intro c₁ k₁ hlive₁ hparent₁
      obtain ⟨k₀, hlive₀, hparent₀, -⟩ := live_of_parent hacts hadds hlive₁ hparent₁
      exact mem_awaited_stop (hattached hlive₀ hparent₀)
    | releases hawaited => cases hnone.symm.trans hawaited
  | stopping hlive hawaited hempty hwaits =>
    have hempty' := members_eq_nil hacts hempty hadds
    cases hsound.works hacts ⟨hk, hlive⟩ hwork with
    | stays hlive' =>
      cases hlive'.1.symm.trans hk'
      refine .stopping hlive hawaited hempty' fun hlive₁ hparent₁ => ?_
      obtain ⟨k₀, hlive₀, hparent₀, -⟩ := live_of_parent hacts hadds hlive₁ hparent₁
      exact hwaits hlive₀ hparent₀
    | gathers _ hnone => cases hnone.symm.trans hawaited
    | releases hawaited' hover hends =>
      cases hawaited'.symm.trans hawaited
      refine .done ?_ hempty' fun hlive₁ hparent₁ => ?_
      · exact eq_true_of_ne_false fun hlive' => Tree.isOver_iff.mp hends k' ⟨hk', hlive'⟩
      · obtain ⟨k₀, hlive₀, hparent₀, -⟩ := live_of_parent hacts hadds hlive₁ hparent₁
        exact Tree.isOver_iff.mp (hover _ (hwaits hlive₀ hparent₀)) _ hlive₀
  | done hover hempty hnobody =>
    refine .done (hlater.isOver hover) (members_eq_nil hacts hempty hadds) fun hlive₁ hparent₁ => ?_
    obtain ⟨k₀, hlive₀, hparent₀, -⟩ := live_of_parent hacts hadds hlive₁ hparent₁
    exact hnobody hlive₀ hparent₀

end Stage

namespace Winding

variable {t : Tree} {awaited : List Nat}

theorem next (h : Winding t n awaited s) (hsound : Sound s) (hacts : Acts s e s')
    (hspares : e.Spares t n) : Winding t n awaited s' := by
  have hadds : ∀ {m}, Below t n m → ∀ work, e ≠ .add m work := by
    rintro m hm work rfl
    exact hspares hm
  refine ⟨members_eq_nil hacts h.empty (hadds .self), fun hlive hparent => ?_, ?_⟩
  · obtain ⟨k₀, hlive₀, hparent₀, -⟩ := live_of_parent hacts (hadds .self) hlive hparent
    exact h.waits hlive₀ hparent₀
  · intro c k m hlive hwork hparent hne
    have hm : Below t n m := .service hlive hwork hparent
    obtain ⟨k₁, hk₁, hlater₁, hstage⟩ := h.below hlive hwork hparent hne
    obtain ⟨k₂, hk₂, hlater₂⟩ := hacts.later hk₁
    refine ⟨k₂, hk₂, hlater₁.trans hlater₂, hstage.next hsound hacts (hadds hm) ?_ ?_ hk₁
      (hlater₁.work_eq.trans hwork) hk₂ hlater₂⟩
    · rintro token rfl
      exact hne (hspares hm)
    · rintro rfl
      exact hne (hspares hm)

/-- **What is over when the call returns**: a supervisor below has no services left, for the service
that runs it is over. -/
theorem over_of_below (h : Winding t n awaited s)
    (hreturned : ∀ c ∈ awaited, s.tree.isOver c = true) (hm : Below t n m) :
    s.tree.members m = [] ∧ ∀ {c k}, s.tree.Live c k → k.parent ≠ m := by
  have htop : s.tree.members n = [] ∧ ∀ {c k}, s.tree.Live c k → k.parent ≠ n :=
    ⟨h.empty, fun hlive hparent =>
      Tree.isOver_iff.mp (hreturned _ (h.waits hlive hparent)) _ hlive⟩
  induction hm with
  | self => exact htop
  | @service c k m hlive hwork hparent ih =>
    by_cases hne : m = n
    · rw [hne]
      exact htop
    · obtain ⟨k', hk', hlater, hstage⟩ := h.below hlive hwork hparent hne
      cases hstage with
      | working hlive' => exact absurd hlater.parent_eq (ih.2 ⟨hk', hlive'⟩)
      | stopping hlive' => exact absurd hlater.parent_eq (ih.2 ⟨hk', hlive'⟩)
      | done _ hempty hnobody => exact ⟨hempty, hnobody⟩

end Winding

/-- The call goes on as long as nothing disturbs it. -/
theorem winding_of_run? {window : List Event} (hcalm : Calm s n) (hsound : Sound s)
    (hwindow : run? Host.act? s (.stop n :: window) = some s')
    (hspares : ∀ e ∈ window, e.Spares s.tree n) :
    Winding s.tree n (s.tree.stop n).2 s' := by
  rw [run?_cons] at hwindow
  obtain ⟨s₁, hstop, hwindow⟩ := Option.bind_eq_some_iff.mp hwindow
  have hsound₁ : Sound s₁ := hsound.next (acts_of_act? hstop)
  cases hstop
  have hboth := run?_invariant
    (motive := fun past s₁ => (∀ e ∈ past, e.Spares s.tree n) →
      Sound s₁ ∧ Winding s.tree n (s.tree.stop n).2 s₁)
    (fun _ => ⟨hsound₁, .start hcalm hsound⟩) (fun {past s₁ e s₂} _ hboth hact hpast => ?_) hwindow
  · exact (hboth hspares).2
  · have hacts := acts_of_act? hact
    obtain ⟨hsound₁, hwinding⟩ := hboth fun e he => hpast e (List.mem_append_left _ he)
    exact ⟨hsound₁.next hacts, hwinding.next hsound₁ hacts (hpast e (by simp))⟩

/-- **What a stopped supervisor leaves behind.** When a call that stops a supervisor returns, and
neither it nor anything below it was being stopped by somebody else or added to, every set below is
empty, and every service below is over and is never run again. -/
theorem over_of_returned {policy : RestartPolicy} {past window : List Event}
    (hrun : run? Host.act? { tree := .root policy } past = some s) (hcalm : Calm s n)
    (hwindow : run? Host.act? s (.stop n :: window) = some s')
    (hspares : ∀ e ∈ window, e.Spares s.tree n)
    (hreturned : ∀ c ∈ (s.tree.stop n).2, s'.tree.isOver c = true) :
    ∀ m, Below s.tree n m → s'.tree.members m = [] ∧
      ∀ c k, s'.tree.child? c = some k → k.parent = m →
        ∀ future s'', run? Host.act? s' future = some s'' → s''.tree.isOver c = true := by
  intro m hm
  have hwinding := winding_of_run? hcalm (sound_of_run? hrun) hwindow hspares
  obtain ⟨hempty, hnobody⟩ := hwinding.over_of_below hreturned hm
  refine ⟨hempty, fun c k hk hparent future s'' hfuture => Tree.isOver_iff.mpr fun k'' hlive => ?_⟩
  obtain ⟨k', hk', hlater⟩ := later_of_run? hfuture (Tree.service?_of_child? hk)
  cases hk'.symm.trans hlive.1
  exact hnobody ⟨Tree.service?_of_child? hk, hlater.isOver_eq_false hlive.2⟩ hparent

/-- Nobody has stopped a supervisor or taken out a service. -/
theorem calm_of_untouched (hcalls : s.calls = [])
    (hservices : ∀ child ∈ s.tree.children, child.awaited = none) (n : Nat) : Calm s n where
  calls := by simp [hcalls]
  services := by
    rintro c k m hlive - -
    obtain ⟨child, hchild, rfl⟩ := Option.map_eq_some_iff.mp hlive.1
    exact hservices child (List.mem_of_getElem? hchild)

/-- A supervisor below the one that is stopped, with a leaf that rests after a failure and is run
again in the moment in which it is told to end. -/
theorem over_of_returned_nested : ∃ s s' : Host,
    run? Host.act? { tree := .root {} } [.found, .add 0 (.supervisor 1), .add 1 .leaf,
      .move {} 0 1 (.ended (.failed "boom"))] = some s ∧
    run? Host.act? s [.stop 0, .resume 1000 1, .move {} 1000 0 .gather, .move {} 1000 1 (.ended .stopped),
      .move {} 1000 0 .release] = some s' ∧
    s'.tree.members 1 = [] ∧
    ∀ future s'', run? Host.act? s' future = some s'' → s''.tree.isOver 1 = true := by
  obtain ⟨s, s', hrun, hwindow, hcalls, hservices, hlive, hleaf, hreturned⟩ : ∃ s s' : Host,
      run? Host.act? { tree := .root {} } [.found, .add 0 (.supervisor 1), .add 1 .leaf,
        .move {} 0 1 (.ended (.failed "boom"))] = some s ∧
      run? Host.act? s [.stop 0, .resume 1000 1, .move {} 1000 0 .gather,
        .move {} 1000 1 (.ended .stopped), .move {} 1000 0 .release] = some s' ∧
      s.calls = [] ∧ (∀ child ∈ s.tree.children, child.awaited = none) ∧
      s.tree.Live 0 { parent := 0, token := 0, work := .supervisor 1 } ∧
      s'.tree.child? 1 = some
        { parent := 1, token := 0, work := .leaf, cancelled := true, life := .finished } ∧
      ∀ c ∈ (s.tree.stop 0).2, s'.tree.isOver c = true :=
    ⟨_, _, rfl, rfl, rfl, by decide, ⟨rfl, rfl⟩, rfl, by decide⟩
  obtain ⟨hempty, hover⟩ := over_of_returned hrun (calm_of_untouched hcalls hservices 0) hwindow
    (by simp [Event.Spares]) hreturned 1 (.service hlive rfl .self)
  exact ⟨s, s', hrun, hwindow, hempty, hover 1 _ hleaf rfl⟩

/-- A call that returns while a service below is still running: a second call finds the set empty
that another call has emptied; and the service of a supervisor can be over while the supervisor
still has services. -/
theorem not_over_of_overlap :
    (∃ s s' : Host, run? Host.act? { tree := .root {} } [.add 0 .leaf, .stop 0] = some s ∧
      s.act? (.stop 0) = some s' ∧ (∀ c ∈ (s.tree.stop 0).2, s'.tree.isOver c = true) ∧
      s'.tree.child? 0 = some { parent := 0, token := 0, work := .leaf, cancelled := true }) ∧
    ∃ s s' : Host, run? Host.act? { tree := .root {} } [.stop 0, .found, .add 0 (.supervisor 1),
        .move {} 0 0 .gather, .move {} 0 0 .release, .add 1 .leaf] = some s ∧
      s.act? (.stop 0) = some s' ∧ (∀ c ∈ (s.tree.stop 0).2, s'.tree.isOver c = true) ∧
      s'.tree.members 1 = [(0, 1)] ∧
      s'.tree.child? 1 = some { parent := 1, token := 0, work := .leaf } :=
  ⟨⟨_, _, rfl, rfl, by decide, rfl⟩, _, _, rfl, rfl, by decide, rfl, rfl⟩

end Wiretap.Supervision
