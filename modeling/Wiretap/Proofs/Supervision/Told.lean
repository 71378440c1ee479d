import Wiretap.Proofs.Supervision.Order

/-!
# Who is told to end

A service is told to end when it is taken out of the set of its supervisor, and when the supervisor
is stopped. Nobody else can tell it.

Results:

* `isTold_found`, `isTold_add`, `isTold_remove`, `isTold_stop`, `isTold_enter`, `isTold_gather`: who
  is told by what.
* `attends_of_run?`: a service that is not over is in the set of its supervisor, as long as it was
  not told.
-/

namespace Wiretap.Supervision

namespace Tree

/-- The service was told to end. -/
def isTold (t : Tree) (c : Nat) : Bool := (t.child? c).any t.isCancelled

variable {t t' : Tree} {c c' n m token : Nat} {k : Child}

theorem isTold_of_child? (h : t.child? c = some k) :
    t.isTold c = (k.cancelled || t.isStopped k.parent) := by
  rw [isTold, h]
  rfl

theorem isTold_congr (hchild : t'.child? c = t.child? c)
    (hstopped : ∀ m, t'.isStopped m = t.isStopped m) : t'.isTold c = t.isTold c := by
  unfold isTold isCancelled
  rw [hchild]
  cases t.child? c with
  | none => rfl
  | some k => simp only [Option.any_some, hstopped]

/-! ## Which supervisors are stopped -/

theorem isStopped_of_modify {f : Supervisor Nat → Supervisor Nat}
    (h : t'.nodes = t.nodes.modify n f) (hf : ∀ s, (f s).cancelled = s.cancelled) (m : Nat) :
    t'.isStopped m = t.isStopped m := by
  unfold isStopped
  rw [node?_of_modify h]
  split
  next hm =>
    subst hm
    cases t.nodes[m]? with
    | none => rfl
    | some s => exact hf s
  next => rfl

theorem isStopped_found (t : Tree) (m : Nat) : t.found.isStopped m = t.isStopped m := by
  unfold isStopped found
  rw [List.getElem?_append]
  split
  next => rfl
  next h =>
    rw [List.getElem?_eq_none (Nat.le_of_not_lt h)]
    cases m - t.nodes.length <;> rfl

theorem isStopped_stop (t : Tree) (n m : Nat) :
    (t.stop n).1.isStopped m = (t.isStopped m || decide (m = n ∧ n < t.nodes.length)) := by
  have hnodes : (t.stop n).1.nodes = t.nodes.modify n (·.stop) :=
    (foldl_cancel _ (t.alterNode n (·.stop))).1
  unfold isStopped
  rw [node?_of_modify hnodes]
  by_cases hm : m = n
  · subst hm
    rw [if_pos rfl]
    by_cases hlt : m < t.nodes.length
    · simp [hlt, Supervisor.stop]
    · simp [hlt]
  · simp [hm]

theorem isStopped_enter (t : Tree) (c : Nat) (child : Child) (life : Life) (m : Nat) :
    (t.enter c child life).isStopped m = t.isStopped m := by
  unfold enter
  dsimp only
  split
  next =>
    exact isStopped_of_modify (t := t.setChild c { child with life })
      (f := (·.drop child.token)) rfl (fun _ => rfl) m
  next => rfl

theorem isStopped_gather (t : Tree) (c : Nat) (child : Child) (n m : Nat) :
    (t.gather c child n).isStopped m =
      (t.isStopped m || decide (m = n ∧ n < t.nodes.length)) := isStopped_stop t n m

/-! ## Which services are marked -/

theorem child?_cancel (t : Tree) (c' c : Nat) : (t.cancel c').child? c =
    (t.child? c).map fun k => if c' = c then { k with cancelled := true } else k := by
  unfold child? cancel
  rw [List.getElem?_modify]
  rfl

theorem child?_foldl_cancel (members : List Nat) (t : Tree) (c : Nat) :
    (members.foldl cancel t).child? c =
      (t.child? c).map fun k => if c ∈ members then { k with cancelled := true } else k := by
  induction members generalizing t with
  | nil => simp
  | cons c' members ih =>
    rw [List.foldl_cons, ih, child?_cancel, Option.map_map]
    congr 1
    funext k
    simp only [Function.comp_apply, List.mem_cons]
    by_cases hc : c' = c
    · subst hc
      by_cases hmem : c' ∈ members <;> simp [hmem]
    · simp [hc, Ne.symm hc]

theorem child?_stop (t : Tree) (n c : Nat) : (t.stop n).1.child? c =
    (t.child? c).map fun k => if c ∈ (t.stop n).2 then { k with cancelled := true } else k :=
  child?_foldl_cancel _ (t.alterNode n (·.stop)) c

theorem child?_add (t : Tree) (n : Nat) (work : Work) (c : Nat) :
    (t.add n work).child? c =
      if c = t.children.length then some { parent := n, token := t.nextToken n, work }
      else t.child? c := by
  unfold child?
  change (t.children ++ [_])[c]? = _
  rw [List.getElem?_append]
  split
  next h => rw [if_neg (Nat.ne_of_lt h)]
  next h =>
    rw [List.getElem?_singleton]
    by_cases heq : c = t.children.length
    · rw [if_pos (by omega), if_pos heq]
      rfl
    · rw [if_neg (by omega), if_neg heq, List.getElem?_eq_none (Nat.le_of_not_lt h)]

theorem child?_setChild {child : Child} (h : c < t.children.length) (c' : Nat) :
    (t.setChild c child).child? c' = if c' = c then some child else t.child? c' := by
  unfold child? setChild
  simp only
  split
  next heq => rw [heq, List.getElem?_set_self h]
  next hne => rw [List.getElem?_set_ne (Ne.symm hne)]

theorem lt_of_child? (h : t.child? c = some k) : c < t.children.length :=
  (List.getElem?_eq_some_iff.mp h).1

theorem child?_enter {child : Child} (h : t.child? c' = some child) (life : Life) (c : Nat) :
    (t.enter c' child life).child? c =
      if c = c' then some { child with life } else t.child? c := by
  have hset := @child?_setChild t c' { child with life } (lt_of_child? h) c
  unfold enter
  dsimp only
  split
  next => exact hset
  next => exact hset

theorem child?_gather {child : Child} (h : t.child? c' = some child) (n c : Nat) :
    (t.gather c' child n).child? c =
      if c = c' then some { child with awaited := some (t.stop n).2 }
      else (t.stop n).1.child? c := by
  have hlt : c' < (t.stop n).1.children.length := by
    have hchild := child?_stop t n c'
    rw [h, Option.map_some] at hchild
    exact lt_of_child? hchild
  exact child?_setChild hlt c

/-! ## Who is told by what -/

theorem isTold_found (t : Tree) (c : Nat) : t.found.isTold c = t.isTold c :=
  isTold_congr rfl (isStopped_found t)

theorem isTold_add (t : Tree) (n : Nat) (work : Work) (c : Nat) : (t.add n work).isTold c =
    if c = t.children.length then t.isStopped n else t.isTold c := by
  have hstopped (m : Nat) : (t.add n work).isStopped m = t.isStopped m :=
    isStopped_of_modify (nodes_add t n work) (fun _ => rfl) m
  split
  next hc =>
    rw [isTold, child?_add, if_pos hc]
    exact (Bool.false_or _).trans (hstopped n)
  next hc => exact isTold_congr ((child?_add ..).trans (if_neg hc)) hstopped

theorem isTold_remove (hk : t.child? c = some k) (n token c' : Nat) :
    ((t.alterNode n (·.drop token)).cancel c').isTold c = (t.isTold c || decide (c' = c)) := by
  have hstopped (m : Nat) :
      ((t.alterNode n (·.drop token)).cancel c').isStopped m = t.isStopped m :=
    isStopped_of_modify (n := n) (f := (·.drop token)) rfl (fun _ => rfl) m
  have hchild := child?_cancel (t.alterNode n (·.drop token)) c' c
  rw [show (t.alterNode n (·.drop token)).child? c = some k from hk, Option.map_some] at hchild
  rw [isTold_of_child? hchild, isTold_of_child? hk]
  by_cases hc : c' = c <;> simp [hc, hstopped]

theorem isTold_stop (hk : t.child? c = some k) (n : Nat) : (t.stop n).1.isTold c =
    (t.isTold c || decide (c ∈ (t.stop n).2 ∨ k.parent = n ∧ n < t.nodes.length)) := by
  have hchild := child?_stop t n c
  rw [hk, Option.map_some] at hchild
  rw [isTold_of_child? hchild, isTold_of_child? hk]
  by_cases hc : c ∈ (t.stop n).2
  · simp [hc]
  · simp [hc, isStopped_stop, Bool.or_assoc]

theorem isTold_enter {child : Child} (hchild : t.child? c' = some child) (life : Life) (c : Nat) :
    (t.enter c' child life).isTold c = t.isTold c := by
  have hstopped (m : Nat) : (t.enter c' child life).isStopped m = t.isStopped m :=
    isStopped_enter t c' child life m
  by_cases hc : c = c'
  · subst hc
    have hchild' := (child?_enter hchild life c).trans (if_pos rfl)
    rw [isTold_of_child? hchild', isTold_of_child? hchild, hstopped]
  · exact isTold_congr ((child?_enter hchild life c).trans (if_neg hc)) hstopped

/-- The service that stops a supervisor does not tell itself by it, unless it is its own
supervisor. -/
theorem isTold_gather {child : Child} (hchild : t.child? c' = some child)
    (hk : t.child? c = some k) (n : Nat) : (t.gather c' child n).isTold c = (t.isTold c ||
      decide (c ≠ c' ∧ c ∈ (t.stop n).2 ∨ k.parent = n ∧ n < t.nodes.length)) := by
  by_cases hc : c = c'
  · subst hc
    cases hk.symm.trans hchild
    have hchild' := (child?_gather hchild n c).trans (if_pos rfl)
    rw [isTold_of_child? hchild', isTold_of_child? hchild, isStopped_gather]
    simp [Bool.or_assoc]
  · have hsame : (t.gather c' child n).isTold c = (t.stop n).1.isTold c :=
      isTold_congr ((child?_gather hchild n c).trans (if_neg hc)) fun _ => rfl
    rw [hsame, isTold_stop hk]
    simp [hc]

end Tree

/-! ## Services stay in their sets until they are told -/

variable {s s' : Host} {e : Event} {c : Nat} {k k' : Child}

/-- A service that is not over is in the set of its supervisor, as long as it was not told. -/
def Attends (s : Host) : Prop := ∀ c k, s.tree.Live c k → s.tree.isTold c = false →
  (k.token, c) ∈ s.tree.members k.parent

theorem child?_of_service? {t : Tree} (h : t.service? c = some k) :
    ∃ child, t.child? c = some child ∧ k = { child with cancelled := false } := by
  obtain ⟨child, hchild, rfl⟩ := Option.map_eq_some_iff.mp h
  exact ⟨child, hchild, rfl⟩

/-- Nobody takes back that a service was told. -/
theorem Acts.isTold (h : Acts s e s') (hk : s.tree.service? c = some k)
    (htold : s.tree.isTold c = true) : s'.tree.isTold c = true := by
  obtain ⟨child, hchild, -⟩ := child?_of_service? hk
  cases h with
  | found => exact (Tree.isTold_found ..).trans htold
  | added =>
    rw [Tree.isTold_add, if_neg (Nat.ne_of_lt (Tree.lt_of_child? hchild))]
    exact htold
  | removed => rw [Tree.isTold_remove hchild, htold, Bool.true_or]
  | stopped => rw [Tree.isTold_stop hchild, htold, Bool.true_or]
  | entered hchild' | released hchild' => exact (Tree.isTold_enter hchild' ..).trans htold
  | gathered hchild' => rw [Tree.isTold_gather hchild' hchild, htold, Bool.true_or]

/-- Who takes a service out of the set tells it. -/
theorem Taken.isTold (h : Taken s c k e s') (hk : s.tree.service? c = some k)
    (hmember : (k.token, c) ∈ s.tree.members k.parent) : s'.tree.isTold c = true := by
  obtain ⟨child, hchild, rfl⟩ := child?_of_service? hk
  have hlt : child.parent < s.tree.nodes.length := by
    by_contra hge
    have hnone : s.tree.members child.parent = [] := by
      rw [Tree.members, List.getElem?_eq_none (Nat.le_of_not_lt hge)]
      rfl
    rw [hnone] at hmember
    cases hmember
  cases h with
  | removed => rw [Tree.isTold_remove hchild, decide_eq_true rfl, Bool.or_true]
  | stopped => rw [Tree.isTold_stop hchild, decide_eq_true (.inr ⟨rfl, hlt⟩), Bool.or_true]
  | gathered hchild' =>
    rw [Tree.isTold_gather hchild' hchild, decide_eq_true (.inr ⟨rfl, hlt⟩), Bool.or_true]

theorem Attends.next (h : Attends s) (hsound : Sound s) (hacts : Acts s e s') : Attends s' := by
  intro c k' hlive' htold'
  rcases hacts.origin_live hlive' with ⟨k, hlive, hlater⟩ | hadded
  · have htold : s.tree.isTold c = false := by
      cases htold : s.tree.isTold c with
      | false => rfl
      | true => cases htold'.symm.trans (hacts.isTold hlive.1 htold)
    have hmember := h c k hlive htold
    rcases hsound.attached_or_taken hacts hlive hlive' hmember with hstays | htaken
    · rw [hlater.token_eq, hlater.parent_eq]
      exact hstays
    · cases htold'.symm.trans (htaken.isTold hlive.1 hmember)
  · exact hadded.attached

theorem attends_root (policy : RestartPolicy) : Attends { tree := .root policy } := by
  intro c k hlive _
  exact absurd (Tree.lt_of_service? hlive.1) (Nat.not_lt_zero c)

theorem attends_of_run? {policy : RestartPolicy} {es : List Event}
    (h : run? Host.act? { tree := .root policy } es = some s) : Sound s ∧ Attends s :=
  run?_invariant (motive := fun _ s => Sound s ∧ Attends s) ⟨.root policy, attends_root policy⟩
    (fun _ hboth hact => ⟨hboth.1.next (acts_of_act? hact),
      hboth.2.next hboth.1 (acts_of_act? hact)⟩) h

end Wiretap.Supervision
