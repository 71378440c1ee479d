import Wiretap.Proofs.Run
import Wiretap.Supervision.Tree

/-!
# Runs of a tree of supervisors

Around a tree there are those who found supervisors, add services to them, take services out, and
stop supervisors. Their calls and the moves of the tree happen in any order that `Host.act?` allows.
Whether a service was told to end decides when it may move, but nothing that is kept about it; a
service is therefore looked at without it.

Results:

* `acts_of_act?`: what an event is made on and what it leaves behind.
* `service?_enter`, `members_enter`, `service?_gather`: what a move changes.
* `nest_eq`: adding a new supervisor is founding one and adding it.
* `later_of_run?`: what becomes of a service in a run.
-/

namespace Wiretap.Supervision

namespace Tree

/-- Founds a supervisor. -/
def found (t : Tree) : Tree := { t with nodes := t.nodes ++ [{}] }

/-- Whether no service that is not over does this work. -/
def isFree (t : Tree) : Work → Bool
  | .leaf => true
  | .supervisor n =>
    decide (n < t.nodes.length) &&
      t.children.all fun child => child.work != .supervisor n || child.life.isOver

/-- The tree where this policy applies. -/
def under (t : Tree) (policy : RestartPolicy) : Tree := { t with policy }

/-- The tokens and services in the set of a supervisor. -/
def members (t : Tree) (n : Nat) : List (Nat × Nat) := (t.nodes[n]?.map (·.members)).getD []

/-- The token that a supervisor gives out next. -/
def nextToken (t : Tree) (n : Nat) : Nat := (t.nodes[n]?.map (·.nextToken)).getD 0

/-- A service, apart from whether it was told to end. -/
def service? (t : Tree) (c : Nat) : Option Child :=
  (t.child? c).map ({ · with cancelled := false })

/-- A service that is not over. -/
def Live (t : Tree) (c : Nat) (k : Child) : Prop :=
  t.service? c = some k ∧ k.life.isOver = false

/-- The tree after the service `c` has begun to stop the supervisor that it runs. -/
def gather (t : Tree) (c : Nat) (child : Child) (n : Nat) : Tree :=
  (t.stop n).1.setChild c { child with awaited := some (t.stop n).2 }

/-! ## What a change leaves as it is -/

variable {t : Tree} {c c' n m token : Nat} {k : Child}

theorem service?_cancel (t : Tree) (c c' : Nat) : (t.cancel c).service? c' = t.service? c' := by
  unfold service? child? cancel
  rw [List.getElem?_modify]
  cases t.children[c']? with
  | none => rfl
  | some child =>
    by_cases h : c = c' <;> simp [h]

theorem foldl_cancel (members : List Nat) (t : Tree) :
    (members.foldl cancel t).nodes = t.nodes ∧
      (members.foldl cancel t).policy = t.policy ∧
      ∀ c, (members.foldl cancel t).service? c = t.service? c := by
  induction members generalizing t with
  | nil => exact ⟨rfl, rfl, fun _ => rfl⟩
  | cons c members ih =>
    obtain ⟨hnodes, hpolicy, hservice⟩ := ih (t.cancel c)
    exact ⟨hnodes, hpolicy, fun c' => (hservice c').trans (service?_cancel t c c')⟩

theorem foldl_cancel_under (members : List Nat) (t : Tree) (policy : RestartPolicy) :
    members.foldl cancel (t.under policy) = (members.foldl cancel t).under policy := by
  induction members generalizing t with
  | nil => rfl
  | cons c members ih => exact ih (t.cancel c)

theorem service?_stop (t : Tree) (n c : Nat) : (t.stop n).1.service? c = t.service? c :=
  (foldl_cancel _ (t.alterNode n (·.stop))).2.2 c

theorem awaited_stop (t : Tree) (n : Nat) : (t.stop n).2 = (t.members n).map (·.2) := by
  unfold stop members
  cases t.nodes[n]? <;> rfl

/-- Changing one supervisor leaves the others alone. -/
theorem node?_of_modify {t' : Tree} {f : Supervisor Nat → Supervisor Nat}
    (h : t'.nodes = t.nodes.modify n f) (m : Nat) :
    t'.nodes[m]? = if m = n then t.nodes[n]?.map f else t.nodes[m]? := by
  rw [h, List.getElem?_modify]
  by_cases hm : m = n
  · subst hm
    simp
  · simp [hm, Ne.symm hm]

theorem members_stop (t : Tree) (n m : Nat) :
    (t.stop n).1.members m = if m = n then [] else t.members m := by
  have hnodes : (t.stop n).1.nodes = t.nodes.modify n (·.stop) :=
    (foldl_cancel _ (t.alterNode n (·.stop))).1
  unfold members
  rw [node?_of_modify hnodes]
  split
  next => cases t.nodes[n]? <;> rfl
  next => rfl

theorem nextToken_stop (t : Tree) (n m : Nat) : (t.stop n).1.nextToken m = t.nextToken m := by
  have hnodes : (t.stop n).1.nodes = t.nodes.modify n (·.stop) :=
    (foldl_cancel _ (t.alterNode n (·.stop))).1
  unfold nextToken
  rw [node?_of_modify hnodes]
  split
  next h => subst h; cases t.nodes[m]? <;> rfl
  next => rfl

theorem members_drop (t : Tree) (n token m : Nat) :
    (t.alterNode n (·.drop token)).members m =
      if m = n then (t.members m).filter (·.1 != token) else t.members m := by
  have hnodes : (t.alterNode n (·.drop token)).nodes = t.nodes.modify n (·.drop token) := rfl
  unfold members
  rw [node?_of_modify hnodes]
  split
  next h => subst h; cases t.nodes[m]? <;> rfl
  next => rfl

theorem nextToken_drop (t : Tree) (n token m : Nat) :
    (t.alterNode n (·.drop token)).nextToken m = t.nextToken m := by
  have hnodes : (t.alterNode n (·.drop token)).nodes = t.nodes.modify n (·.drop token) := rfl
  unfold nextToken
  rw [node?_of_modify hnodes]
  split
  next h => subst h; cases t.nodes[m]? <;> rfl
  next => rfl

theorem members_add (h : n < t.nodes.length) (work : Work) (m : Nat) :
    (t.add n work).members m =
      if m = n then (t.nextToken n, t.children.length) :: t.members m else t.members m := by
  unfold members nextToken
  rw [node?_of_modify (nodes_add t n work)]
  split
  next hm => simp [hm, List.getElem?_eq_getElem h, Supervisor.add]
  next => rfl

theorem nextToken_add (h : n < t.nodes.length) (work : Work) (m : Nat) :
    (t.add n work).nextToken m = if m = n then t.nextToken m + 1 else t.nextToken m := by
  unfold nextToken
  rw [node?_of_modify (nodes_add t n work)]
  split
  next hm => simp [hm, List.getElem?_eq_getElem h, Supervisor.add]
  next => rfl

theorem members_found (t : Tree) (m : Nat) : t.found.members m = t.members m := by
  unfold members found
  rw [List.getElem?_append]
  split
  next => rfl
  next h =>
    rw [List.getElem?_eq_none (Nat.le_of_not_lt h)]
    cases m - t.nodes.length <;> rfl

theorem nextToken_found (t : Tree) (m : Nat) : t.found.nextToken m = t.nextToken m := by
  unfold nextToken found
  rw [List.getElem?_append]
  split
  next => rfl
  next h =>
    rw [List.getElem?_eq_none (Nat.le_of_not_lt h)]
    cases m - t.nodes.length <;> rfl

/-! ## What is known of a service -/

theorem service?_add (t : Tree) (n : Nat) (work : Work) (c : Nat) :
    (t.add n work).service? c =
      if c = t.children.length then some { parent := n, token := t.nextToken n, work }
      else t.service? c := by
  unfold service? child?
  change ((t.children ++ [_])[c]?).map _ = _
  rw [List.getElem?_append]
  split
  next h => rw [if_neg (Nat.ne_of_lt h)]
  next h =>
    split
    next heq => subst heq; simp [nextToken]
    next hne =>
      have hlt : t.children.length < c := Nat.lt_of_le_of_ne (Nat.le_of_not_lt h) (Ne.symm hne)
      rw [List.getElem?_eq_none (Nat.le_of_lt hlt), List.getElem?_eq_none]
      simp only [List.length_singleton]
      omega

theorem service?_setChild {child : Child} (h : c < t.children.length) (c' : Nat) :
    (t.setChild c child).service? c' =
      if c' = c then some { child with cancelled := false } else t.service? c' := by
  unfold service? child? setChild
  simp only
  split
  next heq => subst heq; simp [List.getElem?_set_self h]
  next hne => rw [List.getElem?_set_ne (Ne.symm hne)]

theorem lt_of_service? (h : t.service? c = some k) : c < t.children.length := by
  obtain ⟨child, hchild, -⟩ := Option.map_eq_some_iff.mp h
  exact (List.getElem?_eq_some_iff.mp hchild).1

theorem service?_of_child? {child : Child} (h : t.child? c = some child) :
    t.service? c = some { child with cancelled := false } := by
  rw [service?, h]
  rfl

theorem service?_enter {child : Child} (h : t.child? c = some child) (life : Life) (c' : Nat) :
    (t.enter c child life).service? c' =
      if c' = c then some { child with cancelled := false, life } else t.service? c' := by
  have hset := @service?_setChild t c { child with life } (lt_of_service? (service?_of_child? h)) c'
  unfold enter
  dsimp only
  split
  next => exact hset
  next => exact hset

theorem members_enter (t : Tree) (c : Nat) (child : Child) (life : Life) (m : Nat) :
    (t.enter c child life).members m =
      if m = child.parent ∧ life.isOver then (t.members m).filter (·.1 != child.token)
      else t.members m := by
  unfold enter
  dsimp only
  split
  next hover =>
    rw [members_drop]
    simp only [hover, and_true]
    rfl
  next hover =>
    rw [if_neg fun h => hover h.2]
    rfl

theorem nextToken_enter (t : Tree) (c : Nat) (child : Child) (life : Life) (m : Nat) :
    (t.enter c child life).nextToken m = t.nextToken m := by
  unfold enter
  dsimp only
  split
  next => exact nextToken_drop (t.setChild c { child with life }) _ _ m
  next => rfl

theorem service?_gather {child : Child} (h : t.child? c = some child) (n c' : Nat) :
    (t.gather c child n).service? c' =
      if c' = c then some { child with cancelled := false, awaited := some (t.stop n).2 }
      else t.service? c' := by
  have hlt : c < (t.stop n).1.children.length :=
    lt_of_service? ((service?_stop t n c).trans (service?_of_child? h))
  unfold gather
  rw [service?_setChild hlt, service?_stop]

theorem members_gather (t : Tree) (c : Nat) (child : Child) (n m : Nat) :
    (t.gather c child n).members m = if m = n then [] else t.members m := members_stop t n m

/-- The policy decides how often a service is run, and nothing else. -/
theorem enter_under (t : Tree) (policy : RestartPolicy) (c : Nat) (child : Child) (life : Life) :
    ((t.under policy).enter c child life).under t.policy = t.enter c child life := by
  unfold enter
  dsimp only
  split <;> rfl

theorem gather_under (t : Tree) (policy : RestartPolicy) (c : Nat) (child : Child) (n : Nat) :
    ((t.under policy).gather c child n).under t.policy = t.gather c child n := by
  have hstop : (t.under policy).stop n = ((t.stop n).1.under policy, (t.stop n).2) :=
    Prod.ext (foldl_cancel_under _ (t.alterNode n (·.stop)) policy) rfl
  have hpolicy : (t.stop n).1.policy = t.policy := (foldl_cancel _ (t.alterNode n (·.stop))).2.1
  unfold gather
  rw [hstop]
  simp only [under, setChild, ← hpolicy]

theorem isOver_iff : t.isOver c = true ↔ ∀ k, ¬ t.Live c k := by
  unfold isOver Live service?
  cases t.child? c <;> simp

theorem isFree_supervisor (h : t.isFree (.supervisor n) = true) (hlive : t.Live c k) :
    k.work ≠ .supervisor n := by
  obtain ⟨child, hchild, rfl⟩ := Option.map_eq_some_iff.mp hlive.1
  simp only [isFree, Bool.and_eq_true, List.all_eq_true, Bool.or_eq_true, bne_iff_ne] at h
  rcases h.2 child (List.mem_of_getElem? hchild) with hwork | hover
  · exact hwork
  · cases hover.symm.trans hlive.2

/-- Adding a new supervisor is founding one and adding it. -/
theorem nest_eq (h : n < t.nodes.length) :
    t.nest n = t.found.add n (.supervisor t.nodes.length) := by
  have hnodes (f : Supervisor Nat → Supervisor Nat) (node : Supervisor Nat) :
      t.nodes.modify n f ++ [node] = (t.nodes ++ [node]).modify n f := by
    refine List.ext_getElem? fun m => ?_
    simp only [List.getElem?_append, List.getElem?_modify, List.length_modify]
    split
    next => rfl
    next hm =>
      have hne : n ≠ m := fun heq => hm (heq ▸ h)
      simp [hne]
  unfold nest add found alterNode
  simp only [List.getElem?_append_left h, hnodes]

end Tree

/-! ## Events -/

/-- A tree, and for each call that removed a service or stopped a supervisor what it waits for. -/
structure Host where
  tree : Tree
  calls : List (List Nat) := []

/-- Something that happens to a tree. -/
inductive Event where
  /-- A supervisor is founded. -/
  | found
  | add (n : Nat) (work : Work)
  | remove (n token : Nat)
  | stop (n : Nat)
  /-- A move of the service `c`, under the policy of its supervisor. -/
  | move (policy : RestartPolicy) (now c : Nat) (m : Tree.Move)
  /-- The rest of the service `c` ends in the moment in which it is told to end, and it is run
  again. -/
  | resume (now c : Nat)

namespace Host

/-- The host after an event, if that can happen now. A supervisor is the service of at most one
other. -/
def act? (s : Host) : Event → Option Host
  | .found => some { s with tree := s.tree.found }
  | .add n work =>
    if n < s.tree.nodes.length ∧ s.tree.isFree work then
      some { s with tree := s.tree.add n work }
    else none
  | .remove n token =>
    (s.tree.remove? n token).map fun (tree, c) => { tree, calls := [c] :: s.calls }
  | .stop n =>
    let (tree, awaited) := s.tree.stop n
    some { tree, calls := awaited :: s.calls }
  | .move policy now c m =>
    ((s.tree.under policy).step? now c m).map fun tree =>
      { s with tree := tree.under s.tree.policy }
  | .resume now c =>
    match s.tree.child? c with
    | some child =>
      match child.life with
      | .resting failures due =>
        if due ≤ now then some { s with tree := s.tree.enter c child (.running failures) } else none
      | _ => none
    | none => none

end Host

/-- What an event does to the tree. -/
inductive Acts (s : Host) : Event → Host → Prop where
  | found : Acts s .found { s with tree := s.tree.found }
  | added {n : Nat} {work : Work} (hn : n < s.tree.nodes.length) (hfree : s.tree.isFree work = true) :
      Acts s (.add n work) { s with tree := s.tree.add n work }
  | removed {n token c : Nat} (hmember : (token, c) ∈ s.tree.members n) :
      Acts s (.remove n token)
        { tree := (s.tree.alterNode n (·.drop token)).cancel c, calls := [c] :: s.calls }
  | stopped {n : Nat} :
      Acts s (.stop n) { tree := (s.tree.stop n).1, calls := (s.tree.stop n).2 :: s.calls }
  /-- A run of a leaf ends, or a rest. -/
  | entered {e : Event} {c : Nat} {child : Child} {life : Life}
      (hchild : s.tree.child? c = some child) (hlive : child.life.isOver = false)
      (hordinary : child.work = .leaf ∨ ∃ failures due, child.life = .resting failures due)
      (hmove : (∃ policy now m, e = .move policy now c m) ∨ ∃ now, e = .resume now c) :
      Acts s e { s with tree := s.tree.enter c child life }
  | gathered {policy : RestartPolicy} {now c n : Nat} {child : Child}
      (hchild : s.tree.child? c = some child) (hlive : child.life.isOver = false)
      (hwork : child.work = .supervisor n)
      (hawaited : child.awaited = none) :
      Acts s (.move policy now c .gather) { s with tree := s.tree.gather c child n }
  | released {policy : RestartPolicy} {now c n : Nat} {child : Child} {awaited : List Nat}
      (hchild : s.tree.child? c = some child) (hlive : child.life.isOver = false)
      (hwork : child.work = .supervisor n) (hawaited : child.awaited = some awaited)
      (hover : ∀ c' ∈ awaited, s.tree.isOver c' = true) :
      Acts s (.move policy now c .release) { s with tree := s.tree.enter c child .finished }

theorem mem_members_of_remove? {t t' : Tree} {n token c : Nat}
    (h : t.remove? n token = some (t', c)) :
    (token, c) ∈ t.members n ∧ t' = (t.alterNode n (·.drop token)).cancel c := by
  unfold Tree.remove? at h
  split at h <;> cases h
  next hmember =>
    obtain ⟨node, hnode, hlookup⟩ := Option.bind_eq_some_iff.mp hmember
    obtain ⟨before, after, hmembers, -⟩ := List.lookup_eq_some_iff.mp hlookup
    refine ⟨?_, rfl⟩
    rw [Tree.members, hnode, Option.map_some, Option.getD_some, hmembers]
    simp

theorem acts_of_step? {s : Host} {tree : Tree} {policy : RestartPolicy} {now c : Nat}
    {m : Tree.Move} (h : (s.tree.under policy).step? now c m = some tree) :
    Acts s (.move policy now c m) { s with tree := tree.under s.tree.policy } := by
  unfold Tree.step? at h
  split at h
  next => cases h
  next child hchild =>
    have hchild : s.tree.child? c = some child := hchild
    split at h
    next e failures hwork hlife =>
      cases h
      rw [Tree.enter_under]
      exact .entered hchild (by rw [hlife]; rfl) (.inl hwork) (.inl ⟨policy, now, _, rfl⟩)
    next =>
      obtain ⟨life, hawake, rfl⟩ := Option.map_eq_some_iff.mp h
      rw [Tree.enter_under]
      unfold Life.awake? at hawake
      split at hawake
      next failures due hlife =>
        exact .entered hchild (by rw [hlife]; rfl) (.inr ⟨failures, due, hlife⟩)
          (.inl ⟨policy, now, _, rfl⟩)
      next => cases hawake
    next n failures hwork hlife =>
      split at h
      next hguard =>
        simp only [Bool.and_eq_true, Option.isNone_iff_eq_none] at hguard
        cases h
        have hgathers : Acts s (.move policy now c .gather)
            { s with tree := ((s.tree.under policy).gather c child n).under s.tree.policy } := by
          rw [Tree.gather_under]
          exact .gathered hchild (by rw [hlife]; rfl) hwork hguard.1
        exact hgathers
      next => cases h
    next n failures hwork hlife =>
      split at h
      next awaited hawaited =>
        split at h <;> cases h
        next hover =>
          rw [Tree.enter_under]
          exact .released hchild (by rw [hlife]; rfl) hwork hawaited (List.all_eq_true.mp hover)
      next => cases h
    next => cases h

theorem acts_of_act? {s s' : Host} {e : Event} (h : s.act? e = some s') : Acts s e s' := by
  cases e with
  | found =>
    cases h
    exact .found
  | add n work =>
    simp only [Host.act?] at h
    split at h <;> cases h
    next hguard => exact .added hguard.1 hguard.2
  | remove n token =>
    obtain ⟨⟨tree, c⟩, hremove, rfl⟩ := Option.map_eq_some_iff.mp h
    obtain ⟨hmember, rfl⟩ := mem_members_of_remove? hremove
    exact .removed hmember
  | stop n =>
    cases h
    exact .stopped
  | move policy now c m =>
    obtain ⟨tree, hstep, rfl⟩ := Option.map_eq_some_iff.mp h
    exact acts_of_step? hstep
  | resume now c =>
    simp only [Host.act?] at h
    split at h
    next child hchild =>
      split at h
      next failures due hlife =>
        split at h <;> cases h
        exact .entered hchild (by rw [hlife]; rfl) (.inr ⟨failures, due, hlife⟩) (.inr ⟨now, rfl⟩)
      next => cases h
    next => cases h

/-! ## What stays of a service -/

/-- What stays of a service. One that is over is not run again. -/
structure Child.Later (k k' : Child) : Prop where
  parent_eq : k'.parent = k.parent
  token_eq : k'.token = k.token
  work_eq : k'.work = k.work
  isOver : k.life.isOver = true → k'.life.isOver = true

theorem Child.Later.rfl {k : Child} : k.Later k := ⟨.refl _, .refl _, .refl _, id⟩

theorem Child.Later.trans {k₁ k₂ k₃ : Child} (h : k₁.Later k₂) (h' : k₂.Later k₃) : k₁.Later k₃ :=
  ⟨h'.parent_eq.trans h.parent_eq, h'.token_eq.trans h.token_eq, h'.work_eq.trans h.work_eq,
    h'.isOver ∘ h.isOver⟩

variable {s s' : Host} {e : Event} {c : Nat} {k : Child}

theorem later_enter {t : Tree} {c' : Nat} {child : Child} (hchild : t.child? c' = some child)
    (hlive : child.life.isOver = false) (life : Life) (hk : t.service? c = some k) :
    ∃ k', (t.enter c' child life).service? c = some k' ∧ k.Later k' := by
  rw [Tree.service?_enter hchild]
  split
  next heq =>
    subst heq
    cases hk.symm.trans (Tree.service?_of_child? hchild)
    exact ⟨_, rfl, .refl _, .refl _, .refl _, fun hover => by cases hover.symm.trans hlive⟩
  next => exact ⟨k, hk, .rfl⟩

/-- **A service that is over is not run again.** -/
theorem Acts.later (h : Acts s e s') (hk : s.tree.service? c = some k) :
    ∃ k', s'.tree.service? c = some k' ∧ k.Later k' := by
  cases h with
  | found => exact ⟨k, hk, .rfl⟩
  | added =>
    rw [Tree.service?_add, if_neg (Nat.ne_of_lt (Tree.lt_of_service? hk))]
    exact ⟨k, hk, .rfl⟩
  | removed => exact ⟨k, (Tree.service?_cancel ..).trans hk, .rfl⟩
  | stopped => exact ⟨k, (Tree.service?_stop ..).trans hk, .rfl⟩
  | entered hchild hlive => exact later_enter hchild hlive _ hk
  | released hchild hlive => exact later_enter hchild hlive _ hk
  | gathered hchild =>
    rw [Tree.service?_gather hchild]
    split
    next heq =>
      subst heq
      cases hk.symm.trans (Tree.service?_of_child? hchild)
      exact ⟨_, rfl, .refl _, .refl _, .refl _, id⟩
    next => exact ⟨k, hk, .rfl⟩

theorem later_of_run? {es : List Event} (h : run? Host.act? s es = some s')
    (hk : s.tree.service? c = some k) : ∃ k', s'.tree.service? c = some k' ∧ k.Later k' := by
  refine run?_invariant (motive := fun _ s' => ∃ k', s'.tree.service? c = some k' ∧ k.Later k')
    ⟨k, hk, .rfl⟩ ?_ h
  rintro past s₁ e s₂ - ⟨k₁, hk₁, hlater₁⟩ hact
  obtain ⟨k₂, hk₂, hlater₂⟩ := (acts_of_act? hact).later hk₁
  exact ⟨k₂, hk₂, hlater₁.trans hlater₂⟩

end Wiretap.Supervision
