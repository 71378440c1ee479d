import Wiretap.Proofs.Supervision.Told

/-!
# What concerns one service

A service of a supervisor has to do with the calls on that supervisor and with its own moves. Each
of them changes what can be seen of the service in a way that depends on nothing else; and whatever
else happens in the tree, to other services of the same supervisor too, leaves it alone.

Results:

* `Tree.view_stop`, `Tree.view_remove`, `Tree.view_enter`: what a change of the tree changes of what
  can be seen of a service.
* `view_of_serve?`: what one event changes of it.
-/

namespace Wiretap.Supervision

/-! ## Events in time -/

/-- The event is one of that time, and a move is made under the policy of the supervisor. -/
def Event.suits (policies : Nat → RestartPolicy) (t : Tree) (x : Nat) : Event → Bool
  | .move policy now c _ =>
    decide (now = x) && (t.child? c).all fun k => decide (policies k.parent = policy)
  | .resume now _ => decide (now = x)
  | _ => true

/-- The host after an event at a time. A call that is to remove a service may not find it. -/
def Host.serve? (policies : Nat → RestartPolicy) (s : Host) : Nat × Event → Option Host
  | (_, .remove n token) => some ((s.act? (.remove n token)).getD s)
  | (x, e) => if e.suits policies s.tree x then s.act? e else none

/-- What can concern a service. -/
inductive Deed where
  /-- A service is added to its supervisor, before it or as itself. -/
  | add
  | remove
  /-- Its supervisor is stopped. -/
  | stop
  /-- Its own run ends. -/
  | ends (e : Exit)
  /-- Its own rest ends. -/
  | awakes
  /-- Its own rest ends in the moment in which it is told to end, and it is run again. -/
  | resumes
  deriving DecidableEq, Repr

/-- It is a call on the supervisor. -/
def Deed.isCall : Deed → Bool
  | .add | .remove | .stop => true
  | .ends _ | .awakes | .resumes => false

/-- What a move is to the service that makes it, apart from stopping the supervisor that it runs. -/
def Tree.Move.deed? : Tree.Move → Option Deed
  | .ended e => some (.ends e)
  | .awake => some .awakes
  | .gather => none
  | .release => some (.ends .stopped)

/-- What an event is to the service `c` that the supervisor `n` knows by a token. The service that
runs a supervisor stops it in the same way as a call does. -/
def Tree.deed? (t : Tree) (n token c : Nat) : Event → Option Deed
  | .found => none
  | .add m _ => if m = n ∧ t.nextToken n ≤ token then some .add else none
  | .remove m token' => if m = n ∧ token' = token then some .remove else none
  | .stop m => if m = n ∧ n < t.nodes.length then some .stop else none
  | .move _ _ c' .gather =>
    if (t.child? c').any (·.work = .supervisor n) ∧ n < t.nodes.length then some .stop else none
  | .move _ _ c' m => if c' = c then m.deed? else none
  | .resume _ c' => if c' = c then some .resumes else none

/-! ## What can be seen -/

/-- What can be seen of a service. -/
@[ext]
structure View where
  /-- How many services are to be added to its supervisor until it is there. -/
  ahead : Nat
  /-- Its supervisor has been stopped. -/
  stopped : Bool := false
  /-- Where it stands, once it was added, and whether it was told to end and is not over. -/
  service : Option (Life × Bool) := none
  deriving DecidableEq, Repr

namespace Tree

/-- Where a service stands. -/
def life? (t : Tree) (c : Nat) : Option Life := (t.service? c).map (·.life)

/-- What can be seen of the service `c` that the supervisor `n` knows by a token. -/
def view (t : Tree) (n token c : Nat) : View where
  ahead := token + 1 - t.nextToken n
  stopped := t.isStopped n
  service := (t.life? c).map fun life => (life, !life.isOver && t.isTold c)

end Tree

/-- What a move of its own makes of the life of a service. -/
def Deed.life? (policy : RestartPolicy) (x : Nat) (told : Bool) : Deed → Life → Option Life
  | .ends e, .running failures => some (.ended policy x told failures e)
  | .awakes, life => life.awake? x told
  | .resumes, .resting failures due => if due ≤ x then some (.running failures) else none
  | _, _ => none

namespace View

/-- The service is told to end. -/
def tell (v : View) : View :=
  { v with service := v.service.map fun (life, told) => (life, told || !life.isOver) }

/-- The service goes over to another stage of its life. -/
def enter (v : View) (life : Life) : View :=
  { v with service := v.service.map fun (_, told) => (life, !life.isOver && told) }

/-- What a deed changes. -/
def act (policy : RestartPolicy) (x : Nat) (v : View) (d : Deed) : View :=
  match d with
  | .add =>
    { v with
      ahead := v.ahead - 1
      service := if v.ahead = 1 then some (.fresh, v.stopped) else v.service }
  | .remove => v.tell
  | .stop => { v.tell with stopped := true }
  | d =>
    match v.service.bind fun (life, told) => d.life? policy x told life with
    | some life => v.enter life
    | none => v

/-- What an event changes that may be a deed. -/
def after (policy : RestartPolicy) (x : Nat) (v : View) (deed : Option Deed) : View :=
  deed.elim v (v.act policy x)

theorem after_if {P : Prop} [Decidable P] (policy : RestartPolicy) (x : Nat) (v : View) (d : Deed) :
    v.after policy x (if P then some d else none) = if P then v.act policy x d else v := by
  split <;> rfl

theorem act_of_life? {v : View} {policy : RestartPolicy} {x : Nat} {d : Deed}
    {life life' : Life} {told : Bool} (hservice : v.service = some (life, told))
    (hlife : d.life? policy x told life = some life') : v.act policy x d = v.enter life' := by
  have hbind : (v.service.bind fun (life, told) => d.life? policy x told life) = some life' := by
    rw [hservice]
    exact hlife
  cases d with
  | add => cases life <;> cases hlife
  | remove => cases life <;> cases hlife
  | stop => cases life <;> cases hlife
  | _ =>
    unfold act
    simp only [hbind]

theorem tell_of_service {v : View} (h : ∀ life told, v.service = some (life, told) →
    life.isOver = false → told = true) : v.tell = v := by
  ext1
  · rfl
  · rfl
  · unfold tell
    dsimp only
    cases hservice : v.service with
    | none => rfl
    | some p =>
      obtain ⟨life, told⟩ := p
      cases hover : life.isOver with
      | true => simp [hover]
      | false => simp [hover, h life told hservice hover]

end View

/-- The service `c` is the one that the supervisor `n` knows by that token. -/
structure Names (s : Host) (n token c : Nat) : Prop where
  iff : ∀ {c' k}, s.tree.service? c' = some k → (k.parent = n ∧ k.token = token ↔ c' = c)

/-! ## What a change leaves as it is -/

namespace Tree

variable {t t' : Tree} {n m c c' token : Nat} {k : Child}

theorem life?_congr (h : t'.service? c = t.service? c) : t'.life? c = t.life? c :=
  congrArg (Option.map Child.life) h

theorem view_congr (hnext : t'.nextToken n = t.nextToken n)
    (hstopped : t'.isStopped n = t.isStopped n) (hlife : t'.life? c = t.life? c)
    (htold : t'.isTold c = t.isTold c) : t'.view n token c = t.view n token c := by
  unfold view
  rw [hnext, hstopped, hlife, htold]

theorem isTold_of_none (h : t.child? c = none) : t.isTold c = false := by
  rw [isTold, h]
  rfl

theorem child?_eq_none (h : t.life? c = none) : t.child? c = none :=
  Option.map_eq_none_iff.mp (Option.map_eq_none_iff.mp h)

theorem view_told (hnext : t'.nextToken n = t.nextToken n) (hlife : t'.life? c = t.life? c)
    (htold : ∀ k, t.child? c = some k → t'.isTold c = true) :
    t'.view n token c = { (t.view n token c).tell with stopped := t'.isStopped n } := by
  ext1
  · exact congrArg (token + 1 - ·) hnext
  · rfl
  · unfold view View.tell
    dsimp only
    rw [hlife]
    cases hk : t.child? c with
    | none =>
      rw [life?, service?, hk]
      rfl
    | some k =>
      rw [htold k hk, Option.map_map]
      congr 1
      funext life
      cases hover : life.isOver <;> simp [hover]

theorem view_found (t : Tree) (n token c : Nat) : t.found.view n token c = t.view n token c :=
  view_congr (nextToken_found t n) (isStopped_found t n) rfl (isTold_found t c)

theorem ahead_add (hm : m < t.nodes.length) (work : Work) (n token : Nat) :
    token + 1 - (t.add m work).nextToken n =
      if m = n ∧ t.nextToken n ≤ token then token + 1 - t.nextToken n - 1
      else token + 1 - t.nextToken n := by
  rw [nextToken_add hm]
  by_cases hmn : n = m
  · subst hmn
    rw [if_pos rfl]
    split
    next => omega
    next hafter =>
      have hlt : token < t.nextToken n := Nat.lt_of_not_le fun hle => hafter ⟨rfl, hle⟩
      omega
  · rw [if_neg hmn, if_neg fun h => hmn h.1.symm]

theorem view_add {policy : RestartPolicy} {x : Nat} {work : Work} (hm : m < t.nodes.length)
    (hname : m = n ∧ t.nextToken m = token ↔ t.children.length = c) :
    (t.add m work).view n token c =
      if m = n ∧ t.nextToken n ≤ token then (t.view n token c).act policy x .add
      else t.view n token c := by
  have hstopped (m' : Nat) : (t.add m work).isStopped m' = t.isStopped m' :=
    isStopped_of_modify (nodes_add t m work) (fun _ => rfl) m'
  have hservice := service?_add t m work c
  have htold := isTold_add t m work c
  unfold view View.act
  rw [ahead_add hm, hstopped, life?, life?, hservice, htold]
  by_cases hc : c = t.children.length
  · -- it is the service itself
    obtain ⟨rfl, rfl⟩ := hname.mpr hc.symm
    simp [hc, Life.fresh, Life.isOver]
  · rw [if_neg hc, if_neg hc]
    split
    next hbefore =>
      obtain ⟨rfl, hle⟩ := hbefore
      have hne : t.nextToken m ≠ token := fun htoken => hc (hname.mp ⟨rfl, htoken⟩).symm
      have hahead : token + 1 - t.nextToken m ≠ 1 := by omega
      simp only [hahead, if_false]
    next => rfl

theorem view_remove (t : Tree) (n m token token' c c' : Nat) :
    ((t.alterNode m (·.drop token')).cancel c').view n token c =
      if c' = c then (t.view n token c).tell else t.view n token c := by
  have hstopped (n : Nat) :
      ((t.alterNode m (·.drop token')).cancel c').isStopped n = t.isStopped n :=
    isStopped_of_modify (n := m) (f := (·.drop token')) rfl (fun _ => rfl) n
  have hnext : ((t.alterNode m (·.drop token')).cancel c').nextToken n = t.nextToken n :=
    nextToken_drop t m token' n
  have hlife := life?_congr (service?_cancel (t.alterNode m (·.drop token')) c' c)
  split
  next hc =>
    have htold (k : Child) (hk : t.child? c = some k) :
        ((t.alterNode m (·.drop token')).cancel c').isTold c = true := by
      rw [isTold_remove hk, decide_eq_true hc, Bool.or_true]
    rw [view_told (t := t) hnext hlife htold, hstopped]
    rfl
  next hc =>
    refine view_congr (t := t) hnext (hstopped n) hlife ?_
    cases hk : t.child? c with
    | some k => rw [isTold_remove hk, decide_eq_false hc, Bool.or_false]
    | none =>
      rw [isTold_of_none hk, isTold_of_none]
      rw [child?_cancel, show (t.alterNode m (·.drop token')).child? c = none from hk]
      rfl

theorem view_of_stop (hnext : t'.nextToken n = t.nextToken n) (hlife : t'.life? c = t.life? c)
    (hstopped : t'.isStopped n = (t.isStopped n || decide (n = m ∧ m < t.nodes.length)))
    (htold : ∀ k, t.child? c = some k →
      t'.isTold c = (t.isTold c || decide (n = m ∧ m < t.nodes.length))) :
    t'.view n token c =
      if m = n ∧ n < t.nodes.length then { (t.view n token c).tell with stopped := true }
      else t.view n token c := by
  by_cases hmn : m = n ∧ n < t.nodes.length
  · obtain ⟨rfl, hlt⟩ := hmn
    rw [if_pos ⟨rfl, hlt⟩, view_told hnext hlife fun k hk => ?_, hstopped]
    · simp [hlt]
    · rw [htold k hk]
      simp [hlt]
  · have hmn' : ¬ (n = m ∧ m < t.nodes.length) := fun h => hmn ⟨h.1.symm, h.1 ▸ h.2⟩
    rw [if_neg hmn]
    rw [decide_eq_false hmn', Bool.or_false] at hstopped
    refine view_congr hnext hstopped hlife ?_
    cases hk : t.child? c with
    | some k => rw [htold k hk, decide_eq_false hmn', Bool.or_false]
    | none =>
      have hnone : t'.child? c = none := by
        refine child?_eq_none (hlife.trans ?_)
        rw [life?, service?, hk]
        rfl
      rw [isTold_of_none hk, isTold_of_none hnone]

theorem view_stop (hk : ∀ k, t.child? c = some k →
      k.parent = n ∧ (c ∈ (t.stop m).2 → n = m ∧ m < t.nodes.length)) :
    (t.stop m).1.view n token c =
      if m = n ∧ n < t.nodes.length then { (t.view n token c).tell with stopped := true }
      else t.view n token c := by
  refine view_of_stop (nextToken_stop ..) (life?_congr (service?_stop ..)) (isStopped_stop ..) ?_
  intro k hchild
  obtain ⟨hparent, hmember⟩ := hk k hchild
  rw [isTold_stop hchild, hparent]
  congr 1
  exact decide_eq_decide.mpr (or_iff_right_of_imp hmember)

theorem view_gather {child : Child} (hchild : t.child? c' = some child)
    (hk : ∀ k, t.child? c = some k →
      k.parent = n ∧ (c ∈ (t.stop m).2 → n = m ∧ m < t.nodes.length)) :
    (t.gather c' child m).view n token c =
      if m = n ∧ n < t.nodes.length then { (t.view n token c).tell with stopped := true }
      else t.view n token c := by
  have hlife : (t.gather c' child m).life? c = t.life? c := by
    unfold life?
    rw [service?_gather hchild]
    split
    next hc =>
      rw [hc, service?_of_child? hchild]
      rfl
    next => rfl
  refine view_of_stop (nextToken_stop ..) hlife (isStopped_gather ..) ?_
  intro k hchild'
  obtain ⟨hparent, hmember⟩ := hk k hchild'
  rw [isTold_gather hchild hchild', hparent]
  congr 1
  exact decide_eq_decide.mpr (or_iff_right_of_imp fun h => hmember h.2)

theorem view_enter_of_ne {child : Child} (hchild : t.child? c' = some child) (life : Life)
    (n : Nat) (hc : c ≠ c') : (t.enter c' child life).view n token c = t.view n token c :=
  view_congr (nextToken_enter ..) (isStopped_enter ..)
    (life?_congr ((service?_enter hchild life c).trans (if_neg hc))) (isTold_enter hchild life c)

/-- Where the service itself goes over. -/
theorem view_enter {child : Child} (hchild : t.child? c = some child)
    (hlive : child.life.isOver = false) (life : Life) (n : Nat) :
    (t.enter c child life).view n token c = (t.view n token c).enter life := by
  have hservice := (service?_enter hchild life c).trans (if_pos rfl)
  unfold view View.enter
  rw [nextToken_enter, isStopped_enter, isTold_enter hchild, life?, life?, hservice,
    service?_of_child? hchild]
  simp [hlive]

theorem service_view {child : Child} (hchild : t.child? c = some child)
    (hlive : child.life.isOver = false) (n : Nat) :
    (t.view n token c).service = some (child.life, t.isCancelled child) := by
  unfold view
  rw [life?, service?_of_child? hchild, isTold, hchild]
  simp [hlive]

end Tree

/-! ## What one event changes -/

variable {policies : Nat → RestartPolicy} {s s' : Host} {e : Event} {n c token x : Nat}

theorem Names.parent_eq (h : Names s n token c) {k : Child} (hk : s.tree.child? c = some k) :
    k.parent = n :=
  ((h.iff (Tree.service?_of_child? hk)).mpr rfl).1

/-- A service keeps its token. -/
theorem Names.before (h : Names s' n token c) (hacts : Acts s e s') : Names s n token c where
  iff hk := by
    obtain ⟨k', hk', hlater⟩ := hacts.later hk
    rw [← hlater.parent_eq, ← hlater.token_eq]
    exact h.iff hk'

theorem Sound.parent_of_mem_stop (h : Sound s) {m : Nat} {k : Child}
    (hk : s.tree.child? c = some k) (hc : c ∈ (s.tree.stop m).2) :
    k.parent = m ∧ m < s.tree.nodes.length := by
  rw [Tree.awaited_stop] at hc
  obtain ⟨⟨token, c'⟩, hmember, rfl⟩ := List.mem_map.mp hc
  obtain ⟨k', hk', hparent, -⟩ := h.attached hmember
  cases (Tree.service?_of_child? hk).symm.trans hk'
  refine ⟨hparent, ?_⟩
  by_contra hge
  rw [Tree.members, List.getElem?_eq_none (Nat.le_of_not_lt hge)] at hmember
  cases hmember

theorem Names.of_mem_stop (h : Names s n token c) (hsound : Sound s) (m : Nat) :
    ∀ k, s.tree.child? c = some k →
      k.parent = n ∧ (c ∈ (s.tree.stop m).2 → n = m ∧ m < s.tree.nodes.length) := by
  intro k hk
  have hparent := h.parent_eq hk
  refine ⟨hparent, fun hc => ?_⟩
  obtain ⟨hm, hlt⟩ := hsound.parent_of_mem_stop hk hc
  exact ⟨hparent.symm.trans hm, hlt⟩

theorem remove?_of_mem {t : Tree} (h : (token, c) ∈ t.members n) : t.remove? n token ≠ none := by
  unfold Tree.remove? Tree.members at *
  cases hnode : t.nodes[n]? with
  | none =>
    rw [hnode] at h
    cases h
  | some node =>
    rw [hnode] at h
    simp only [Option.bind_some]
    cases hmember : node.member? token with
    | some c' => nofun
    | none => exact absurd rfl (bne_iff_ne.mp (List.lookup_eq_none_iff.mp hmember _ h))

/-- What a move is to the service that makes it. -/
theorem deed_of_step? {t tree : Tree} {policy : RestartPolicy} {m : Tree.Move}
    (h : (t.under policy).step? x c m = some tree) (hm : m ≠ .gather) :
    ∃ d child life, m.deed? = some d ∧ t.child? c = some child ∧ child.life.isOver = false ∧
      d.life? policy x (t.isCancelled child) child.life = some life ∧
      tree.under t.policy = t.enter c child life := by
  unfold Tree.step? at h
  split at h
  next => cases h
  next child hchild =>
    have hchild : t.child? c = some child := hchild
    split at h
    next e failures hwork hlife =>
      cases h
      refine ⟨_, child, _, rfl, hchild, by rw [hlife]; rfl, ?_, Tree.enter_under ..⟩
      rw [hlife]
      rfl
    next =>
      obtain ⟨life, hawake, rfl⟩ := Option.map_eq_some_iff.mp h
      refine ⟨.awakes, child, life, rfl, hchild, ?_, hawake, Tree.enter_under ..⟩
      unfold Life.awake? at hawake
      split at hawake
      next hlife => rw [hlife]; rfl
      next => cases hawake
    next => exact absurd rfl hm
    next failures hwork hlife =>
      split at h
      next awaited hawaited =>
        split at h <;> cases h
        next hover =>
          refine ⟨_, child, _, rfl, hchild, by rw [hlife]; rfl, ?_, Tree.enter_under ..⟩
          rw [hlife]
          rfl
      next => cases h
    next => cases h

theorem gather_of_step? {t tree : Tree} {policy : RestartPolicy} {move : Tree.Move}
    (h : (t.under policy).step? x c move = some tree) (hmove : move = .gather) :
    ∃ child m, t.child? c = some child ∧ child.work = .supervisor m ∧
      tree.under t.policy = t.gather c child m := by
  unfold Tree.step? at h
  split at h
  next => cases h
  next child hchild =>
    split at h
    next => cases hmove
    next => cases hmove
    next m failures hwork hlife =>
      split at h <;> cases h
      exact ⟨child, m, hchild, hwork, Tree.gather_under ..⟩
    next => cases hmove
    next => cases h

theorem deed?_move (t : Tree) (n c c' now : Nat) (policy : RestartPolicy) {m : Tree.Move}
    (hm : m ≠ .gather) :
    t.deed? n token c (.move policy now c' m) = if c' = c then m.deed? else none := by
  cases m with
  | gather => exact absurd rfl hm
  | _ => rfl

/-- A service whose move is a deed goes over to what the deed makes of its life. -/
theorem view_of_entered {t : Tree} {c' : Nat} {child : Child} {d : Deed} {life : Life}
    (hchild : t.child? c' = some child) (hlive : child.life.isOver = false)
    (hlife : c' = c → d.life? (policies n) x (t.isCancelled child) child.life = some life) :
    (t.enter c' child life).view n token c =
      (t.view n token c).after (policies n) x (if c' = c then some d else none) := by
  rw [View.after_if]
  split
  next hc =>
    subst hc
    rw [Tree.view_enter hchild hlive]
    exact (View.act_of_life? (Tree.service_view hchild hlive n) (hlife rfl)).symm
  next hc => exact Tree.view_enter_of_ne hchild life n (Ne.symm hc)

theorem view_of_move {tree : Tree} {policy : RestartPolicy} {c' : Nat} {m : Tree.Move}
    (hnames : Names s n token c)
    (hpolicy : ∀ k, s.tree.child? c' = some k → policies k.parent = policy)
    (h : (s.tree.under policy).step? x c' m = some tree) (hm : m ≠ .gather) (now : Nat) :
    (tree.under s.tree.policy).view n token c =
      (s.tree.view n token c).after (policies n) x
        (s.tree.deed? n token c (.move policy now c' m)) := by
  obtain ⟨d, child, life, hdeed, hchild, hlive, hlife, htree⟩ := deed_of_step? h hm
  have hmine (hc : c' = c) :
      d.life? (policies n) x (s.tree.isCancelled child) child.life = some life := by
    subst hc
    rw [← hnames.parent_eq hchild, hpolicy child hchild]
    exact hlife
  rw [htree, deed?_move _ _ _ _ _ _ hm, hdeed]
  exact view_of_entered hchild hlive hmine

theorem view_of_resume {c' now : Nat} (h : s.act? (.resume now c') = some s') :
    s'.tree.view n token c =
      (s.tree.view n token c).after (policies n) now (s.tree.deed? n token c (.resume now c')) := by
  simp only [Host.act?] at h
  split at h
  next child hchild =>
    split at h
    next failures due hlife =>
      split at h <;> cases h
      next hdue =>
        refine view_of_entered hchild (by rw [hlife]; rfl) fun _ => ?_
        rw [hlife]
        exact if_pos hdue
    next => cases h
  next => cases h

theorem view_of_gather {tree : Tree} {policy : RestartPolicy} {c' : Nat} (hsound : Sound s)
    (hnames : Names s n token c) (h : (s.tree.under policy).step? x c' .gather = some tree)
    (now : Nat) :
    (tree.under s.tree.policy).view n token c =
      (s.tree.view n token c).after (policies n) x
        (s.tree.deed? n token c (.move policy now c' .gather)) := by
  obtain ⟨child, m, hchild, hwork, htree⟩ := gather_of_step? h rfl
  have hdeed : s.tree.deed? n token c (.move policy now c' .gather) =
      if m = n ∧ n < s.tree.nodes.length then some .stop else none := by
    simp [Tree.deed?, hchild, hwork]
  rw [htree, Tree.view_gather hchild (hnames.of_mem_stop hsound m), hdeed, View.after_if]
  rfl

/-- Who is to be removed, but is not found, is over or was told before. -/
theorem view_of_missing (hattends : Attends s) (hnames : Names s n token c)
    (hmissing : s.tree.remove? n token = none) :
    (s.tree.view n token c).tell = s.tree.view n token c := by
  refine View.tell_of_service fun life told hservice hlive => ?_
  obtain ⟨life', hlife, heq⟩ := Option.map_eq_some_iff.mp hservice
  cases heq
  obtain ⟨k, hk, rfl⟩ := Option.map_eq_some_iff.mp hlife
  obtain ⟨hparent, htoken⟩ := (hnames.iff hk).mpr rfl
  cases htold : s.tree.isTold c with
  | true => simp [hlive]
  | false =>
    have hmember := hattends c k ⟨hk, hlive⟩ htold
    rw [hparent, htoken] at hmember
    exact absurd hmissing (remove?_of_mem hmember)

theorem view_of_remove {m token' : Nat} (hsound : Sound s) (hattends : Attends s)
    (hnames : Names s n token c) :
    ((s.act? (.remove m token')).getD s).tree.view n token c =
      (s.tree.view n token c).after (policies n) x (s.tree.deed? n token c (.remove m token')) := by
  have hdeed : s.tree.deed? n token c (.remove m token') =
      if m = n ∧ token' = token then some .remove else none := rfl
  have hact : s.act? (.remove m token') = (s.tree.remove? m token').map
      fun p => { tree := p.1, calls := [p.2] :: s.calls } := rfl
  have htell : (s.tree.view n token c).act (policies n) x .remove = (s.tree.view n token c).tell :=
    rfl
  rw [hdeed, View.after_if, htell, hact]
  cases hremove : s.tree.remove? m token' with
  | none =>
    split
    next hname =>
      obtain ⟨rfl, rfl⟩ := hname
      exact (view_of_missing hattends hnames hremove).symm
    next => rfl
  | some p =>
    obtain ⟨tree, c'⟩ := p
    obtain ⟨hmember, rfl⟩ := mem_members_of_remove? hremove
    obtain ⟨k, hk, rfl, rfl⟩ := hsound.attached hmember
    have hview := Tree.view_remove s.tree n k.parent token k.token c c'
    rw [if_congr (hnames.iff hk) rfl rfl]
    exact hview

theorem acts_of_serve? {p : Nat × Event} (h : s.serve? policies p = some s') :
    Acts s p.2 s' ∨ s' = s := by
  unfold Host.serve? at h
  split at h
  next n token =>
    cases hact : s.act? (.remove n token) with
    | none =>
      rw [hact] at h
      cases h
      exact .inr rfl
    | some s₁ =>
      rw [hact] at h
      cases h
      exact .inl (acts_of_act? hact)
  next =>
    split at h
    next => exact .inl (acts_of_act? h)
    next => cases h

theorem act?_of_serve? (h : s.serve? policies (x, e) = some s')
    (he : ∀ n token, e ≠ .remove n token) :
    e.suits policies s.tree x = true ∧ s.act? e = some s' := by
  cases e with
  | remove n token => exact absurd rfl (he n token)
  | _ =>
    simp only [Host.serve?] at h
    split at h
    next hsuits => exact ⟨hsuits, h⟩
    next => cases h

theorem Names.before_serve? {p : Nat × Event} (h : Names s' n token c)
    (hserve : s.serve? policies p = some s') : Names s n token c := by
  rcases acts_of_serve? hserve with hacts | rfl
  · exact h.before hacts
  · exact h

/-- **What one event changes of what can be seen of a service**: what the deed changes that the
event is to it, and nothing where it is none. -/
theorem view_of_serve? (hsound : Sound s) (hattends : Attends s) (hnames : Names s' n token c)
    (h : s.serve? policies (x, e) = some s') :
    s'.tree.view n token c =
      (s.tree.view n token c).after (policies n) x (s.tree.deed? n token c e) := by
  have hbefore : Names s n token c := hnames.before_serve? h
  cases e with
  | found =>
    cases (act?_of_serve? h (by simp)).2
    exact Tree.view_found ..
  | add m work =>
    have hact := (act?_of_serve? h (by simp)).2
    simp only [Host.act?] at hact
    split at hact <;> cases hact
    next hguard =>
      have hservice := (Tree.service?_add s.tree m work s.tree.children.length).trans (if_pos rfl)
      have hdeed : s.tree.deed? n token c (.add m work) =
          if m = n ∧ s.tree.nextToken n ≤ token then some .add else none := rfl
      rw [hdeed, View.after_if]
      exact Tree.view_add hguard.1 (hnames.iff hservice)
  | remove m token' =>
    cases h
    exact view_of_remove hsound hattends hbefore
  | stop m =>
    cases (act?_of_serve? h (by simp)).2
    have hdeed : s.tree.deed? n token c (.stop m) =
        if m = n ∧ n < s.tree.nodes.length then some .stop else none := rfl
    rw [hdeed, View.after_if]
    exact Tree.view_stop (hbefore.of_mem_stop hsound m)
  | move policy now c' m =>
    obtain ⟨hsuits, hact⟩ := act?_of_serve? h (by simp)
    obtain ⟨tree, hstep, rfl⟩ := Option.map_eq_some_iff.mp hact
    simp only [Event.suits, Bool.and_eq_true, decide_eq_true_eq, Option.all_eq_true] at hsuits
    obtain ⟨rfl, hpolicy⟩ := hsuits
    by_cases hm : m = .gather
    · subst hm
      exact view_of_gather hsound hbefore hstep now
    · exact view_of_move hbefore hpolicy hstep hm now
  | resume now c' =>
    obtain ⟨hsuits, hact⟩ := act?_of_serve? h (by simp)
    obtain rfl : now = x := of_decide_eq_true hsuits
    exact view_of_resume hact

end Wiretap.Supervision
