import Wiretap.Proofs.Supervision.View

/-!
# Services do not disturb one another

A service is watched in two runs of trees of supervisors. The same calls are made on its supervisor,
and the service itself behaves in the same way. The other services may do as they like: end their
runs in any way and at any time, or never, be run again as often as they fail, and not heed that
they were told to end; nor does it matter which of them are removed. All that becomes of the service
is the same in both runs.

Results:

* `solo_of_run?`: what can be seen of a service in a run follows from what concerns it.
* `allowed_of_next?`: a service can make its next move, whatever the others have done.
* `eq_of_solo`: its conduct and the calls decide what concerns it.
* `services_undisturbed`: the runs of a service, how they end, and when it is told to end, do not
  depend on other services.
-/

namespace Wiretap.Supervision

/-! ## What a run shows of one service -/

/-- One event, as a service sees it. -/
structure Scene where
  time : Nat
  deed : Option Deed
  before : View
  after : View

/-- The event is nothing to the service, and nothing else can be seen of the service after it. -/
def Scene.isIdle (sc : Scene) : Bool := sc.deed.isNone && decide (sc.before = sc.after)

def Host.scene (policies : Nat → RestartPolicy) (n token c : Nat) (s : Host) (p : Nat × Event) :
    Scene where
  time := p.1
  deed := s.tree.deed? n token c p.2
  before := s.tree.view n token c
  after := ((s.serve? policies p).getD s).tree.view n token c

/-- What a run shows of the service `c` that the supervisor `n` knows by a token. -/
def scenes (policies : Nat → RestartPolicy) (n token c : Nat) (s : Host)
    (run : List (Nat × Event)) : List Scene :=
  history (Host.serve? policies)
    (fun s p => [s.scene policies n token c p].filter (!·.isIdle)) s run

/-- Scenes in which each deed changes what it changes by itself, and in which nothing else is
seen. -/
inductive Solo (policy : RestartPolicy) : View → List Scene → Prop where
  | nil {v : View} : Solo policy v []
  | cons {v : View} {x : Nat} {d : Deed} {rest : List Scene}
      (hrest : Solo policy (v.act policy x d) rest) :
      Solo policy v (⟨x, some d, v, v.act policy x d⟩ :: rest)

variable {policies : Nat → RestartPolicy} {s s' : Host} {run : List (Nat × Event)} {n c token : Nat}

theorem Names.before_run? (h : Names s' n token c)
    (hrun : run? (Host.serve? policies) s run = some s') : Names s n token c := by
  induction run generalizing s with
  | nil =>
    cases hrun
    exact h
  | cons p run ih =>
    rw [run?_cons] at hrun
    obtain ⟨s₁, hserve, hrun⟩ := Option.bind_eq_some_iff.mp hrun
    exact (ih hrun).before_serve? hserve

theorem next_of_serve? {p : Nat × Event} (hsound : Sound s) (hattends : Attends s)
    (h : s.serve? policies p = some s') : Sound s' ∧ Attends s' := by
  rcases acts_of_serve? h with hacts | rfl
  · exact ⟨hsound.next hacts, hattends.next hsound hacts⟩
  · exact ⟨hsound, hattends⟩

/-- **What can be seen of a service in a run follows from what concerns it.** -/
theorem solo_of_run? (hsound : Sound s) (hattends : Attends s) (hnames : Names s' n token c)
    (hrun : run? (Host.serve? policies) s run = some s') :
    Solo (policies n) (s.tree.view n token c) (scenes policies n token c s run) := by
  induction run generalizing s with
  | nil => exact .nil
  | cons p run ih =>
    obtain ⟨x, e⟩ := p
    rw [run?_cons] at hrun
    obtain ⟨s₁, hserve, hrun⟩ := Option.bind_eq_some_iff.mp hrun
    obtain ⟨hsound₁, hattends₁⟩ := next_of_serve? hsound hattends hserve
    have hrest := ih hsound₁ hattends₁ hrun
    have hview := view_of_serve? hsound hattends (hnames.before_run? hrun) hserve
    unfold scenes at *
    simp only [history, hserve]
    have hscene : s.scene policies n token c (x, e) =
        ⟨x, s.tree.deed? n token c e, s.tree.view n token c, s₁.tree.view n token c⟩ := by
      rw [Host.scene, hserve]
      rfl
    rw [hscene]
    cases hdeed : s.tree.deed? n token c e with
    | none =>
      -- nothing has changed, so the event is left out
      rw [hdeed] at hview
      simpa [Scene.isIdle, hview, View.after] using hrest
    | some d =>
      rw [hdeed] at hview
      rw [hview] at hrest ⊢
      exact .cons hrest

/-! ## What becomes of a service -/

/-- Something that becomes of a service. -/
inductive Notice where
  /-- It is run. -/
  | starts
  /-- A run ends. -/
  | ends (e : Exit)
  /-- It is told to end. -/
  | told
  /-- It is not run again. -/
  | retired
  deriving DecidableEq, Repr

/-- What became of a service so far, with the times. -/
abbrev Chronicle := List (Nat × Notice)

namespace View

def isRunning (v : View) : Bool :=
  v.service.any fun (life, _) => match life with
    | .running _ => true
    | _ => false

def isTold (v : View) : Bool := v.service.any (·.2)

def isOver (v : View) : Bool := v.service.any (·.1.isOver)

end View

namespace Scene

/-- It begins to be so. -/
def begins (sc : Scene) (what : View → Bool) : Bool := what sc.after && !what sc.before

def exit? (sc : Scene) : Option Exit :=
  match sc.deed with
  | some (.ends e) => some e
  | _ => none

def notices (sc : Scene) : Chronicle :=
  ((sc.exit?.map Notice.ends).toList ++
    (if sc.begins View.isRunning then [Notice.starts] else []) ++
    (if sc.begins View.isTold then [Notice.told] else []) ++
    (if sc.begins View.isOver then [Notice.retired] else [])).map fun notice => (sc.time, notice)

/-- The call that the scene shows. -/
def call? (sc : Scene) : Option (Nat × Deed) :=
  (sc.deed.filter Deed.isCall).map fun d => (sc.time, d)

end Scene

/-- When something became of the service last. -/
def lastTime (ch : Chronicle) : Nat := (ch.getLast?.map (·.1)).getD 0

def chronicle (scs : List Scene) : Chronicle := scs.flatMap Scene.notices

def calls (scs : List Scene) : List (Nat × Deed) := scs.filterMap Scene.call?

/-! ## How a service behaves -/

/-- How a service behaves. All that it can go by is what became of it so far. -/
structure Conduct where
  /-- When its run ends, and how, as things stand. A run may also go on for ever. -/
  ends : Chronicle → Option (Nat × Exit)
  /-- It is told to end in the moment in which its rest ends, and is run again. -/
  again : Chronicle → Bool
  /-- It moves before a call that removes it, or stops its supervisor, in the same moment. -/
  first : Chronicle → Bool

namespace Conduct

/-- The next move of the service, as things stand. -/
def next? (w : Conduct) (ch : Chronicle) (v : View) : Option (Nat × Deed) :=
  match v.service with
  | some (.running _, _) => (w.ends ch).map fun (x, e) => (x, .ends e)
  | some (.resting _ due, false) => some (due, .awakes)
  -- it has just been told
  | some (.resting _ due, true) =>
    some (lastTime ch, if w.again ch ∧ due ≤ lastTime ch then .resumes else .awakes)
  | _ => none

/-- A move that is due comes before a call. -/
def precedes (w : Conduct) (ch : Chronicle) (due : Nat) (call : Nat × Deed) : Bool :=
  decide (due < call.1) || decide (due = call.1) && w.first ch

/-- The service makes its moves when they are due, up to some time at which the scenes end. -/
def follows (w : Conduct) (horizon : Nat) : Chronicle → View → List Scene → Bool
  | ch, v, [] => (w.next? ch v).all fun (due, _) => decide (horizon < due)
  | ch, v, sc :: rest =>
    decide (sc.time ≤ horizon) &&
      (match sc.deed with
        | some d =>
          if d.isCall then (w.next? ch v).all fun (due, _) => !w.precedes ch due (sc.time, d)
          else decide (w.next? ch v = some (sc.time, d)) && (calls rest).all (w.precedes ch sc.time)
        | none => true) &&
      w.follows horizon (ch ++ sc.notices) sc.after rest

end Conduct

/-- **Nobody can hold up a service**: whatever has happened to the others, the next move of a leaf
is one that it can make. -/
theorem allowed_of_next? {w : Conduct} {ch : Chronicle} {k : Child} {x : Nat} {d : Deed}
    (hk : s.tree.child? c = some k) (hwork : k.work = .leaf)
    (hnext : w.next? ch (s.tree.view n token c) = some (x, d)) :
    ∃ e, s.tree.deed? n token c e = some d ∧ (s.serve? policies (x, e)).isSome = true := by
  have hsuits (m : Tree.Move) :
      Event.suits policies s.tree x (.move (policies k.parent) x c m) = true := by
    simp [Event.suits, hk]
  have hchild : (s.tree.under (policies k.parent)).child? c = some k := hk
  cases hlife : k.life with
  | running failures =>
    rw [Conduct.next?, Tree.service_view hk (by rw [hlife]; rfl), hlife] at hnext
    obtain ⟨⟨x', exit⟩, -, heq⟩ := Option.map_eq_some_iff.mp hnext
    cases heq
    refine ⟨.move (policies k.parent) x c (.ended exit), if_pos rfl, ?_⟩
    simp [Host.serve?, hsuits, Host.act?, Tree.step?, hchild, hwork, hlife]
  | resting failures due =>
    have hcancelled : (s.tree.under (policies k.parent)).isCancelled k = s.tree.isCancelled k := rfl
    rw [Conduct.next?, Tree.service_view hk (by rw [hlife]; rfl), hlife] at hnext
    cases htold : s.tree.isCancelled k with
    | false =>
      rw [htold] at hnext
      cases hnext
      refine ⟨.move (policies k.parent) x c .awake, if_pos rfl, ?_⟩
      simp [Host.serve?, hsuits, Host.act?, Tree.step?, hchild, hlife, Life.awake?, hcancelled,
        htold]
    | true =>
      rw [htold] at hnext
      obtain ⟨rfl, rfl⟩ := Prod.mk.inj (Option.some.inj hnext)
      split
      next hagain =>
        refine ⟨.resume (lastTime ch) c, if_pos rfl, ?_⟩
        simp [Host.serve?, Event.suits, Host.act?, hk, hlife, hagain.2]
      next =>
        refine ⟨.move (policies k.parent) (lastTime ch) c .awake, if_pos rfl, ?_⟩
        simp [Host.serve?, hsuits, Host.act?, Tree.step?, hchild, hlife, Life.awake?, hcancelled,
          htold]
  | finished =>
    have hservice : (s.tree.view n token c).service = some (.finished, false) := by
      simp [Tree.view, Tree.life?, Tree.service?, hk, hlife, Life.isOver]
    rw [Conduct.next?, hservice] at hnext
    cases hnext

section Lockstep

variable {policy : RestartPolicy} {v v' : View} {w : Conduct} {horizon x y : Nat} {ch : Chronicle}
  {a b rest : List Scene} {d d' : Deed}

theorem calls_cons (x : Nat) (d : Deed) (v v' : View) (rest : List Scene) :
    calls (⟨x, some d, v, v'⟩ :: rest) = if d.isCall then (x, d) :: calls rest else calls rest := by
  unfold calls
  rw [List.filterMap_cons, Scene.call?, Option.filter_some]
  cases d.isCall <;> rfl

/-- What comes next: a call that no move comes before, or the move that comes before all calls. -/
inductive Conduct.Next (w : Conduct) (ch : Chronicle) (v : View) (x : Nat) (d : Deed)
    (rest : List Scene) : Prop where
  | call (hcall : d.isCall = true)
      (hnext : ∀ due m, w.next? ch v = some (due, m) → w.precedes ch due (x, d) = false)
  | move (hmove : ¬ d.isCall = true) (hnext : w.next? ch v = some (x, d))
      (hcalls : ∀ call ∈ calls rest, w.precedes ch x call = true)

theorem Conduct.follows_cons (h : w.follows horizon ch v (⟨x, some d, v, v'⟩ :: rest) = true) :
    x ≤ horizon ∧ w.Next ch v x d rest ∧
      ∃ ch', ch' = ch ++ Scene.notices ⟨x, some d, v, v'⟩ ∧
        w.follows horizon ch' v' rest = true := by
  simp only [follows, Bool.and_eq_true, decide_eq_true_eq] at h
  obtain ⟨⟨hle, hnext⟩, hrest⟩ := h
  refine ⟨hle, ?_, _, rfl, hrest⟩
  split at hnext
  next hcall =>
    refine .call hcall fun due m hdue => ?_
    rw [hdue] at hnext
    simpa using hnext
  next hmove =>
    simp only [Bool.and_eq_true, decide_eq_true_eq, List.all_eq_true] at hnext
    exact .move hmove hnext.1 hnext.2

/-- Where no call is made any more, the next move comes too late, or else it is made. -/
theorem Conduct.not_ended (hnil : w.follows horizon ch v [] = true)
    (hcons : w.follows horizon ch v (⟨x, some d, v, v'⟩ :: rest) = true)
    (hcalls : calls (⟨x, some d, v, v'⟩ :: rest) = []) : False := by
  obtain ⟨hle, hnext, -⟩ := follows_cons hcons
  rw [calls_cons] at hcalls
  cases hnext with
  | call hcall =>
    rw [if_pos hcall] at hcalls
    cases hcalls
  | move _ hnext =>
    rw [follows, hnext] at hnil
    exact Nat.not_lt.mpr hle (of_decide_eq_true hnil)

/-- What comes next is the same wherever the same calls are made. -/
theorem Conduct.Next.eq {rest' : List Scene} (h : w.Next ch v x d rest)
    (h' : w.Next ch v y d' rest')
    (hcalls : (if d.isCall then (x, d) :: calls rest else calls rest) =
      if d'.isCall then (y, d') :: calls rest' else calls rest') :
    (x, d) = (y, d') ∧ calls rest = calls rest' := by
  cases h with
  | call hcall hlast =>
    rw [if_pos hcall] at hcalls
    cases h' with
    | call hcall' =>
      rw [if_pos hcall'] at hcalls
      exact List.cons.inj hcalls
    | move hmove hnext hfirst =>
      rw [if_neg hmove] at hcalls
      cases (hlast y d' hnext).symm.trans (hfirst _ (hcalls ▸ List.mem_cons_self))
  | move hmove hnext hfirst =>
    rw [if_neg hmove] at hcalls
    cases h' with
    | call hcall hlast =>
      rw [if_pos hcall] at hcalls
      cases (hlast x d hnext).symm.trans (hfirst _ (hcalls ▸ List.mem_cons_self))
    | move hmove' hnext' =>
      rw [if_neg hmove'] at hcalls
      exact ⟨Option.some.inj (hnext.symm.trans hnext'), hcalls⟩

/-- **Its conduct and the calls decide what concerns a service.** -/
theorem eq_of_solo (ha : Solo policy v a) (hb : Solo policy v b)
    (hfa : w.follows horizon ch v a = true) (hfb : w.follows horizon ch v b = true)
    (hcalls : calls a = calls b) : a = b := by
  -- the scenes so far are the same, and so are the chronicle and what is seen now
  induction ha generalizing b ch with
  | nil =>
    cases hb with
    | nil => rfl
    | cons => exact (Conduct.not_ended hfa hfb hcalls.symm).elim
  | cons _ ih =>
    cases hb with
    | nil => exact (Conduct.not_ended hfb hfa hcalls).elim
    | cons hb =>
      obtain ⟨-, hnext, ch', hch, hfa⟩ := Conduct.follows_cons hfa
      obtain ⟨-, hnext', ch'', hch', hfb⟩ := Conduct.follows_cons hfb
      rw [calls_cons, calls_cons] at hcalls
      obtain ⟨heq, hrest⟩ := hnext.eq hnext' hcalls
      cases heq
      cases hch.trans hch'.symm
      rw [ih hb hfa hfb hrest]

end Lockstep

/-! ## Two runs -/

theorem sound_of_served {policy : RestartPolicy}
    (h : run? (Host.serve? policies) { tree := .root policy } run = some s) :
    Sound s ∧ Attends s :=
  run?_invariant (motive := fun _ s => Sound s ∧ Attends s) ⟨.root policy, attends_root policy⟩
    (fun _ hboth hserve => next_of_serve? hboth.1 hboth.2 hserve) h

theorem Sound.names (h : Sound s) {k : Child} (hk : s.tree.child? c = some k) :
    Names s k.parent k.token c where
  iff hk' := by
    constructor
    · rintro ⟨hparent, htoken⟩
      exact h.token_inj hk' (Tree.service?_of_child? hk) hparent htoken
    · rintro rfl
      cases hk'.symm.trans (Tree.service?_of_child? hk)
      exact ⟨rfl, rfl⟩

/-- A run of a tree of supervisors, watched from one service up to some time. Of the calls on the
supervisor only those count that add the service or one before it, remove it, or stop the
supervisor. -/
structure Execution (w : Conduct) (policy : RestartPolicy) (token : Nat)
    (made : List (Nat × Deed)) (horizon : Nat) where
  /-- The policy of each supervisor. -/
  policies : Nat → RestartPolicy
  events : List (Nat × Event)
  host : Host
  run_eq : run? (Host.serve? policies) { tree := .root {} } events = some host
  /-- The number of the service. -/
  number : Nat
  service : Child
  service_eq : host.tree.child? number = some service
  token_eq : service.token = token
  policy_eq : policies service.parent = policy
  calls_eq : calls (scenes policies service.parent token number { tree := .root {} } events) = made
  follows : w.follows horizon [] { ahead := token + 1 }
    (scenes policies service.parent token number { tree := .root {} } events) = true

namespace Execution

variable {w : Conduct} {policy : RestartPolicy} {made : List (Nat × Deed)} {horizon : Nat}

def scenes (ex : Execution w policy token made horizon) : List Scene :=
  Supervision.scenes ex.policies ex.service.parent token ex.number { tree := .root {} } ex.events

/-- What became of the service. -/
def chronicle (ex : Execution w policy token made horizon) : Chronicle :=
  Supervision.chronicle ex.scenes

theorem solo (ex : Execution w policy token made horizon) :
    Solo policy { ahead := token + 1 } ex.scenes := by
  obtain ⟨hsound, -⟩ := sound_of_served ex.run_eq
  have hnames := hsound.names ex.service_eq
  have hsolo := solo_of_run? (.root {}) (attends_root {}) hnames ex.run_eq
  have hview : (Tree.root {}).view ex.service.parent token ex.number = { ahead := token + 1 } := by
    cases ex.service.parent <;> rfl
  rw [ex.token_eq, ex.policy_eq, hview] at hsolo
  exact hsolo

end Execution

/-- **Services do not disturb one another.** In two runs in which the same calls are made on the
supervisor of a service, and in which the service behaves in the same way, it is run at the same
times, its runs end in the same ways at the same times, and it is told to end at the same time,
whatever the other services do. -/
theorem services_undisturbed {w : Conduct} {policy : RestartPolicy} {token : Nat}
    {made : List (Nat × Deed)} {horizon : Nat} (a b : Execution w policy token made horizon) :
    a.chronicle = b.chronicle := by
  have hcalls : calls a.scenes = calls b.scenes := a.calls_eq.trans b.calls_eq.symm
  have hscenes : a.scenes = b.scenes := eq_of_solo a.solo b.solo a.follows b.follows hcalls
  unfold Execution.chronicle
  rw [hscenes]

/-- A service whose first run fails after 10, and which stops 5 after it was told to. -/
def Conduct.stumbling : Conduct where
  ends
    | [(x, .starts)] => some (x + 10, .failed "panicked: boom")
    | ch =>
      match ch.getLast? with
      | some (x, .told) => some (x + 5, .stopped)
      | _ => none
  again _ := false
  first _ := true

/-- Beside such a service, another one is done at once in one run. In another run it panics, is run
again, does not heed that it is removed, and panics again. -/
theorem services_undisturbed_by_panics :
    ∃ a b : Execution .stumbling {} 1 [(0, .add), (0, .add), (3000, .stop)] 4000,
    chronicle (scenes a.policies 0 0 0 { tree := .root {} } a.events) =
      [(0, .starts), (20, .ends .complete), (20, .retired)] ∧
    chronicle (scenes b.policies 0 0 0 { tree := .root {} } b.events) =
      [(0, .starts), (5, .ends (.failed "panicked")), (1005, .starts), (1500, .told),
        (3500, .ends (.failed "panicked")), (3500, .retired)] ∧
    b.chronicle = [(0, .starts), (10, .ends (.failed "panicked: boom")), (1010, .starts),
      (3000, .told), (3005, .ends .stopped), (3005, .retired)] ∧
    a.chronicle = b.chronicle := by
  let a : Execution .stumbling {} 1 [(0, .add), (0, .add), (3000, .stop)] 4000 :=
    { policies := fun _ => {}
      events := [(0, .add 0 .leaf), (0, .add 0 .leaf),
        (10, .move {} 10 1 (.ended (.failed "panicked: boom"))),
        (20, .move {} 20 0 (.ended .complete)), (1010, .move {} 1010 1 .awake), (1500, .remove 0 0),
        (3000, .stop 0), (3005, .move {} 3005 1 (.ended .stopped))]
      host := _, run_eq := rfl, number := 1, service := _, service_eq := rfl, token_eq := rfl
      policy_eq := rfl, calls_eq := by decide +kernel, follows := by decide +kernel }
  let b : Execution .stumbling {} 1 [(0, .add), (0, .add), (3000, .stop)] 4000 :=
    { policies := fun _ => {}
      events := [(0, .add 0 .leaf), (0, .add 0 .leaf),
        (5, .move {} 5 0 (.ended (.failed "panicked"))),
        (10, .move {} 10 1 (.ended (.failed "panicked: boom"))),
        (1005, .move {} 1005 0 .awake), (1010, .move {} 1010 1 .awake), (1500, .remove 0 0),
        (3000, .stop 0), (3005, .move {} 3005 1 (.ended .stopped)),
        (3500, .move {} 3500 0 (.ended (.failed "panicked")))]
      host := _, run_eq := rfl, number := 1, service := _, service_eq := rfl, token_eq := rfl
      policy_eq := rfl, calls_eq := by decide +kernel, follows := by decide +kernel }
  exact ⟨a, b, by decide +kernel, by decide +kernel, by decide +kernel, services_undisturbed a b⟩

end Wiretap.Supervision
