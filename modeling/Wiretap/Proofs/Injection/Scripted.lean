import Wiretap.Proofs.Injection.Course

/-!
# Bringing up agents by a script

A scripted remote is a world of its own: it makes the calls, keeps them, and lets the time pass
between them. What it brings up follows the course that its script sets.

Results:

* `World.waitUntil_spec`: a world that comes closer to its end with every move gets there.
* `plays_move`, `still_of_plays`: what a move and a rest make of a process that is brought up.
* `Bringing.run_course`: the calls that are kept, the time and the result are those of the course.
-/

namespace Wiretap.Scenario

/-! ## Worlds that come to an end -/

namespace World

variable {σ : Type} {w : World σ} {done : σ → Bool} {left : σ → Nat} {motive : Nat → σ → Prop}

theorem settleIn_of_move {now fuel : Nat} {s s' : σ} (h : w.move? now s = some s') :
    w.settleIn now (fuel + 1) s = w.settleIn now fuel s' := by
  rw [settleIn, h]

theorem settleIn_spec {now : Nat}
    (hmove : ∀ s s', motive now s → w.move? now s = some s' → motive now s' ∧ left s' < left s)
    {fuel : Nat} {s : σ} (hfuel : left s ≤ fuel) (hs : motive now s) :
    motive now (w.settleIn now fuel s) ∧ w.move? now (w.settleIn now fuel s) = none ∧
      left (w.settleIn now fuel s) ≤ left s := by
  induction fuel generalizing s with
  | zero =>
    refine ⟨hs, ?_, Nat.le_refl _⟩
    cases hnext : w.move? now s with
    | none => exact hnext
    | some s' => exact absurd (hmove s s' hs hnext).2 (by omega)
  | succ fuel ih =>
    cases hnext : w.move? now s with
    | none =>
      rw [settleIn_of_still hnext]
      exact ⟨hs, hnext, Nat.le_refl _⟩
    | some s' =>
      obtain ⟨hs', hless⟩ := hmove s s' hs hnext
      obtain ⟨hmotive, hstill, hle⟩ := ih (s := s') (by omega) hs'
      rw [settleIn_of_move hnext]
      exact ⟨hmotive, hstill, by omega⟩

/-- A world settles closer to its end if it can move at all. -/
theorem settle_spec {now : Nat}
    (hmove : ∀ s s', motive now s → w.move? now s = some s' → motive now s' ∧ left s' < left s)
    {s s' : σ} (hleft : left s ≤ patience) (hs : motive now s) (hnext : w.move? now s = some s') :
    motive now (w.settle now s) ∧ w.move? now (w.settle now s) = none ∧
      left (w.settle now s) < left s := by
  obtain ⟨hs', hless⟩ := hmove s s' hs hnext
  obtain ⟨n, hn⟩ : ∃ n, patience = n + 1 := ⟨patience - 1, rfl⟩
  rw [settle, hn, settleIn_of_move hnext]
  obtain ⟨hmotive, hstill, hle⟩ := settleIn_spec hmove (by omega : left s' ≤ n) hs'
  exact ⟨hmotive, hstill, by omega⟩

/-- Where every move leads closer to the end, and a world that stands still is done or moves on at
its next alarm, it is done after a while. -/
theorem waitUntil_spec
    (hmove : ∀ now s s', motive now s → w.move? now s = some s' → motive now s' ∧ left s' < left s)
    (hstill : ∀ now s, motive now s → w.move? now s = none → done s = true ∨
      ∃ alarm s', w.alarm? now s = some alarm ∧ now < alarm ∧ motive alarm s ∧
        w.move? alarm s = some s')
    {now : Nat} {s s' : σ} (hleft : left s ≤ patience) (hs : motive now s)
    (hnext : w.move? now s = some s') :
    ∃ t x, w.waitUntil now done s = (t, x) ∧ motive t x ∧ done x = true := by
  unfold waitUntil
  suffices hfuel : ∀ fuel, left s ≤ fuel → ∃ t x, w.passIn none done fuel now s = (t, x) ∧
      motive t x ∧ done x = true from hfuel patience hleft
  intro fuel hfuel
  induction fuel generalizing now s s' with
  | zero => exact absurd (hmove now s s' hs hnext).2 (by omega)
  | succ fuel ih =>
    obtain ⟨hsettled, hquiet, hless⟩ := settle_spec (hmove now) hleft hs hnext
    rw [passIn]
    cases hdone : done (w.settle now s) with
    | true => exact ⟨now, _, by simp, hsettled, hdone⟩
    | false =>
      obtain htrue | ⟨alarm, s₁, halarm, hlater, hmotive, hnext'⟩ := hstill now _ hsettled hquiet
      · rw [hdone] at htrue
        cases htrue
      · have htime : max alarm (now + 1) = alarm := Nat.max_eq_left hlater
        simpa [hdone, halarm, htime] using ih (by omega) hmotive hnext' (by omega)

end World

/-! ## What a script sets -/

/-- Whether this call tries to open a channel. -/
def Call.isDial : Call → Bool
  | .dial .. => true
  | .inject .. => false

namespace Remote

/-- How often the channel of a process was dialed. -/
def dials (r : Remote) (pid : UInt32) : Nat := (r.dialed.lookup pid).getD 0

/-- What a call meets that brings up the agent in a process: all but the attempts to open the
channel is answered at once. -/
def outside (r : Remote) (hook : HookConfig) (pid : UInt32) : Injection.Outside where
  looking := 0
  payload := lookUp hook.payloadPath
  loading := 0
  injection := (r.host pid).injection
  dials k :=
    let script := (r.host pid).dials
    script[r.dials pid + k]?.getD (script.getLast?.getD {})

/-- A remote after some calls for a process: it keeps them, and their attempts are counted. -/
structure After (r : Remote) (pid : UInt32) (made : List Call) (r' : Remote) : Prop where
  host_eq : ∀ p, r'.host p = r.host p
  calls_eq : r'.calls = made.reverse ++ r.calls
  dials_eq : r'.dials pid = r.dials pid + made.countP Call.isDial
  others : ∀ p, p ≠ pid → r'.dials p = r.dials p

variable {r r' : Remote} {hook : HookConfig} {pid : UInt32} {made : List Call}

theorem after_nil (r : Remote) (pid : UInt32) : r.After pid [] r where
  host_eq _ := rfl
  calls_eq := rfl
  dials_eq := rfl
  others _ _ := rfl

theorem After.injects (h : r.After pid made r') (now : Nat) (path : String) :
    r.After pid (made ++ [.inject now pid path])
      { r' with calls := .inject now pid path :: r'.calls } where
  host_eq := h.host_eq
  calls_eq := by simp [h.calls_eq]
  dials_eq := by
    rw [List.countP_append]
    exact h.dials_eq
  others := h.others

theorem After.dialed (h : r.After pid made r') (now : Nat) (name : String) (timeout : Nat) :
    r.After pid (made ++ [.dial now name timeout]) (r'.dial now pid name timeout).1 where
  host_eq := h.host_eq
  calls_eq := by simp [Remote.dial, h.calls_eq]
  dials_eq := by
    have := h.dials_eq
    simp only [Remote.dials] at this
    simp [Remote.dials, Remote.dial, this, Call.isDial]
    omega
  others p hp := by
    have := h.others p hp
    simp only [Remote.dials] at this ⊢
    simpa [Remote.dial, List.lookup_cons, beq_false_of_ne hp, lookup_without, Ne.symm hp] using this

/-- The attempt that begins comes to what the script says of it. -/
theorem After.outcome (h : r.After pid made r') (hook : HookConfig) (now : Nat) (name : String)
    (timeout : Nat) :
    (r'.dial now pid name timeout).2 = (r.outside hook pid).dials (made.countP Call.isDial) := by
  have hdials := h.dials_eq
  simp only [Remote.dials] at hdials
  simp only [Remote.dial, Remote.outside, Remote.dials, h.host_eq, hdials]

/-- The loading of the payload ends as the script says. -/
theorem After.answer?_injecting (h : r.After pid made r') (now : Nat) :
    (r.outside hook pid).answer? now .injecting =
      some (now, .injected (r'.host pid).injection) := by
  rw [h.host_eq]
  rfl

end Remote

/-! ## A process that is brought up by a script -/

open Injection

namespace Bringing

variable {hook : HookConfig} {pid : UInt32} {r : Remote} {asked now : Nat} {b b' : Bringing}

/-- The call that is to be made, but was not made yet. -/
def pending (now : Nat) (b : Bringing) : List Call :=
  if b.dialing.isNone then (b.job.call? now).toList else []

/-- Whether the call that came so far can still get its answer in time. -/
def InTime (o : Outside) (now : Nat) (bid : Bid) : Remote.Dialing → Prop
  | some (due, f) => o.answer? bid.since bid.state.phase = some (due, .dialed f) ∧ now ≤ due
  | none =>
    match bid.state.phase with
    | .resting _ _ due => now ≤ due
    | _ => now = bid.since

/-- A script plays the course of a call. -/
def Plays (hook : HookConfig) (pid : UInt32) (r : Remote) (asked now : Nat) (b : Bringing) : Prop :=
  ∃ bid made, Reached hook pid (r.outside hook pid) asked bid ∧ b.job = bid.state ∧
    r.After pid made b.remote ∧ made ++ b.pending now = bid.made ∧
    InTime (r.outside hook pid) now bid b.dialing

/-- The most moves that are left. -/
def left (hook : HookConfig) (b : Bringing) : Nat :=
  2 * b.job.phase.left hook + if b.dialing.isNone then 1 else 0

theorem since_le_due {o : Outside} {bid : Bid} (h : Reached hook pid o asked bid) {owner : Bool}
    {attempt due : Nat} (hphase : bid.state.phase = .resting owner attempt due) :
    bid.since ≤ due := by
  cases h with
  | checking | injecting | dialing | done => cases hphase
  | resting =>
    cases hphase
    exact Nat.le_add_right _ _

theorem inTime_none {o : Outside} {bid : Bid} (h : Reached hook pid o asked bid) :
    InTime o bid.since bid none := by
  show match bid.state.phase with | .resting _ _ due => bid.since ≤ due | _ => bid.since = bid.since
  split
  next hphase => exact since_le_due h hphase
  next => rfl

/-- The answer for which the call waits takes it to its next phase. -/
theorem plays_answered {bid : Bid} {m : Move} {remote remote' : Remote} {dialing : Remote.Dialing}
    (h : Reached hook pid (r.outside hook pid) asked bid) (hafter : r.After pid bid.made remote')
    (hanswer : (r.outside hook pid).answer? bid.since bid.state.phase = some (now, m))
    (hremote : remote.answer? now bid.state dialing = some (remote', none, some m))
    (hmove : move? now ⟨remote, bid.state, dialing⟩ = some b') :
    Plays hook pid r asked now b' ∧ b'.left hook < left hook ⟨remote, bid.state, dialing⟩ := by
  obtain ⟨job, hstep, rfl⟩ : ∃ job, bid.state.step? now m = some job ∧
      { remote := remote', job } = b' := by
    simpa [move?, hremote] using hmove
  have hgo : bid.go? (r.outside hook pid) =
      some ⟨now, job, bid.made ++ (job.call? now).toList⟩ := by
    simp [Bid.go?, hanswer, hstep]
  obtain ⟨hreached, hless⟩ := reached_go h hgo
  refine ⟨⟨_, bid.made, hreached, rfl, hafter, rfl, inTime_none hreached⟩, ?_⟩
  simp only [left, Option.isNone_none, if_true]
  simp only at hless
  omega

theorem plays_start (hook : HookConfig) (pid : UInt32) (r : Remote) (now : Nat) :
    Plays hook pid r now now { remote := r, job := Injection.start hook pid } :=
  ⟨Bid.begin hook pid now, [], reached_begin, rfl, r.after_nil pid, rfl, rfl⟩

/-- A call that has tried the channel `k` times. -/
theorem countP_made (o : Outside) (k : Nat) :
    (injectCall hook pid o asked :: dialCalls hook pid o asked k).countP Call.isDial = k := by
  have hall : ∀ call ∈ dialCalls hook pid o asked k, call.isDial = true := by
    intro call hcall
    obtain ⟨i, -, rfl⟩ := List.mem_map.mp hcall
    rfl
  rw [List.countP_cons_of_neg (by simp [injectCall, Call.isDial]), List.countP_eq_length.mpr hall,
    dialCalls, List.length_map, List.length_range]

/-- The call that tries the channel is made. -/
theorem plays_dialed {made : List Call} {owner : Bool} {k : Nat} {remote : Remote}
    (hreached : Reached hook pid (r.outside hook pid) asked
      ⟨now, within hook pid (.dialing owner (k + 1)),
        injectCall hook pid (r.outside hook pid) asked ::
          dialCalls hook pid (r.outside hook pid) asked (k + 1)⟩)
    (hafter : r.After pid made remote)
    (hmade : made ++ [.dial now (hook.channelName pid) hook.dialTimeout.toNat] =
      injectCall hook pid (r.outside hook pid) asked ::
        dialCalls hook pid (r.outside hook pid) asked (k + 1))
    (hmove : move? now ⟨remote, within hook pid (.dialing owner (k + 1)), none⟩ = some b') :
    Plays hook pid r asked now b' ∧
      b'.left hook < left hook ⟨remote, within hook pid (.dialing owner (k + 1)), none⟩ := by
  have hcount : made.countP Call.isDial = k := by
    have hall := congrArg (List.countP Call.isDial) hmade
    rw [countP_made, List.countP_append] at hall
    exact Nat.add_right_cancel hall
  have houtcome := hafter.outcome hook now (hook.channelName pid) hook.dialTimeout.toNat
  rw [hcount] at houtcome
  cases hmove
  refine ⟨⟨_, _, hreached, rfl, hafter.dialed now _ _, ?_, ?_, Nat.le_add_right _ _⟩,
    by simp [left]⟩
  · rw [← hmade]
    exact List.append_nil _
  · exact congrArg (fun dial : Dial => some (now + dial.delay, Move.dialed dial.fault))
      houtcome.symm

theorem le_of_move_dialing {owner : Bool} {attempt due : Nat} {f : Option Fault} {remote : Remote}
    (h : move? now ⟨remote, within hook pid (.dialing owner attempt), some (due, f)⟩ = some b') :
    due ≤ now := by
  by_contra hlater
  simp [move?, Remote.answer?, within, hlater] at h

theorem le_of_move_resting {owner : Bool} {attempt due : Nat} {remote : Remote}
    (h : move? now ⟨remote, within hook pid (.resting owner attempt due), none⟩ = some b') :
    due ≤ now := by
  by_contra hlater
  simp [move?, Remote.answer?, within, hlater] at h

theorem plays_move (h : Plays hook pid r asked now b) (hmove : b.move? now = some b') :
    Plays hook pid r asked now b' ∧ b'.left hook < b.left hook := by
  obtain ⟨bid, made, hreached, hjob, hafter, hmade, htime⟩ := h
  obtain ⟨remote, job, dialing⟩ := b
  subst hjob
  cases dialing with
  | some p =>
    obtain ⟨due, f⟩ := p
    obtain rfl : made = bid.made := by simpa [pending] using hmade
    obtain ⟨hanswer, hnow⟩ := htime
    cases hreached with
    | checking | injecting | resting | done => cases hanswer
    | dialing hpayload howns hk hfail =>
      obtain ⟨rfl, rfl⟩ : _ = due ∧ _ = f := by simpa [Outside.answer?, within] using hanswer
      have hdue := le_of_move_dialing hmove
      obtain rfl := Nat.le_antisymm hnow hdue
      exact plays_answered (.dialing hpayload howns hk hfail) hafter rfl (if_pos hdue) hmove
  | none =>
    cases hreached with
    | checking =>
      obtain rfl : now = asked := htime
      obtain rfl : made = [] := by simpa [pending, State.call?, within] using hmade
      exact plays_answered .checking hafter rfl rfl hmove
    | injecting hpayload =>
      obtain rfl : now = asked := htime
      have hpending : made ++ [injectCall hook pid (r.outside hook pid) now] = [] ++ [_] := hmade
      obtain rfl := List.append_cancel_right hpending
      exact plays_answered (.injecting hpayload) (hafter.injects now hook.payloadPath)
        (hafter.answer?_injecting now) rfl hmove
    | dialing hpayload howns hk hfail =>
      obtain rfl : now = begins hook _ asked _ := htime
      exact plays_dialed (.dialing hpayload howns hk hfail) hafter hmade hmove
    | resting hpayload howns hk hfail =>
      obtain rfl : made = _ := by simpa [pending, State.call?, within] using hmade
      have hdue := le_of_move_resting hmove
      obtain rfl := Nat.le_antisymm (show now ≤ _ from htime) hdue
      exact plays_answered (.resting hpayload howns hk hfail) hafter rfl (if_pos hdue) hmove
    | done => cases hmove

/-- The answer for which a call waits can be given. -/
theorem exists_move_of_answer {bid : Bid} {m : Move} {remote remote' : Remote}
    {dialing : Remote.Dialing} (h : Reached hook pid (r.outside hook pid) asked bid)
    (hanswer : (r.outside hook pid).answer? bid.since bid.state.phase = some (now, m))
    (hremote : remote.answer? now bid.state dialing = some (remote', none, some m)) :
    ∃ b', move? now ⟨remote, bid.state, dialing⟩ = some b' := by
  obtain ⟨r, hdone⟩ | ⟨bid', hgo, -⟩ := done_or_advances h
  · rw [hdone] at hanswer
    cases hanswer
  · simp only [Bid.go?, hanswer, Option.bind_eq_bind, Option.bind_some] at hgo
    obtain ⟨job, hstep, -⟩ := Option.bind_eq_some_iff.mp hgo
    exact ⟨{ remote := remote', job }, by simp [move?, hremote, hstep]⟩

/-- Where a process stands that cannot go on now: it is brought up, or it waits for a timer. -/
def Rests (hook : HookConfig) (pid : UInt32) (r : Remote) (asked now : Nat) (b : Bringing) : Prop :=
  b.result?.isSome = true ∨ ∃ alarm b', world.alarm? now b = some alarm ∧ now < alarm ∧
    Plays hook pid r asked alarm b ∧ b.move? alarm = some b'

theorem rests_of_timer {due : Nat} (hnow : now ≤ due) (hstill : b.move? now = none)
    (hmove : b.move? due = some b') (halarms : Remote.alarms b.job b.dialing = [due])
    (hplays : Plays hook pid r asked due b) : Rests hook pid r asked now b := by
  have hlater : now < due := by
    apply Nat.lt_of_le_of_ne hnow
    rintro rfl
    rw [hmove] at hstill
    cases hstill
  exact .inr ⟨due, b', by simp [world, halarms, hlater], hlater, hplays, hmove⟩

theorem rests_of_plays (h : Plays hook pid r asked now b) (hstill : b.move? now = none) :
    Rests hook pid r asked now b := by
  obtain ⟨bid, made, hreached, hjob, hafter, hmade, htime⟩ := h
  obtain ⟨remote, job, dialing⟩ := b
  subst hjob
  cases dialing with
  | some p =>
    obtain ⟨due, f⟩ := p
    obtain ⟨hanswer, hnow⟩ := htime
    have hplays : Plays hook pid r asked due ⟨remote, bid.state, some (due, f)⟩ :=
      ⟨bid, made, hreached, rfl, hafter, hmade, hanswer, Nat.le_refl due⟩
    cases hreached with
    | checking | injecting | resting | done => cases hanswer
    | dialing hpayload howns hk hfail =>
      have hgoes : ∃ b', move? due ⟨remote, _, some (due, f)⟩ = some b' :=
        exists_move_of_answer (.dialing hpayload howns hk hfail) hanswer (if_pos (Nat.le_refl due))
      obtain ⟨b', hmove⟩ := hgoes
      exact rests_of_timer hnow hstill hmove rfl hplays
  | none =>
    cases hreached with
    | checking =>
      obtain rfl : now = asked := htime
      have hreached : Reached hook pid (r.outside hook pid) now _ := .checking
      obtain ⟨b', hmove⟩ := exists_move_of_answer hreached rfl rfl
      exact absurd (hmove.symm.trans hstill) (by simp)
    | injecting hpayload =>
      obtain rfl : now = asked := htime
      obtain ⟨b', hmove⟩ :=
        exists_move_of_answer (.injecting hpayload) (hafter.answer?_injecting now) rfl
      exact absurd (hmove.symm.trans hstill) (by simp)
    | dialing => cases hstill
    | resting hpayload howns hk hfail =>
      have hreached : Reached hook pid (r.outside hook pid) asked _ :=
        .resting hpayload howns hk hfail
      have hgoes : ∃ b', move? (begins hook _ asked _) ⟨remote, _, none⟩ = some b' :=
        exists_move_of_answer hreached rfl (if_pos (Nat.le_refl _))
      obtain ⟨b', hmove⟩ := hgoes
      exact rests_of_timer htime hstill hmove rfl
        ⟨_, made, hreached, rfl, hafter, hmade, Nat.le_refl _⟩
    | done => exact .inl rfl

/-! ## The result -/

theorem attempts_le (hook : HookConfig) : attempts hook ≤ 4294967296 := by
  have := hook.dialAttempts.toNat_lt
  unfold attempts
  omega

/-- What the script of a process brings up has the course that the script sets, whatever the remote
was asked for before. -/
theorem run_course (hook : HookConfig) (now : Nat) (r : Remote) (pid : UInt32) :
    ∃ t r' result made, run hook now r pid = (t, r', some result) ∧
      Course hook pid (r.outside hook pid) now made t result ∧ r.After pid made r' := by
  have hleft : left hook { remote := r, job := Injection.start hook pid } ≤ World.patience := by
    have := attempts_le hook
    show 2 * (2 * attempts hook + 1) + 1 ≤ 1099511627776
    omega
  have hbegins : Reached hook pid (r.outside hook pid) now _ := reached_begin
  obtain ⟨b', hmove⟩ := exists_move_of_answer hbegins rfl rfl
  obtain ⟨t, b, hrun, ⟨bid, made, hreached, hjob, hafter, hmade, htime⟩, hdone⟩ :
      ∃ t b, world.waitUntil now (·.result?.isSome) ⟨r, Injection.start hook pid, none⟩ = (t, b) ∧
        Plays hook pid r now t b ∧ b.result?.isSome = true :=
    World.waitUntil_spec (fun _ _ _ => plays_move) (fun _ _ => rests_of_plays) hleft
      (plays_start hook pid r now) hmove
  obtain ⟨remote, job, dialing⟩ := b
  subst hjob
  cases hreached with
  | checking | injecting | dialing | resting => cases hdone
  | @done made' t' result hcourse =>
    cases dialing with
    | some p => cases htime.1
    | none =>
      obtain rfl : t = t' := htime
      obtain rfl : made = made' := by simpa [pending, State.call?, within] using hmade
      refine ⟨t, remote, result, made, ?_, hcourse, hafter⟩
      simp only [run, hrun]
      rfl

end Bringing
end Wiretap.Scenario
