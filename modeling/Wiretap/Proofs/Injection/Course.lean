import Wiretap.Injection
import Wiretap.Proofs.Run
import Wiretap.Scenario.Remote

/-!
# The course of bringing up an agent

An injector is asked for agents, one process after the other, and each call waits for the answers
of what it meets outside: the look at the payload, the loading, and the attempts to open the
channel. What a call does depends on its own answers alone, however the calls are interleaved.

Results:

* `reached_go`: what the next answer makes of a call that stands on its course.
* `exists_goes_done`: a call is over after a bounded number of answers.
* `stand_of_run?`: in a run of an injector every call stands on its own course.
* `calls_follow_their_course`: the calls that are made to the remote, their times, and the result.
-/

namespace Wiretap.Injection

open Scenario (Call Dial)

/-! ## What a call meets outside -/

/-- The answers that a call gets, and how long it waits for them. The attempts to open the channel
count from 0 here. -/
structure Outside where
  looking : Nat
  payload : Option Fault
  loading : Nat
  injection : Except InjectionFault Unit
  dials : Nat → Dial

/-- Whether the agent is ours, where the loading of the payload went well enough. -/
inductive Owns : Except InjectionFault Unit → Bool → Prop where
  | loaded : Owns (.ok ()) true
  | alreadyThere : Owns (.error .alreadyInjected) false

namespace Outside

variable (o : Outside)

/-- When the answer comes for which a call waits that entered a phase at that time, and what the
answer is. A rest ends when it is due. -/
def answer? (since : Nat) : Phase → Option (Nat × Move)
  | .checking => some (since + o.looking, .checked o.payload)
  | .injecting => some (since + o.loading, .injected o.injection)
  | .dialing _ attempt =>
    let dial := o.dials (attempt - 1)
    some (since + dial.delay, .dialed dial.fault)
  | .resting _ _ due => some (due, .resumes)
  | .done _ => none

/-- The first `k` attempts fail. -/
def FailFor (k : Nat) : Prop := ∀ i < k, (o.dials i).fault ≠ none

/-- How long the first `k` attempts take, without the rests between them. -/
def dialed : Nat → Nat
  | 0 => 0
  | k + 1 => dialed k + (o.dials k).delay

theorem failFor_succ {k : Nat} {f : Fault} (h : o.FailFor k) (hf : (o.dials k).fault = some f) :
    o.FailFor (k + 1) := by
  intro i hi
  obtain hlt | rfl := Nat.lt_or_eq_of_le (Nat.le_of_lt_succ hi)
  · exact h i hlt
  · rw [hf]
    exact Option.some_ne_none f

end Outside

/-! ## The course of one call -/

variable {hook : HookConfig} {pid : UInt32} {o : Outside} {asked : Nat}

/-- When the call asks for the channel for the first time. -/
def Outside.ready (o : Outside) (asked : Nat) : Nat := asked + o.looking + o.loading

/-- When an attempt to open the channel begins: one rest after the end of the one before. -/
def begins (hook : HookConfig) (o : Outside) (asked : Nat) : Nat → Nat
  | 0 => o.ready asked
  | k + 1 => begins hook o asked k + (o.dials k).delay + hook.dialRetryInterval.toNat

theorem begins_eq (k : Nat) :
    begins hook o asked k = o.ready asked + o.dialed k + k * hook.dialRetryInterval.toNat := by
  induction k with
  | zero => simp [begins, Outside.dialed]
  | succ k ih =>
    rw [begins, ih, Outside.dialed, Nat.succ_mul]
    omega

/-- The call by which the payload is loaded. -/
def injectCall (hook : HookConfig) (pid : UInt32) (o : Outside) (asked : Nat) : Call :=
  .inject (asked + o.looking) pid hook.payloadPath

/-- The calls by which the channel is tried `k` times. -/
def dialCalls (hook : HookConfig) (pid : UInt32) (o : Outside) (asked k : Nat) : List Call :=
  (List.range k).map fun i =>
    .dial (begins hook o asked i) (hook.channelName pid) hook.dialTimeout.toNat

theorem dialCalls_succ (k : Nat) :
    dialCalls hook pid o asked (k + 1) = dialCalls hook pid o asked k ++
      [.dial (begins hook o asked k) (hook.channelName pid) hook.dialTimeout.toNat] := by
  simp [dialCalls, List.range_succ]

/-- What a call comes to: the calls that it makes to the remote, when it ends, and its result. -/
inductive Course (hook : HookConfig) (pid : UInt32) (o : Outside) (asked : Nat) :
    List Call → Nat → Except InjectionError Connection → Prop where
  | missing {f : Fault} (hpayload : o.payload = some f) :
      Course hook pid o asked [] (asked + o.looking) (.error (.payloadMissing hook.payloadPath f))
  | refused {f : InjectionFault} (hpayload : o.payload = none) (hinjection : o.injection = .error f)
      (hnew : f ≠ .alreadyInjected) :
      Course hook pid o asked [injectCall hook pid o asked] (o.ready asked)
        (.error (.inject pid f))
  | opens {owner : Bool} {k : Nat} (hpayload : o.payload = none) (howns : Owns o.injection owner)
      (hk : k < attempts hook) (hfail : o.FailFor k) (hopen : (o.dials k).fault = none) :
      Course hook pid o asked
        (injectCall hook pid o asked :: dialCalls hook pid o asked (k + 1))
        (o.ready asked + o.dialed (k + 1) + k * hook.dialRetryInterval.toNat) (.ok { owner })
  | fails {owner : Bool} {k : Nat} {f : Fault} (hpayload : o.payload = none)
      (howns : Owns o.injection owner) (hk : k + 1 = attempts hook) (hfail : o.FailFor k)
      (hlast : (o.dials k).fault = some f) :
      Course hook pid o asked
        (injectCall hook pid o asked :: dialCalls hook pid o asked (k + 1))
        (o.ready asked + o.dialed (k + 1) + k * hook.dialRetryInterval.toNat)
        (.error (.dial (hook.channelName pid) (k + 1) f))

/-! ## One call -/

/-- A call on an injector: where it stands, since when, and the calls that it made to the remote. -/
structure Bid where
  since : Nat
  state : State
  made : List Call := []

/-- The call that is made to the remote where this phase is entered. -/
def State.call? (now : Nat) (s : State) : Option Call :=
  match s.phase with
  | .injecting => some (.inject now s.pid s.payloadPath)
  | .dialing _ _ => some (.dial now s.channelName s.dialTimeout)
  | _ => none

/-- The most answers that a call in some phase still gets. -/
def Phase.left (hook : HookConfig) : Phase → Nat
  | .checking => 2 * attempts hook + 1
  | .injecting => 2 * attempts hook
  | .dialing _ attempt => 2 * (attempts hook - attempt) + 1
  | .resting _ attempt _ => 2 * (attempts hook - attempt) + 2
  | .done _ => 0

namespace Bid

/-- A call that begins. -/
def begin (hook : HookConfig) (pid : UInt32) (now : Nat) : Bid where
  since := now
  state := start hook pid

/-- The call goes on with the answer for which it waits. -/
def go? (o : Outside) (b : Bid) : Option Bid := do
  let (now, m) ← o.answer? b.since b.state.phase
  let s ← b.state.step? now m
  return { since := now, state := s, made := b.made ++ (s.call? now).toList }

end Bid

/-- A call in some phase: all else is as it began. -/
def within (hook : HookConfig) (pid : UInt32) (phase : Phase) : State :=
  { start hook pid with phase := phase }

/-- A call that stands on its course. -/
inductive Reached (hook : HookConfig) (pid : UInt32) (o : Outside) (asked : Nat) : Bid → Prop where
  | checking : Reached hook pid o asked ⟨asked, within hook pid .checking, []⟩
  | injecting (hpayload : o.payload = none) :
      Reached hook pid o asked
        ⟨asked + o.looking, within hook pid .injecting, [injectCall hook pid o asked]⟩
  | dialing {owner : Bool} {k : Nat} (hpayload : o.payload = none) (howns : Owns o.injection owner)
      (hk : k < attempts hook) (hfail : o.FailFor k) :
      Reached hook pid o asked
        ⟨begins hook o asked k, within hook pid (.dialing owner (k + 1)),
          injectCall hook pid o asked :: dialCalls hook pid o asked (k + 1)⟩
  | resting {owner : Bool} {k : Nat} (hpayload : o.payload = none) (howns : Owns o.injection owner)
      (hk : k + 1 < attempts hook) (hfail : o.FailFor (k + 1)) :
      Reached hook pid o asked
        ⟨begins hook o asked k + (o.dials k).delay,
          within hook pid (.resting owner (k + 2) (begins hook o asked (k + 1))),
          injectCall hook pid o asked :: dialCalls hook pid o asked (k + 1)⟩
  | done {made : List Call} {now : Nat} {r : Except InjectionError Connection}
      (hcourse : Course hook pid o asked made now r) :
      Reached hook pid o asked ⟨now, within hook pid (.done r), made⟩

theorem reached_begin : Reached hook pid o asked (Bid.begin hook pid asked) := .checking

/-- What the next answer makes of a call: it is closer to its end. -/
def Advances (hook : HookConfig) (pid : UInt32) (o : Outside) (asked : Nat) (b : Bid) : Prop :=
  ∃ b', b.go? o = some b' ∧ Reached hook pid o asked b' ∧
    b'.state.phase.left hook < b.state.phase.left hook

theorem advances_checking :
    Advances hook pid o asked ⟨asked, within hook pid .checking, []⟩ := by
  cases hpayload : o.payload with
  | none =>
    refine ⟨⟨asked + o.looking, within hook pid .injecting, [injectCall hook pid o asked]⟩, ?_,
      .injecting hpayload, Nat.lt_succ_self _⟩
    simp [Bid.go?, Outside.answer?, within, hpayload, State.step?, State.call?, injectCall, start]
  | some f =>
    refine ⟨⟨asked + o.looking,
      within hook pid (.done (.error (.payloadMissing hook.payloadPath f))), []⟩, ?_,
      .done (.missing hpayload), Nat.succ_pos _⟩
    simp [Bid.go?, Outside.answer?, within, hpayload, State.step?, State.call?, start]

/-- The first attempt to open the channel begins where the loading has ended. -/
theorem go?_injecting_of_owns {owner : Bool} (howns : Owns o.injection owner) :
    Bid.go? o ⟨asked + o.looking, within hook pid .injecting, [injectCall hook pid o asked]⟩ =
      some ⟨begins hook o asked 0, within hook pid (.dialing owner 1),
        injectCall hook pid o asked :: dialCalls hook pid o asked 1⟩ := by
  generalize hinjection : o.injection = injection at howns
  cases howns <;>
    simp [Bid.go?, Outside.answer?, within, hinjection, State.step?, State.call?, start, dialCalls,
      begins, Outside.ready]

theorem advances_injecting (hpayload : o.payload = none) :
    Advances hook pid o asked
      ⟨asked + o.looking, within hook pid .injecting, [injectCall hook pid o asked]⟩ := by
  have hpos := attempts_pos hook
  have howned : ∀ owner, Owns o.injection owner → Advances hook pid o asked
      ⟨asked + o.looking, within hook pid .injecting, [injectCall hook pid o asked]⟩ := by
    intro owner howns
    refine ⟨_, go?_injecting_of_owns howns, .dialing hpayload howns hpos ?_, ?_⟩
    · intro i hi
      exact absurd hi (Nat.not_lt_zero i)
    · simp only [within, Phase.left]
      omega
  match hinjection : o.injection with
  | .ok () => exact howned true (hinjection ▸ .loaded)
  | .error .alreadyInjected => exact howned false (hinjection ▸ .alreadyThere)
  | .error .unsupported | .error (.failed _) | .error (.io _) =>
    refine ⟨⟨o.ready asked, within hook pid (.done (.error (.inject pid _))),
      [injectCall hook pid o asked]⟩, ?_, .done (.refused hpayload hinjection (by simp)), ?_⟩
    · simp [Bid.go?, Outside.answer?, within, hinjection, State.step?, State.call?, start,
        Outside.ready]
    · simp only [within, Phase.left]
      omega

theorem ends_eq (k : Nat) : begins hook o asked k + (o.dials k).delay =
    o.ready asked + o.dialed (k + 1) + k * hook.dialRetryInterval.toNat := by
  rw [begins_eq, Outside.dialed]
  omega

theorem advances_dialing {owner : Bool} {k : Nat} (hpayload : o.payload = none)
    (howns : Owns o.injection owner) (hk : k < attempts hook) (hfail : o.FailFor k) :
    Advances hook pid o asked
      ⟨begins hook o asked k, within hook pid (.dialing owner (k + 1)),
        injectCall hook pid o asked :: dialCalls hook pid o asked (k + 1)⟩ := by
  cases hfault : (o.dials k).fault with
  | none =>
    refine ⟨⟨o.ready asked + o.dialed (k + 1) + k * hook.dialRetryInterval.toNat,
      within hook pid (.done (.ok { owner })), _⟩, ?_,
      .done (.opens hpayload howns hk hfail hfault), Nat.succ_pos _⟩
    simp [Bid.go?, Outside.answer?, within, hfault, State.step?, State.call?, ends_eq]
  | some f =>
    obtain hlast | hagain := Nat.eq_or_lt_of_le (Nat.succ_le_of_lt hk)
    · refine ⟨⟨o.ready asked + o.dialed (k + 1) + k * hook.dialRetryInterval.toNat,
        within hook pid (.done (.error (.dial (hook.channelName pid) (k + 1) f))), _⟩, ?_,
        .done (.fails hpayload howns hlast hfail hfault), Nat.succ_pos _⟩
      simp [Bid.go?, Outside.answer?, within, hfault, State.step?, State.afterFailure, State.call?,
        start, ends_eq, ← hlast]
    · refine ⟨⟨begins hook o asked k + (o.dials k).delay,
        within hook pid (.resting owner (k + 2) (begins hook o asked (k + 1))), _⟩, ?_,
        .resting hpayload howns hagain (o.failFor_succ hfail hfault), ?_⟩
      · simp [Bid.go?, Outside.answer?, within, hfault, State.step?, State.afterFailure,
          State.call?, start, begins, Nat.not_le.mpr hagain]
      · simp only [within, Phase.left]
        omega

theorem advances_resting {owner : Bool} {k : Nat} (hpayload : o.payload = none)
    (howns : Owns o.injection owner) (hk : k + 1 < attempts hook) (hfail : o.FailFor (k + 1)) :
    Advances hook pid o asked
      ⟨begins hook o asked k + (o.dials k).delay,
        within hook pid (.resting owner (k + 2) (begins hook o asked (k + 1))),
        injectCall hook pid o asked :: dialCalls hook pid o asked (k + 1)⟩ := by
  refine ⟨_, ?_, .dialing hpayload howns hk hfail, ?_⟩
  · simp [Bid.go?, Outside.answer?, within, State.step?, State.call?, start, dialCalls_succ (k + 1)]
  · simp only [within, Phase.left]
    omega

/-- A call is over, or it gets an answer and stays on its course. -/
theorem done_or_advances {b : Bid} (h : Reached hook pid o asked b) :
    (∃ r, b.state.phase = .done r) ∨ Advances hook pid o asked b := by
  cases h with
  | checking => exact .inr advances_checking
  | injecting hpayload => exact .inr (advances_injecting hpayload)
  | dialing hpayload howns hk hfail => exact .inr (advances_dialing hpayload howns hk hfail)
  | resting hpayload howns hk hfail => exact .inr (advances_resting hpayload howns hk hfail)
  | done => exact .inl ⟨_, rfl⟩

theorem go?_done {b : Bid} {r : Except InjectionError Connection} (h : b.state.phase = .done r) :
    b.go? o = none := by
  simp [Bid.go?, Outside.answer?, h]

theorem reached_go {b b' : Bid} (h : Reached hook pid o asked b) (hgo : b.go? o = some b') :
    Reached hook pid o asked b' ∧ b'.state.phase.left hook < b.state.phase.left hook := by
  obtain ⟨r, hdone⟩ | ⟨b₁, hgo₁, hadvanced⟩ := done_or_advances h
  · rw [go?_done hdone] at hgo
    cases hgo
  · cases hgo.symm.trans hgo₁
    exact hadvanced

theorem course_of_reached {b : Bid} {r : Except InjectionError Connection}
    (h : Reached hook pid o asked b) (hdone : b.state.phase = .done r) :
    Course hook pid o asked b.made b.since r := by
  cases h with
  | checking | injecting | dialing | resting => cases hdone
  | done hcourse =>
    cases hdone
    exact hcourse

theorem left_le {b : Bid} (h : Reached hook pid o asked b) :
    b.state.phase.left hook ≤ 2 * attempts hook + 1 := by
  cases h with
  | checking => exact Nat.le_refl _
  | injecting => exact Nat.le_succ _
  | dialing | resting =>
    simp only [within, Phase.left]
    omega
  | done => exact Nat.zero_le _

theorem Owns.unique {injection : Except InjectionFault Unit} {owner owner' : Bool}
    (h : Owns injection owner) (h' : Owns injection owner') : owner = owner' := by
  cases h <;> cases h' <;> rfl

/-- The attempt at which the channel opens is the only one that ends a row of failures so. -/
theorem Outside.eq_of_opens {k k' : Nat} (hfail : o.FailFor k) (hopen : (o.dials k).fault = none)
    (hfail' : o.FailFor k') (hopen' : (o.dials k').fault = none) : k = k' := by
  apply Nat.le_antisymm
  · exact Nat.le_of_not_lt fun hlt => hfail k' hlt hopen'
  · exact Nat.le_of_not_lt fun hlt => hfail' k hlt hopen

/-- Where the channel opens at some attempt first, it is tried so often, but not more often than the
configuration says. -/
theorem Course.tries {made : List Call} {now k : Nat} {r : Except InjectionError Connection}
    {owner : Bool} (h : Course hook pid o asked made now r) (hpayload : o.payload = none)
    (howns : Owns o.injection owner) (hfail : o.FailFor k) (hopen : (o.dials k).fault = none) :
    made = injectCall hook pid o asked ::
        dialCalls hook pid o asked (min (k + 1) (attempts hook)) ∧
      (r = .ok { owner } ↔ k + 1 ≤ attempts hook) := by
  cases h with
  | missing hmissing => simp [hmissing] at hpayload
  | refused _ hinjection hnew =>
    rw [hinjection] at howns
    cases howns
    exact absurd rfl hnew
  | @opens owner' k' _ howns' hk hfail' hopen' =>
    obtain rfl := Outside.eq_of_opens hfail hopen hfail' hopen'
    obtain rfl := howns.unique howns'
    have hle : k + 1 ≤ attempts hook := hk
    rw [Nat.min_eq_left hle]
    exact ⟨rfl, fun _ => hle, fun _ => rfl⟩
  | @fails owner' k' f _ _ hk hfail' hlast =>
    have hbeyond : k' < k := by
      apply Nat.lt_of_not_le
      intro hle
      obtain rfl | hlt := Nat.eq_or_lt_of_le hle
      · simp [hlast] at hopen
      · exact hfail' k hlt hopen
    rw [Nat.min_eq_right (by omega), ← hk]
    refine ⟨rfl, fun h => ?_, fun h => ?_⟩
    · cases h
    · omega

/-! ## An injector -/

/-- What happens at an injector. -/
inductive Event where
  /-- It is asked for the agent of a process. -/
  | asks (now : Nat) (pid : UInt32)
  /-- The `i`th call gets the answer for which it waits. -/
  | goes (i : Nat)

/-- The calls on an injector, where `world i` is what the `i`th of them meets. -/
def act? (hook : HookConfig) (world : Nat → Outside) (bids : List Bid) : Event → Option (List Bid)
  | .asks now pid => some (bids ++ [.begin hook pid now])
  | .goes i => do
    let b ← bids[i]?
    let b ← b.go? (world i)
    return bids.set i b

/-- When an injector is asked for an agent, and of which process. -/
def Event.asked? : Event → Option (Nat × UInt32)
  | .asks now pid => some (now, pid)
  | .goes _ => none

variable {world : Nat → Outside} {es : List Event} {bids bids' : List Bid} {i : Nat}

/-- Every call stands on the course that its own answers set. -/
def Stand (hook : HookConfig) (world : Nat → Outside) (calls : List (Nat × UInt32))
    (bids : List Bid) : Prop :=
  bids.length = calls.length ∧ ∀ i b, bids[i]? = some b →
    ∃ now pid, calls[i]? = some (now, pid) ∧ Reached hook pid (world i) now b

theorem Stand.asks {calls : List (Nat × UInt32)} (h : Stand hook world calls bids) (now : Nat)
    (pid : UInt32) :
    Stand hook world (calls ++ [(now, pid)]) (bids ++ [.begin hook pid now]) := by
  obtain ⟨hlength, hreached⟩ := h
  refine ⟨by simp [hlength], fun i b hb => ?_⟩
  by_cases hold : i < bids.length
  · rw [List.getElem?_append_left hold] at hb
    obtain ⟨now', pid', hcall, hb'⟩ := hreached i b hb
    exact ⟨now', pid', by rw [List.getElem?_append_left (hlength ▸ hold), hcall], hb'⟩
  · have hi : i = bids.length := by
      have := (List.getElem?_eq_some_iff.mp hb).1
      rw [List.length_append, List.length_singleton] at this
      omega
    subst hi
    rw [List.getElem?_concat_length] at hb
    cases hb
    exact ⟨now, pid, by rw [hlength, List.getElem?_concat_length], reached_begin⟩

/-- The answer to one call is nothing to the others. -/
theorem Stand.goes {calls : List (Nat × UInt32)} (h : Stand hook world calls bids) {b b' : Bid}
    (hb : bids[i]? = some b) (hgo : b.go? (world i) = some b') :
    Stand hook world calls (bids.set i b') := by
  obtain ⟨hlength, hreached⟩ := h
  refine ⟨by simp [hlength], fun j c hc => ?_⟩
  by_cases hij : i = j
  · subst hij
    obtain ⟨now, pid, hcall, hstands⟩ := hreached i b hb
    obtain rfl : b' = c := by
      rw [List.getElem?_set_self'] at hc
      simpa [hb] using hc
    exact ⟨now, pid, hcall, (reached_go hstands hgo).1⟩
  · rw [List.getElem?_set_ne hij] at hc
    exact hreached j c hc

theorem stand_of_run? (h : run? (act? hook world) [] es = some bids) :
    Stand hook world (es.filterMap Event.asked?) bids := by
  refine run?_invariant (motive := fun es bids => Stand hook world (es.filterMap Event.asked?) bids)
    ⟨rfl, fun i b hb => by simp at hb⟩ ?_ h
  intro past bids e bids' _ hstand hact
  cases e with
  | asks now pid =>
    cases hact
    simpa [Event.asked?] using hstand.asks now pid
  | goes i =>
    obtain ⟨b, hb, b', hgo, rfl⟩ : ∃ b, bids[i]? = some b ∧ ∃ b', b.go? (world i) = some b' ∧
        bids.set i b' = bids' := by
      simpa [act?, Option.bind_eq_some_iff] using hact
    rw [List.filterMap_append, show [Event.goes i].filterMap Event.asked? = [] from rfl,
      List.append_nil]
    exact hstand.goes hb hgo

/-- A call is over after a bounded number of answers, whatever the other calls wait for. -/
theorem exists_goes_done {b : Bid} (hb : bids[i]? = some b)
    (h : Reached hook pid (world i) asked b) :
    ∃ n ≤ b.state.phase.left hook, ∃ bids' b' r,
      run? (act? hook world) bids (List.replicate n (.goes i)) = some bids' ∧
        bids'[i]? = some b' ∧ b'.state.phase = .done r := by
  obtain ⟨n, hn⟩ : ∃ n, b.state.phase.left hook = n := ⟨_, rfl⟩
  induction n using Nat.strongRecOn generalizing b bids with
  | _ n ih =>
    obtain ⟨r, hdone⟩ | ⟨b₁, hgo, hreached, hless⟩ := done_or_advances h
    · exact ⟨0, Nat.zero_le _, bids, b, r, rfl, hb, hdone⟩
    · have hset : (bids.set i b₁)[i]? = some b₁ := by
        rw [List.getElem?_set_self (List.getElem?_eq_some_iff.mp hb).1]
      obtain ⟨m, hm, bids', b', r, hrun, hb', hdone⟩ :=
        ih _ (hn ▸ hless) hset hreached rfl
      refine ⟨m + 1, by omega, bids', b', r, ?_, hb', hdone⟩
      rw [List.replicate_succ, run?_cons]
      simpa [act?, hb, hgo] using hrun

theorem Stand.reached {calls : List (Nat × UInt32)} (h : Stand hook world calls bids)
    (hasked : calls[i]? = some (asked, pid)) :
    ∃ b, bids[i]? = some b ∧ Reached hook pid (world i) asked b := by
  have hi : i < bids.length := h.1 ▸ (List.getElem?_eq_some_iff.mp hasked).1
  obtain ⟨now', pid', hcall, hreached⟩ := h.2 i bids[i] (List.getElem?_eq_getElem hi)
  cases hasked.symm.trans hcall
  exact ⟨bids[i], List.getElem?_eq_getElem hi, hreached⟩

/-- What holds of a call that is over: its course, and how often it tried the channel. -/
structure Brought (hook : HookConfig) (pid : UInt32) (o : Outside) (asked : Nat) (b : Bid)
    (r : Except InjectionError Connection) : Prop where
  done : b.state.phase = .done r
  course : Course hook pid o asked b.made b.since r
  tries : ∀ owner k, o.payload = none → Owns o.injection owner → o.FailFor k →
    (o.dials k).fault = none →
    b.made = injectCall hook pid o asked ::
        dialCalls hook pid o asked (min (k + 1) (attempts hook)) ∧
      (r = .ok { owner } ↔ k + 1 ≤ attempts hook)

theorem brought_of_reached {b : Bid} {r : Except InjectionError Connection}
    (h : Reached hook pid o asked b) (hdone : b.state.phase = .done r) :
    Brought hook pid o asked b r where
  done := hdone
  course := course_of_reached h hdone
  tries _ _ hpayload howns hfail hopen :=
    (course_of_reached h hdone).tries hpayload howns hfail hopen

/-- However the calls on an injector are interleaved, each of them is over after a bounded number of
its own answers, and what it has done then depends on these answers alone. -/
theorem calls_follow_their_course (hook : HookConfig) (world : Nat → Outside) {es : List Event}
    {bids : List Bid} (hrun : run? (act? hook world) [] es = some bids) {i asked : Nat}
    {pid : UInt32} (hasked : (es.filterMap Event.asked?)[i]? = some (asked, pid)) :
    ∃ b, bids[i]? = some b ∧
      (∀ r, b.state.phase = .done r → Brought hook pid (world i) asked b r) ∧
      ∃ n ≤ 2 * attempts hook + 1, ∃ bids' b' r,
        run? (act? hook world) [] (es ++ List.replicate n (.goes i)) = some bids' ∧
          bids'[i]? = some b' ∧ Brought hook pid (world i) asked b' r := by
  obtain ⟨b, hb, hreached⟩ := (stand_of_run? hrun).reached hasked
  obtain ⟨n, hn, bids', b', r, hrun', hb', hdone⟩ := exists_goes_done hb hreached
  have hall : run? (act? hook world) [] (es ++ List.replicate n (.goes i)) = some bids' := by
    rw [run?_append, hrun]
    exact hrun'
  have hasked' : ((es ++ List.replicate n (Event.goes i)).filterMap Event.asked?)[i]? =
      some (asked, pid) := by
    rw [List.filterMap_append]
    exact List.getElem?_append_left (List.getElem?_eq_some_iff.mp hasked).1 ▸ hasked
  obtain ⟨b₁, hb₁, hreached'⟩ := (stand_of_run? hall).reached hasked'
  cases hb'.symm.trans hb₁
  exact ⟨b, hb, fun r hdone => brought_of_reached hreached hdone, n,
    Nat.le_trans hn (left_le hreached), bids', b', r, hall, hb',
    brought_of_reached hreached' hdone⟩

/-- Two calls at once, where the channel of the first opens at its second attempt, and the second
finds no payload. -/
theorem calls_follow_their_course_interleaved :
    let hook : HookConfig := { dialAttempts := 2, dialRetryInterval := 9, dialTimeout := 8 }
    let flaky : Nat → Dial := fun k => if k = 0 then ⟨10, some .noSuchFile⟩ else ⟨20, none⟩
    let opening : Outside := ⟨3, none, 4, .ok (), flaky⟩
    let world : Nat → Outside := fun i =>
      if i = 0 then opening else ⟨1, some .noSuchFile, 0, .ok (), flaky⟩
    let es : List Event :=
      [.asks 0 7, .goes 0, .asks 5 8, .goes 1, .goes 0, .goes 0, .goes 0, .goes 0]
    ∃ bids b, run? (act? hook world) [] es = some bids ∧
      (es.filterMap Event.asked?)[0]? = some (0, 7) ∧ bids[0]? = some b ∧
      b.made = [.inject 3 7 hook.payloadPath, .dial 7 (hook.channelName 7) 8,
        .dial 26 (hook.channelName 7) 8] ∧
      b.since = 46 ∧ Brought hook 7 opening 0 b (.ok { owner := true }) := by
  intro hook flaky opening world es
  have hasked : (es.filterMap Event.asked?)[0]? = some (0, 7) := rfl
  obtain ⟨bids, hrun⟩ : ∃ bids, run? (act? hook world) [] es = some bids := ⟨_, rfl⟩
  obtain ⟨b, hb, hdone, -⟩ := calls_follow_their_course hook world hrun hasked
  cases hrun
  cases hb
  exact ⟨_, _, rfl, rfl, rfl, rfl, rfl, hdone _ rfl⟩

end Wiretap.Injection
