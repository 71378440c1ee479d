import Wiretap.Proofs.Adapter.Lives
import Wiretap.Proofs.Config.Loaded

/-!
# The settings in use

The services of an adapter work with the settings that it was started with. A loaded configuration
has no empty queue and tries at least once, but its intervals may be empty and its queues too large.

Results:

* `uses_of_run?`: no event of an adapter changes the settings in use.
* `raised_of_accepted`: a loaded configuration has been raised.
* `serves_of_accepted`: which of the settings of a loaded configuration a service cannot work with.
* `not_serves_of_edge`: some loaded configurations have such settings.
-/

namespace Wiretap

open Config (load loadMerged)

/-! ## Sessions -/

theorem Session.pingInterval_new? {id : UInt32} {conn : Connection} {hook : HookConfig}
    {registry : Block.Registry} {policy : RestartPolicy} {x : Session.State}
    (h : Session.new? id conn hook registry policy = some x) :
    x.pingInterval = hook.pingInterval.toNat := by
  obtain ⟨-, rfl⟩ := Session.eq_of_new? h
  rfl

/-! ## The manager -/

namespace Manager

/-- The manager, and all sessions that it has started, work with these settings. -/
structure Uses (hook : HookConfig) (s : State) : Prop where
  hook_eq : s.hook = hook
  sessions : ∀ {i : Nat} {x}, s.sessions[i]? = some x → x.pingInterval = hook.pingInterval.toNat

variable {hook : HookConfig} {s s' : State} {now : Nat}

theorem Uses.congr (h : Uses hook s) (hhook : s'.hook = s.hook) (hsessions : s'.sessions = s.sessions) :
    Uses hook s' := by
  refine ⟨hhook.trans h.hook_eq, fun hx => ?_⟩
  rw [hsessions] at hx
  exact h.sessions hx

theorem Uses.setSession {i : Nat} {x x' : Session.State} (h : Uses hook s)
    (hx : s.sessions[i]? = some x) (hsame : x'.pingInterval = x.pingInterval) :
    Uses hook (s.setSession i x') := by
  refine ⟨h.hook_eq, fun {j y} hy => ?_⟩
  change (s.sessions.set i x')[j]? = some y at hy
  by_cases hij : i = j
  · subst hij
    obtain ⟨-, rfl⟩ := List.getElem?_eq_some_iff.mp hy
    simp [hsame, h.sessions hx]
  · rw [List.getElem?_set_ne hij] at hy
    exact h.sessions hy

theorem Uses.register {pid : UInt32} {x : Session.State} (h : Uses hook s)
    (hx : x.pingInterval = hook.pingInterval.toNat) : Uses hook (s.register pid x) := by
  refine ⟨h.hook_eq, fun {j y} hy => ?_⟩
  change (s.sessions ++ [{ x with cancelled := s.roster.cancelled }])[j]? = some y at hy
  rw [List.getElem?_append] at hy
  split at hy
  next => exact h.sessions hy
  next =>
    obtain rfl := List.mem_singleton.mp (List.mem_of_getElem? hy)
    exact hx

/-- Telling sessions to stop changes nothing else. -/
theorem Uses.cancelled {p : Nat → Prop} [DecidablePred p] (h : Uses hook s) (hhook : s'.hook = s.hook)
    (hsessions : ∀ i : Nat, s'.sessions[i]? =
      s.sessions[i]?.map fun x => if p i then { x with cancelled := true } else x) :
    Uses hook s' := by
  refine ⟨hhook.trans h.hook_eq, fun {i y} hy => ?_⟩
  rw [hsessions i] at hy
  obtain ⟨x, hx, rfl⟩ := Option.map_eq_some_iff.mp hy
  have hinterval := h.sessions hx
  split <;> exact hinterval

theorem Uses.step? {cancelled : Bool} {m : Move} (h : Uses hook s)
    (hstep : s.step? now cancelled m = some s') : Uses hook s' := by
  cases steps_of_step? hstep with
  | detaches hidle htake hdetached =>
    cases hdetached with
    | unknown => exact h.congr rfl rfl
    | @waits _ i =>
      refine h.cancelled (p := (i = ·)) rfl fun j => ?_
      exact List.getElem?_modify ..
    | gone => exact h.congr rfl rfl
  | builds hbuilding hjob hbuilt =>
    cases hbuilt with
    | fails => exact h.congr rfl rfl
    | succeeds _ hnew =>
      rw [h.hook_eq] at hnew
      exact h.register (Session.pingInterval_new? hnew)
    | goesOn => exact h.congr rfl rfl
  | session hx hmove => exact h.setSession hx (Session.settings_of_act? (e := .move _ _) hmove).2
  | _ => exact h.congr rfl rfl

theorem Uses.stopSessions (h : Uses hook s) : Uses hook s.stopSessions.1 := by
  obtain ⟨sessions, hstop, hsessions⟩ := stopSessions_cases s
  rw [hstop]
  exact h.cancelled rfl hsessions

end Manager

/-! ## The adapter -/

namespace Adapter

/-- The adapter works with these settings. -/
structure Uses (hook : HookConfig) (s : State) : Prop where
  interval_eq : s.watcher.interval = hook.scanInterval.toNat
  manager : Manager.Uses hook s.manager

variable {hook : HookConfig} {s s' : State}

theorem uses_of_start? {config : Config} (h : start? config = some s) : Uses config.hook s := by
  simp only [start?, Watcher.new?, ProcessEvents.new?, Manager.new?, Option.bind_eq_bind,
    Option.bind_eq_some_iff, Option.map_eq_some_iff] at h
  obtain ⟨watcher, ⟨events, -, hwatcher⟩, manager, ⟨up, -, down, -, hmanager⟩, h⟩ := h
  cases hwatcher
  cases hmanager
  split at h <;> cases h
  · exact ⟨rfl, rfl, fun hx => by cases hx⟩
  · exact ⟨rfl, rfl, fun hx => by cases hx⟩

theorem interval_steps {now : Nat} {cancelled : Bool} {m : Watcher.Move} {w w' : Watcher.State}
    (h : Watcher.Steps now cancelled w m w') : w'.interval = w.interval := by
  cases h <;> rfl

theorem Uses.setManagerLife (h : Uses hook s) (life : Life) : Uses hook (s.setManagerLife life) := by
  refine ⟨h.interval_eq, ?_⟩
  unfold State.setManagerLife
  dsimp only
  split
  next => exact h.manager.congr rfl rfl
  next => exact h.manager

theorem Uses.setManager {manager : Manager.State} (h : Uses hook s)
    (hmanager : Manager.Uses hook manager) (now : Nat) : Uses hook (s.setManager now manager) := by
  have hset : Uses hook { s with manager } := ⟨h.interval_eq, hmanager⟩
  obtain ⟨heq, -⟩ | ⟨_, _, _, _, heq⟩ := setManager_cases s now manager
  · rw [heq]
    exact hset
  · rw [heq]
    exact hset.setManagerLife _

theorem Uses.next {e : Event} (h : Uses hook s) (hacts : Acts s e s') : Uses hook s' := by
  cases hacts with
  | @watcher now _ _ w _ hsteps =>
    obtain ⟨life, events, hset, -⟩ := setWatcher_eq s now w
    rw [hset]
    exact ⟨(interval_steps hsteps).trans h.interval_eq, h.manager.congr rfl rfl⟩
  | manager hstep => exact h.setManager (h.manager.step? hstep) _
  | @watcherAwakes _ life _ =>
    obtain ⟨events, hset, -⟩ := setWatcherLife_eq { s with watcher := s.watcher.restart } life
    rw [hset]
    exact ⟨h.interval_eq, h.manager.congr rfl rfl⟩
  | @managerAwakes _ life _ =>
    have hmanager : Manager.Uses hook (if life.isOver then s.manager else s.manager.restart) := by
      split
      next => exact h.manager
      next => exact h.manager.congr rfl rfl
    have hset : Uses hook
        { s with manager := if life.isOver then s.manager else s.manager.restart } :=
      ⟨h.interval_eq, hmanager⟩
    exact hset.setManagerLife life
  | gathers => exact ⟨h.interval_eq, h.manager.stopSessions⟩
  | client hx hserve =>
    have hsame := (Session.settings_of_act? (e := .client _) hserve).2
    exact ⟨h.interval_eq, h.manager.setSession hx hsame⟩
  | releases | stop => exact ⟨h.interval_eq, h.manager⟩
  | announced => exact ⟨h.interval_eq, h.manager.congr rfl rfl⟩

theorem uses_of_run? {config : Config} {s₀ : State} {es : List Event} (hstart : start? config = some s₀)
    (hrun : run? State.act? s₀ es = some s) : Uses config.hook s :=
  run?_invariant (motive := fun _ s => Uses config.hook s) (uses_of_start? hstart)
    (fun _ huses hact => huses.next (acts_of_act? hact)) hrun

/-! ## What the services make of them -/

theorem isSome_start?_iff (config : Config) :
    (start? config).isSome ↔
      0 < config.hook.eventBuffer.toNat ∧ config.hook.eventBuffer.toNat ≤ Queue.maxCapacity := by
  rw [← @Queue.isSome_new?_iff Nat]
  unfold start? Watcher.new? ProcessEvents.new? Manager.new? Queue.new?
  split
  next => cases config.hook.enabled <;> simp
  next => simp

theorem polls_iff_of_starts {now : Nat} {cancelled : Bool} {w w' : Watcher.State}
    (h : w.step? now cancelled .starts = some w') :
    (∃ t, w'.service = .polling t) ↔ w.interval ≠ 0 := by
  rw [ne_eq, ← Ticker.start?_eq_none_iff now]
  unfold Watcher.State.step? at h
  split at h
  case h_1 =>
    split at h <;> cases h
    next t ht => exact iff_of_true ⟨t, rfl⟩ (ht ▸ nofun)
    next ht => exact iff_of_false nofun (not_not_intro ht)
  all_goals contradiction

/-- A pinger that fails is run again after a rest, or over. -/
theorem not_ticking_endPinger {now failures : Nat} {x : Session.State}
    (h : x.pingerLife = .running failures) (e : Exit) (t : Ticker) :
    (x.endPinger now e).pinger ≠ .ticking t := by
  unfold Session.State.endPinger
  rw [h]
  dsimp only
  split <;> nofun

theorem ticks_iff_of_starts {now : Nat} {x x' : Session.State}
    (h : x.stepPinger? now .starts = some x') :
    (∃ t, x'.pinger = .ticking t) ↔ x.pingInterval ≠ 0 := by
  rw [ne_eq, ← Ticker.start?_eq_none_iff now]
  unfold Session.State.stepPinger? at h
  split at h
  case h_1 =>
    split at h
    next failures hlife =>
      split at h <;> cases h
      next t ht => exact iff_of_true ⟨t, rfl⟩ (ht ▸ nofun)
      next ht =>
        refine iff_of_false ?_ (not_not_intro ht)
        rintro ⟨t, ht⟩
        exact not_ticking_endPinger hlife _ t ht
    next => cases h
  all_goals contradiction

theorem sessions_setManager (s : State) (now : Nat) (manager : Manager.State) :
    (s.setManager now manager).manager.sessions = manager.sessions := by
  obtain ⟨heq, -⟩ | ⟨_, _, _, _, heq⟩ := setManager_cases s now manager
  · rw [heq]
  · rw [heq, State.setManagerLife]
    dsimp only
    split <;> rfl

/-- Which of its settings a service of the adapter can work with. -/
structure Serves (hook : HookConfig) (s : State) : Prop where
  /-- A watcher that starts polls, unless it should do so at every moment. -/
  watcher : ∀ now s', s.act? (.move now (.watcher .starts)) = some s' →
    ((∃ t, s'.watcher.service = .polling t) ↔ hook.scanInterval ≠ 0)
  /-- A session is made, unless its queues are too large. -/
  session : ∀ id conn, (Session.new? id conn s.manager.hook s.manager.registry
    s.manager.policy).isSome ↔ hook.blockBuffer.toNat ≤ Queue.maxCapacity
  /-- A pinger that starts waits for its first tick, unless it should ping at every moment. -/
  pinger : ∀ now i s', s.act? (.move now (.manager (.session i (.pinger .starts)))) = some s' →
    ∃ x, s'.manager.sessions[i]? = some x ∧ ((∃ t, x.pinger = .ticking t) ↔ hook.pingInterval ≠ 0)

theorem toNat_ne_zero_iff (a : UInt64) : a.toNat ≠ 0 ↔ a ≠ 0 := by
  rw [ne_eq, ne_eq, ← UInt64.toNat_inj]
  rfl

theorem Uses.serves (h : Uses hook s) (hblocks : 0 < hook.blockBuffer.toNat) : Serves hook s where
  watcher := by
    intro now s' hact
    simp only [State.act?, State.step?] at hact
    split at hact
    next =>
      obtain ⟨w, hw, rfl⟩ := Option.map_eq_some_iff.mp hact
      rw [watcher_setWatcher, polls_iff_of_starts hw]
      change s.watcher.interval ≠ 0 ↔ _
      rw [h.interval_eq, toNat_ne_zero_iff]
    next => cases hact
  session := by
    intro id conn
    rw [Session.new?_isSome_iff, Queue.isSome_new?_iff, h.manager.hook_eq]
    exact and_iff_right hblocks
  pinger := by
    intro now i s' hact
    obtain ⟨manager, hstep, rfl⟩ := Option.map_eq_some_iff.mp hact
    cases Manager.steps_of_step? hstep with | @session _ _ x x' hx hmove => ?_
    have hx' : ((s.setManager now (s.manager.setSession i x')).manager.sessions)[i]? = some x' := by
      rw [sessions_setManager]
      exact List.getElem?_set_self (List.getElem?_eq_some_iff.mp hx).1
    refine ⟨x', hx', ?_⟩
    cases Session.moves_of_step? hmove with | pinger hstarts => ?_
    rw [ticks_iff_of_starts hstarts, h.manager.sessions hx, toNat_ne_zero_iff]

end Adapter

/-! ## Loaded configurations -/

namespace Config

/-- A configuration that was loaded from one file, or from several, in some environment. -/
def Accepted (c : Config) : Prop :=
  ∃ tempDir, (∃ file, load file tempDir = .ok c) ∨ ∃ files, loadMerged files tempDir = .ok c

theorem raised_of_ofDocument? {tempDir : String} {doc : Toml.Entries} {c : Config}
    (h : ofDocument? tempDir doc = some c) : c.raised = c := by
  obtain ⟨c, -, rfl⟩ := Option.map_eq_some_iff.mp h
  exact raised_idem c

theorem raised_of_accepted {c : Config} (h : Accepted c) : c.raised = c := by
  rcases h with ⟨tempDir, ⟨file, h⟩ | ⟨files, h⟩⟩
  · obtain ⟨-, doc, -, -, hc⟩ := exists_of_load h
    exact raised_of_ofDocument? hc
  · unfold loadMerged at h
    cases hmerge : (files.filterMap id).foldlM mergeFile [] with
    | error e => simp only [hmerge, bind, Except.bind, reduceCtorEq] at h
    | ok doc =>
      simp only [hmerge, bind, Except.bind] at h
      split at h <;> cases h
      next hc => exact raised_of_ofDocument? hc

theorem pos_of_accepted {c : Config} (h : Accepted c) : 0 < c.hook.dialAttempts.toNat ∧
    0 < c.hook.eventBuffer.toNat ∧ 0 < c.hook.blockBuffer.toNat := by
  rw [← raised_of_accepted h]
  simp only [raised, toNat_attempts, toNat_capacity]
  omega

end Config

namespace Adapter

/-- **Which settings of a loaded configuration a service cannot work with.** It makes at least one
attempt and has no empty queue. What it may have are queues that are too large and intervals that
are empty: in every state of every run these are what a service fails at, and nothing else is. -/
theorem serves_of_accepted {c : Config} (h : c.Accepted) :
    (0 < c.hook.dialAttempts.toNat ∧ 0 < c.hook.eventBuffer.toNat ∧
      0 < c.hook.blockBuffer.toNat) ∧
    ((start? c).isSome ↔ c.hook.eventBuffer.toNat ≤ Queue.maxCapacity) ∧
    ∀ s₀ es s, start? c = some s₀ → run? State.act? s₀ es = some s → Serves c.hook s := by
  have hpos := Config.pos_of_accepted h
  refine ⟨hpos, ?_, ?_⟩
  · rw [isSome_start?_iff]
    exact and_iff_right hpos.2.1
  · intro s₀ es s hstart hrun
    exact (uses_of_run? hstart hrun).serves hpos.2.2

/-- A queue without room is read as one with room for an event, and the session of a process that
has appeared pings its agent. -/
theorem serves_of_accepted_appearance :
    let file := "[hook]\nprocess_name = \"\"\nevent_buffer = 0\n".toUTF8.toList
    let c : Config := { hook := { processName := "", eventBuffer := 1 } }
    let begun := appearance ++ [.move 0 (.manager (.session 0 (.stage .start)))]
    load (some file) = .ok c ∧ ∃ s₀ s s' x t, start? c = some s₀ ∧
      run? State.act? s₀ begun = some s ∧
      s.act? (.move 0 (.manager (.session 0 (.pinger .starts)))) = some s' ∧
      s'.manager.sessions[0]? = some x ∧ x.pinger = .ticking t := by
  intro file c begun
  have hload : load (some file) = .ok c := by decide +kernel
  obtain ⟨s₀, s, s', hstart, hrun, hact⟩ : ∃ s₀ s s', start? c = some s₀ ∧
      run? State.act? s₀ begun = some s ∧
      s.act? (.move 0 (.manager (.session 0 (.pinger .starts)))) = some s' :=
    ⟨_, _, _, rfl, rfl, rfl⟩
  obtain ⟨-, -, hserves⟩ := serves_of_accepted ⟨_, .inl ⟨_, hload⟩⟩
  obtain ⟨x, hx, hticks⟩ := (hserves s₀ begun s hstart hrun).pinger 0 0 s' hact
  obtain ⟨t, ht⟩ := hticks.mpr (by decide)
  exact ⟨hload, s₀, s, s', x, t, hstart, hrun, hact, hx, ht⟩

/-- Loaded configurations with which the watcher fails as soon as it starts, and with which no
adapter can be started. -/
theorem not_serves_of_edge :
    (∃ c s₀ s, load (some "[hook]\nscan_interval = 0\n".toUTF8.toList) = .ok c ∧
      start? c = some s₀ ∧ s₀.act? (.move 0 (.watcher .starts)) = some s ∧
      s.watcher.service = .finished (.failed "the period of a ticker must not be zero")) ∧
    ∃ c, load (some "[hook]\nevent_buffer = 2305843009213693952\n".toUTF8.toList) = .ok c ∧
      (start? c).isNone := by
  refine ⟨⟨{ hook := { scanInterval := 0 } }, _, _, by decide +kernel, rfl, rfl, rfl⟩,
    { hook := { eventBuffer := 2305843009213693952 } }, by decide +kernel, by decide +kernel⟩

end Adapter

end Wiretap
