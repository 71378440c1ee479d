import Wiretap.Proofs.Session.Handshake
import Wiretap.Proofs.Session.Sent

/-!
# The order of writes

Clients, the pinger and the priming race for one bounded queue. The sender takes what they queue,
one message at a time, and offers each frame to the channel once.

Results:

* `writes_of_act?`: what an event does to the writes of the sender.
* `InTurn.next`: what the sender has begun to write, and what is queued, is what was accepted and
  fits into a frame, in that order.
* `act?_eq_of_alike`: which answer a write gets makes no difference, unless it is the end of the
  stream.
* `writes_in_turn`: what all this comes to in any run of a new session.
-/

namespace Wiretap.Session

/-- The message fits into a frame. -/
def fits (m : Message) : Bool := Frame.wireLength m ≤ Frame.maxLength

theorem fits_iff {m : Message} : fits m = true ↔ Frame.wireLength m ≤ Frame.maxLength :=
  decide_eq_true_iff

/-- The messages that the sender has begun to write, in a run to the state `s`. -/
def begun (s₀ : State) (t : List Event) (s : State) : List Message :=
  written (calls s₀ t) ++ s.sender.pending

/-- The writes among the calls of a run. -/
def writes (s : State) (t : List Event) : List Call := (calls s t).filter Call.isWrite

/-- The answer to a write is the end of the stream. -/
def findsEnd (r : Except Fault Nat) : Bool :=
  match Connection.written r with
  | .ok _ => false
  | .error f => f.isEndOfStream

/-- The sender goes on after that write. -/
def Call.goesOn : Call → Bool
  | .write _ (some r) => !findsEnd r
  | _ => false

variable {s s' : State} {e : Event}

/-! ## One event -/

/-- What an event does to the writes of the sender, where it ends these ones. -/
inductive Writes (s : State) : List Call → State → Prop where
  | rests {s' : State} (hsender : s'.sender = s.sender) : Writes s [] s'
  | begins {m : Message} {s' : State} (hsender : s.sender = .waiting)
      (hsender' : s'.sender = .writing m) : Writes s [] s'
  | goesOn {m : Message} {r : Except Fault Nat} {s' : State} (hsender : s.sender = .writing m)
      (hr : findsEnd r = false) (hsender' : s'.sender = .waiting) :
      Writes s [.write m (some r)] s'
  | finds {m : Message} {r : Except Fault Nat} {s' : State} (hsender : s.sender = .writing m)
      (hr : findsEnd r = true) (hsender' : s'.sender = .finished .complete) :
      Writes s [.write m (some r)] s'
  | stops {s' : State} (hsender : s.sender = .waiting) (hhalted : s.halted = true)
      (hsender' : s'.sender = .finished .stopped) : Writes s [] s'
  | givesUp {m : Message} {s' : State} (hsender : s.sender = .writing m)
      (hhalted : s.halted = true) (hsender' : s'.sender = .finished .stopped) :
      Writes s [.write m none] s'

/-- The end of the stream ends the sender, and any other answer lets it go on. -/
theorem stepSender?_wrote {m : Message} (hsender : s.sender = .writing m)
    (r : Except Fault Nat) : s.stepSender? (.wrote r) =
      some (if findsEnd r then s.endSender .complete else { s with sender := .waiting }) := by
  unfold State.stepSender? findsEnd
  rw [hsender]
  simp only
  split
  next f hf => simp only [hf]
  next n hn => simp only [hn, Bool.false_eq_true, if_false]

theorem writes_of_stepSender? {m : SenderMove} {now : Nat} (h : s.stepSender? m = some s') :
    Writes s ((s.calls (.move now (.sender m))).filter Call.isWrite) s' := by
  cases hsender : s.sender with
  | waiting =>
    unfold State.stepSender? at h
    rw [hsender] at h
    cases m with
    | takes =>
      simp only at h
      split at h
      next m q htake =>
        split at h <;> cases h
        · exact .begins hsender rfl
        · exact .rests hsender.symm
      next => cases h
    | wrote r => cases h
    | stops =>
      simp only at h
      split at h <;> cases h
      next hhalted =>
        simp only [State.calls, hsender]
        exact .stops hsender hhalted rfl
  | writing message =>
    cases m with
    | takes =>
      unfold State.stepSender? at h
      rw [hsender] at h
      cases h
    | wrote r =>
      rw [stepSender?_wrote hsender] at h
      simp only [State.calls, hsender]
      cases hr : findsEnd r <;> rw [hr] at h <;> cases h
      · exact .goesOn hsender hr rfl
      · exact .finds hsender hr rfl
    | stops =>
      unfold State.stepSender? at h
      rw [hsender] at h
      simp only at h
      split at h <;> cases h
      next hhalted =>
        simp only [State.calls, hsender]
        exact .givesUp hsender hhalted rfl
  | finished exit =>
    rw [State.stepSender?_finished hsender] at h
    cases h

/-- Only the sender writes messages. -/
theorem isWrite_calls (he : ∀ now m, e ≠ .move now (.sender m)) :
    (s.calls e).filter Call.isWrite = [] := by
  unfold State.calls
  split
  case h_3 => exact absurd rfl (he _ _)
  case h_4 => exact absurd rfl (he _ _)
  all_goals first | rfl | (split <;> rfl)

theorem writes_of_act? (h : s.act? e = some s') :
    Writes s ((s.calls e).filter Call.isWrite) s' := by
  have hrests (he : ∀ now m, e ≠ .move now (.sender m)) (hsender : s'.sender = s.sender) :
      Writes s ((s.calls e).filter Call.isWrite) s' := by
    rw [isWrite_calls he]
    exact .rests hsender
  cases e with
  | move now m =>
    cases moves_of_step? h with
    | stage hmove =>
      obtain ⟨_, _, _, _, rfl⟩ := eq_of_stepStage? hmove
      exact hrests (by simp) rfl
    | sender hmove => exact writes_of_stepSender? hmove
    | receiver hmove =>
      obtain ⟨_, _, _, _, rfl⟩ := eq_of_stepReceiver? hmove
      exact hrests (by simp) rfl
    | decoder hmove =>
      obtain ⟨_, _, _, _, _, rfl⟩ := eq_of_stepDecoder? hmove
      exact hrests (by simp) rfl
    | pinger hmove =>
      obtain ⟨_, _, _, rfl⟩ := eq_of_stepPinger? hmove
      exact hrests (by simp) rfl
  | client c =>
    obtain ⟨_, _, _, _, rfl⟩ := eq_of_serve? h
    exact hrests (by simp) rfl
  | cancel =>
    cases h
    exact hrests (by simp) rfl
  | drop =>
    simp only [State.act?] at h
    split at h <;> cases h
    exact hrests (by simp) rfl

/-! ## Nothing is queued without the sender -/

theorem accepts_eq_nil (h : s.outgoing.listening = false) (m : Message) : s.accepts m = [] :=
  accepts_of_refused (Queue.offer_of_not_listening h m)

theorem enqueued_eq_nil (h : s.outgoing.listening = false) (e : Event) : s.enqueued e = [] := by
  unfold State.enqueued
  split
  next => exact accepts_eq_nil h _
  next =>
    split
    next => exact accepts_eq_nil h _
    next => rfl
  next => exact accepts_eq_nil h _
  next => rfl

theorem Posts.not_listening {new ended : List Message} (h : Posts s new ended s')
    (hs : s.outgoing.listening = false) : s'.outgoing.listening = false := by
  cases h with
  | still _ houtgoing => rw [houtgoing, hs]
  | queues hoffer =>
    rw [(Queue.eq_of_offer hoffer).1] at hs
    cases hs
  | takes htake => rw [(Queue.eq_of_take? htake).2, hs]
  | skips htake => rw [(Queue.eq_of_take? htake).2, hs]
  | writes houtgoing => rw [houtgoing, hs]
  | ends houtgoing => rw [houtgoing]; rfl
  | drops houtgoing => rw [houtgoing]; rfl

/-! ## Messages in turn -/

/-- How the messages that were accepted relate to those that the sender has written. -/
structure InTurn (queued written : List Message) (s : State) : Prop where
  isPrefix : written ++ s.sender.pending <+: queued.filter fits
  whole : s.outgoing.listening = true →
    written ++ s.sender.pending ++ s.outgoing.items.filter fits = queued.filter fits
  emptied : s.outgoing.listening = false → s.outgoing.items = []
  listening : s.sender.isOver = true ∨ s.stage = .dropped ∨ s.outgoing.listening = true

namespace InTurn

variable {queued written new ended : List Message}

/-- Nothing changes for messages that are neither begun nor queued in the event. -/
theorem unmoved (h : InTurn queued written s) {written' : List Message}
    (hbegun : written' ++ s'.sender.pending = written ++ s.sender.pending)
    (houtgoing : s'.outgoing = s.outgoing)
    (hgone : s.sender.isOver = true → s'.sender.isOver = true)
    (hdropped : s.stage = .dropped → s'.stage = .dropped) : InTurn queued written' s' where
  isPrefix := by rw [hbegun]; exact h.isPrefix
  whole := by rw [hbegun, houtgoing]; exact h.whole
  emptied := by rw [houtgoing]; exact h.emptied
  listening := by rw [houtgoing]; exact h.listening.imp hgone (Or.imp_left hdropped)

/-- What is queued is lost where the queue is closed. -/
theorem closes (h : InTurn queued written s) {written' : List Message}
    (hbegun : written' ++ s'.sender.pending = written ++ s.sender.pending)
    (houtgoing : s'.outgoing = s.outgoing.close)
    (hgone : s'.sender.isOver = true ∨ s'.stage = .dropped) : InTurn queued written' s' where
  isPrefix := by rw [hbegun]; exact h.isPrefix
  whole := by rw [houtgoing]; nofun
  emptied := by rw [houtgoing]; exact fun _ => rfl
  listening := by rw [← or_assoc]; exact .inl hgone

/-- Nothing is lost as long as the queue is open. -/
theorem of_whole (hlistening : s.outgoing.listening = true)
    (hwhole : written ++ s.sender.pending ++ s.outgoing.items.filter fits = queued.filter fits) :
    InTurn queued written s where
  isPrefix := ⟨_, hwhole⟩
  whole _ := hwhole
  emptied hnot := by
    rw [hlistening] at hnot
    cases hnot
  listening := .inr (.inr hlistening)

theorem listens (h : InTurn queued written s) {m : Message} {rest : List Message}
    (hitems : s.outgoing.items = m :: rest) : s.outgoing.listening = true := by
  by_contra hnot
  rw [h.emptied (Bool.eq_false_iff.mpr hnot)] at hitems
  cases hitems

theorem next (h : InTurn queued written s) (hposts : Posts s new ended s')
    (hdropped : s.stage = .dropped → s'.stage = .dropped) :
    InTurn (queued ++ new) (written ++ ended) s' := by
  cases hposts with
  | still hsender houtgoing =>
    rw [List.append_nil, List.append_nil]
    exact h.unmoved (by rw [hsender]) houtgoing (by rw [hsender]; exact fun hover => hover) hdropped
  | @queues m _ hoffer hsender =>
    rw [List.append_nil]
    obtain ⟨hlistening, hq⟩ := Queue.eq_of_offer hoffer
    refine of_whole (by rw [hq]; exact hlistening) ?_
    rw [hsender, hq, List.filter_append, List.filter_append, ← h.whole hlistening]
    simp only [List.append_assoc]
  | @takes m _ htake hm hsender hsender' =>
    rw [List.append_nil, List.append_nil]
    obtain ⟨hitems, hq⟩ := Queue.eq_of_take? htake
    have hlistening := h.listens hitems
    have hwhole := h.whole hlistening
    rw [hsender, Sender.pending_waiting, List.append_nil, hitems,
      List.filter_cons_of_pos (fits_iff.mpr hm)] at hwhole
    refine of_whole (by rw [hq]; exact hlistening) ?_
    rw [hsender', Sender.pending_writing, ← List.append_cons]
    exact hwhole
  | @skips m _ htake hlarge hsender =>
    rw [List.append_nil, List.append_nil]
    obtain ⟨hitems, hq⟩ := Queue.eq_of_take? htake
    have hlistening := h.listens hitems
    have hm : ¬fits m = true := by
      rw [fits_iff]
      exact Nat.not_le_of_lt hlarge
    have hwhole := h.whole hlistening
    rw [hitems, List.filter_cons_of_neg hm, ← hsender] at hwhole
    exact of_whole (by rw [hq]; exact hlistening) hwhole
  | @writes m _ houtgoing hsender hsender' =>
    rw [List.append_nil]
    refine h.unmoved ?_ houtgoing (by rw [hsender]; nofun) hdropped
    rw [hsender', hsender, Sender.pending_waiting, List.append_nil, Sender.pending_writing]
  | ends houtgoing hsender =>
    rw [List.append_nil]
    refine h.closes ?_ houtgoing (.inl (by rw [hsender]; rfl))
    rw [hsender, Sender.pending_finished, List.append_nil]
  | drops houtgoing hstage hsender =>
    rw [List.append_nil, List.append_nil]
    exact h.closes (by rw [hsender]) houtgoing (.inr hstage)

end InTurn

/-! ## The last write -/

/-- How the sender came to its end, with the write that it ended in. -/
inductive Ends (s : State) : List Call → Prop where
  | runs (hsender : s.sender.isOver = false) : Ends s []
  /-- A write found the end of the stream. -/
  | finds {m : Message} {r : Except Fault Nat} (hr : findsEnd r = true)
      (hsender : s.sender = .finished .complete) : Ends s [.write m (some r)]
  /-- It was told to stop while it waited for a message. -/
  | stops (hhalted : s.halted = true) (hsender : s.sender = .finished .stopped) : Ends s []
  /-- It was told to stop while it wrote. -/
  | givesUp {m : Message} (hhalted : s.halted = true) (hsender : s.sender = .finished .stopped) :
      Ends s [.write m none]

/-- The sender goes on after each of its writes but the one that it ended in. -/
def Ended (ws : List Call) (s : State) : Prop :=
  ∃ before last, ws = before ++ last ∧ (∀ c ∈ before, c.goesOn = true) ∧ Ends s last

theorem Ends.congr {last : List Call} (h : Ends s last) (hsender : s'.sender = s.sender)
    (hhalted : s.halted = true → s'.halted = true) : Ends s' last := by
  cases h with
  | runs hrest => exact .runs (by rw [hsender, hrest])
  | finds hr hrest => exact .finds hr (hsender.trans hrest)
  | stops hs hrest => exact .stops (hhalted hs) (hsender.trans hrest)
  | givesUp hs hrest => exact .givesUp (hhalted hs) (hsender.trans hrest)

theorem Ends.eq_nil {last : List Call} (h : Ends s last) (hsender : s.sender.isOver = false) :
    last = [] := by
  cases h with
  | runs => rfl
  | stops => rfl
  | finds _ hrest => rw [hrest] at hsender; cases hsender
  | givesUp _ hrest => rw [hrest] at hsender; cases hsender

theorem Ended.next {ws new : List Call} (h : Ended ws s) (hwrites : Writes s new s')
    (hhalted : s.halted = true → s'.halted = true) : Ended (ws ++ new) s' := by
  obtain ⟨before, last, rfl, hbefore, hends⟩ := h
  cases hwrites with
  | rests hsender => exact ⟨before, last, List.append_nil _, hbefore, hends.congr hsender hhalted⟩
  | begins hsender hsender' =>
    obtain rfl := hends.eq_nil (by rw [hsender]; rfl)
    exact ⟨before, [], List.append_nil _, hbefore, .runs (by rw [hsender']; rfl)⟩
  | @goesOn m r _ hsender hr hsender' =>
    obtain rfl := hends.eq_nil (by rw [hsender]; rfl)
    rw [List.append_nil]
    refine ⟨before ++ [.write m (some r)], [], (List.append_nil _).symm, ?_,
      .runs (by rw [hsender']; rfl)⟩
    intro c hc
    rcases List.mem_append.mp hc with hc | hc
    · exact hbefore c hc
    · rw [List.mem_singleton.mp hc, Call.goesOn, hr]
      rfl
  | @finds m r _ hsender hr hsender' =>
    obtain rfl := hends.eq_nil (by rw [hsender]; rfl)
    exact ⟨before, _, by rw [List.append_nil], hbefore, .finds hr hsender'⟩
  | stops hsender hs hsender' =>
    obtain rfl := hends.eq_nil (by rw [hsender]; rfl)
    exact ⟨before, [], List.append_nil _, hbefore, .stops (hhalted hs) hsender'⟩
  | givesUp hsender hs hsender' =>
    obtain rfl := hends.eq_nil (by rw [hsender]; rfl)
    exact ⟨before, _, by rw [List.append_nil], hbefore, .givesUp (hhalted hs) hsender'⟩

/-! ## Answers that make no difference -/

/-- The events are the same, or the two writes that they end go on in the same way. -/
inductive Event.Alike : Event → Event → Prop where
  | same (e : Event) : Alike e e
  | answers {now : Nat} {r r' : Except Fault Nat} (hr : findsEnd r = false)
      (hr' : findsEnd r' = false) :
      Alike (.move now (.sender (.wrote r))) (.move now (.sender (.wrote r')))

theorem act?_eq_of_alike (s : State) (e e' : Event) (h : e.Alike e') : s.act? e = s.act? e' := by
  cases h with
  | same => rfl
  | @answers now r r' hr hr' =>
    cases hsender : s.sender with
    | writing m =>
      simp only [State.act?, State.step?, stepSender?_wrote hsender, hr, hr']
    | waiting => simp only [State.act?, State.step?, State.stepSender?, hsender]
    | finished exit => simp only [State.act?, State.step?, State.stepSender?, hsender]

theorem enqueued_eq_of_alike (s : State) (e e' : Event) (h : e.Alike e') :
    s.enqueued e = s.enqueued e' := by
  cases h <;> rfl

theorem written_eq_of_alike (s : State) (e e' : Event) (h : e.Alike e') :
    written (s.calls e) = written (s.calls e') := by
  cases h with
  | same => rfl
  | answers => rw [written_wrote, written_wrote]

/-! ## Who sends what -/

section Accepted

variable {α : Type}

/-- The messages that were accepted in a run, each with the label of the event that queued it. -/
def accepted (s : State) (t : List (α × Event)) : List (α × Message) :=
  history (fun s e => s.act? e.2) (fun s e => (s.enqueued e.2).map (e.1, ·)) s t

theorem map_accepted (s : State) (t : List (α × Event)) :
    (accepted s t).map Prod.snd = queued s (t.map Prod.snd) := by
  induction t generalizing s with
  | nil => rfl
  | cons e t ih =>
    unfold accepted queued at ih ⊢
    rw [List.map_cons]
    simp only [history, List.map_append]
    congr 1
    · rw [List.map_map]
      exact List.map_id _
    · cases s.act? e.2 with
      | none => rfl
      | some s' => exact ih s'

theorem map_filter_fits (ms : List (α × Message)) :
    (ms.filter fun m => fits m.2).map Prod.snd = (ms.map Prod.snd).filter fits := by
  rw [List.filter_map]
  rfl

end Accepted

/-! ## Runs -/

/-- What the sender makes of the messages that were accepted, in a run of the session `s₀` to `s`.
The events of the run carry labels, which can tell those who made them from each other. The priming
waits for `delay`. -/
structure Dispatched {α : Type} [DecidableEq α] (delay : Nat) (s₀ : State) (t : List (α × Event))
    (s : State) : Prop where
  /-- The writes were begun for the first of the messages that fit into a frame, once for each of
  them and in the order in which they were accepted. The others are still queued, unless the
  sender is over. Each label keeps its own order. -/
  inTurn : ∃ sent later, sent ++ later = (accepted s₀ t).filter (fits ·.2) ∧
    sent.map Prod.snd = begun s₀ (t.map Prod.snd) s ∧
    (s.sender.isOver = false → s.stage ≠ .dropped →
      later.map Prod.snd = s.outgoing.items.filter fits) ∧
    ∀ a, sent.filter (·.1 = a) <+: ((accepted s₀ t).filter (·.1 = a)).filter (fits ·.2)
  /-- Each write gets the whole frame of its message. -/
  frames : ∀ c ∈ writes s₀ (t.map Prod.snd), ∃ m frame,
    c.written? = some m ∧ Frame.encode m = .ok frame ∧ c.frame? = some frame
  /-- A write that falls short or fails has the effect of any other that does not find the end of
  the stream. -/
  unaffected : ∀ es, List.Forall₂ Event.Alike (t.map Prod.snd) es →
    run? State.act? s₀ es = some s ∧ queued s₀ es = queued s₀ (t.map Prod.snd) ∧
      begun s₀ es s = begun s₀ (t.map Prod.snd) s
  /-- The sender went on after each write but the last. It is over if that one found the end of the
  stream or was given up, or if it was told to stop before it began another. -/
  ended : Ended (writes s₀ (t.map Prod.snd)) s
  /-- Once it is told to stop, it can do so whatever it does. -/
  heeds : s.halted = true → s.sender.isOver = false →
    ∀ now, ∃ s', s.act? (.move now (.sender .stops)) = some s' ∧ s'.sender = .finished .stopped
  /-- Once it is over, it writes nothing, and whatever is sent to it is refused. -/
  closed : s.sender.isOver = true → ∀ es s', run? State.act? s es = some s' →
    s'.sender = s.sender ∧ writes s es = [] ∧ queued s es = [] ∧ ∀ m, s'.send m = .refused
  /-- The priming queues the options in their order, as far as it comes. -/
  primes : (primed s₀ (t.map Prod.snd)).map Prod.snd <+:
    [.enableOption Message.ingressOption, .enableOption Message.egressOption]
  /-- It queues nothing until its delay is over. -/
  waits : Timely (t.map Prod.snd) → ∀ p ∈ primed s₀ (t.map Prod.snd),
    ∃ start, StartedAt start (t.map Prod.snd) ∧ start + delay ≤ p.1

section Runs

variable {id : UInt32} {conn : Connection} {hook : HookConfig} {r : Block.Registry}
variable {policy : RestartPolicy} {s₀ : State} {t : List Event}

theorem writes_concat (h : run? State.act? s₀ t = some s) (e : Event) :
    writes s₀ (t ++ [e]) = writes s₀ t ++ (s.calls e).filter Call.isWrite := by
  unfold writes
  rw [calls_concat h, List.filter_append]

theorem inTurn_of_run? (hnew : new? id conn hook r policy = some s₀)
    (hrun : run? State.act? s₀ t = some s) : InTurn (queued s₀ t) (written (calls s₀ t)) s := by
  have hstart : InTurn [] [] s₀ := by
    obtain ⟨-, rfl⟩ := eq_of_new? hnew
    exact ⟨List.nil_prefix, fun _ => rfl, fun _ => rfl, .inr (.inr rfl)⟩
  refine run?_invariant (motive := fun t s => InTurn (queued s₀ t) (written (calls s₀ t)) s)
    hstart ?_ hrun
  intro past s₁ e s₂ hpast hturn hact
  rw [queued_concat hpast, calls_concat hpast, written_append]
  exact hturn.next (posts_of_act? hact) (advances_of_act? hact).dropped

theorem ended_of_run? (hnew : new? id conn hook r policy = some s₀)
    (hrun : run? State.act? s₀ t = some s) : Ended (writes s₀ t) s := by
  have hstart : Ended [] s₀ := by
    obtain ⟨-, rfl⟩ := eq_of_new? hnew
    exact ⟨[], [], rfl, fun c hc => absurd hc List.not_mem_nil, .runs rfl⟩
  refine run?_invariant (motive := fun t s => Ended (writes s₀ t) s) hstart ?_ hrun
  intro past s₁ e s₂ hpast hended hact
  rw [writes_concat hpast]
  exact hended.next (writes_of_act? hact) (advances_of_act? hact).halted

theorem hasStarted_of_run? (hnew : new? id conn hook r policy = some s₀)
    (hrun : run? State.act? s₀ t = some s) (hhalted : s.halted = true) : s.hasStarted = true := by
  have hstart : s₀.halted = true → s₀.hasStarted = true := by
    obtain ⟨-, rfl⟩ := eq_of_new? hnew
    nofun
  refine run?_invariant (motive := fun _ s => s.halted = true → s.hasStarted = true) hstart ?_
    hrun hhalted
  intro past s₁ e s₂ hpast hstarted hact
  exact (advances_of_act? hact).hasStarted_of_halted hstarted

/-- The sender is over, and so is the queue. -/
structure Gone (s₁ s : State) : Prop where
  sender : s.sender = s₁.sender
  isOver : s.sender.isOver = true
  closed : s.outgoing.listening = false

theorem Gone.next {s₁ : State} (h : Gone s₁ s) (hact : s.act? e = some s') :
    Gone s₁ s' ∧ (s.calls e).filter Call.isWrite = [] ∧ s.enqueued e = [] := by
  have hclosed := (posts_of_act? hact).not_listening h.closed
  have hover := h.isOver
  have hwrites := writes_of_act? hact
  generalize (s.calls e).filter Call.isWrite = ws at hwrites
  cases hwrites with
  | rests hsender =>
    have hgone : Gone s₁ s' :=
      ⟨hsender.trans h.sender, by rw [hsender]; exact hover, hclosed⟩
    exact ⟨hgone, rfl, enqueued_eq_nil h.closed e⟩
  | begins hsender => rw [hsender] at hover; cases hover
  | goesOn hsender => rw [hsender] at hover; cases hover
  | finds hsender => rw [hsender] at hover; cases hover
  | stops hsender => rw [hsender] at hover; cases hover
  | givesUp hsender => rw [hsender] at hover; cases hover

theorem gone_of_run? {s₁ : State} (h : Gone s₁ s₁) (hrun : run? State.act? s₁ t = some s) :
    Gone s₁ s ∧ writes s₁ t = [] ∧ queued s₁ t = [] := by
  refine run?_invariant (motive := fun t s => Gone s₁ s ∧ writes s₁ t = [] ∧ queued s₁ t = [])
    ⟨h, rfl, rfl⟩ ?_ hrun
  intro past s₂ e s₃ hpast hgone hact
  obtain ⟨hgone, hwrites, hqueued⟩ := hgone
  obtain ⟨hgone, hwrites', hqueued'⟩ := hgone.next hact
  refine ⟨hgone, ?_, ?_⟩
  · rw [writes_concat hpast, hwrites, hwrites', List.append_nil]
  · rw [queued_concat hpast, hqueued, hqueued', List.append_nil]

/-- **Messages are written once, and in turn.** In any run of a new session, whoever sends, and
whatever the channel answers to the writes, the sender begins one write for each accepted message
that fits into a frame, in the order in which they were accepted, until it finds the end of the
stream or is told to stop. -/
theorem writes_in_turn {α : Type} [DecidableEq α] {t : List (α × Event)}
    (hnew : new? id conn hook r policy = some s₀)
    (hrun : run? State.act? s₀ (t.map Prod.snd) = some s) :
    Dispatched hook.handshakeDelay.toNat s₀ t s := by
  have hturn := inTurn_of_run? hnew hrun
  have hposted := posted_of_run? hnew hrun
  refine ⟨?_, ?_, ?_, ended_of_run? hnew hrun, ?_, ?_, ?_, ?_⟩
  · -- the writes that were begun are the first of those that are due
    have hdue : ((accepted s₀ t).filter (fits ·.2)).map Prod.snd =
        (queued s₀ (t.map Prod.snd)).filter fits := by
      rw [map_filter_fits, map_accepted]
    obtain ⟨rest, hrest⟩ := hturn.isPrefix
    obtain ⟨sent, later, hsplit, hsent, hlater⟩ := List.map_eq_append_iff.mp (hdue.trans hrest.symm)
    refine ⟨sent, later, hsplit.symm, hsent, fun hover hdropped => ?_, fun a => ?_⟩
    · have hlistening : s.outgoing.listening = true := by
        rcases hturn.listening with h | h | h
        · rw [hover] at h
          cases h
        · exact absurd h hdropped
        · exact h
      rw [hlater]
      exact List.append_cancel_left (hrest.trans (hturn.whole hlistening).symm)
    · have hprefix : sent <+: (accepted s₀ t).filter (fits ·.2) := ⟨later, hsplit.symm⟩
      rw [List.filter_comm]
      exact hprefix.filter _
  · -- only messages that fit are written
    intro c hc
    obtain ⟨hc, hwrite⟩ := List.mem_filter.mp hc
    cases c with
    | write m answer =>
      have hm : m ∈ written (calls s₀ (t.map Prod.snd)) := List.mem_filterMap.mpr ⟨_, hc, rfl⟩
      exact ⟨m, Frame.bytes m, rfl,
        Frame.encode_of_fits (hposted.fits m (List.mem_append_left _ hm)), rfl⟩
    | _ => cases hwrite
  · intro es hes
    have hrun' : run? State.act? s₀ es = some s := by
      rw [← run?_congr act?_eq_of_alike hes, hrun]
    have hqueued : queued s₀ (t.map Prod.snd) = queued s₀ es :=
      history_congr act?_eq_of_alike enqueued_eq_of_alike hes s₀
    have hwritten : written (calls s₀ (t.map Prod.snd)) = written (calls s₀ es) := by
      unfold written calls
      rw [filterMap_history, filterMap_history]
      exact history_congr act?_eq_of_alike written_eq_of_alike hes s₀
    exact ⟨hrun', hqueued.symm, by rw [begun, begun, hwritten]⟩
  · intro hhalted hover now
    have hstarted := hasStarted_of_run? hnew hrun hhalted
    refine ⟨s.endSender .stopped, ?_, rfl⟩
    simp only [State.act?, State.step?, hstarted, if_true]
    unfold State.stepSender?
    cases hsender : s.sender with
    | waiting => simp only [hhalted, if_true]
    | writing m => simp only [hhalted, if_true]
    | finished exit => rw [hsender] at hover; cases hover
  · intro hover es s' hes
    obtain ⟨hgone, hwrites, hqueued⟩ := gone_of_run? ⟨rfl, hover, hposted.gone hover⟩ hes
    exact ⟨hgone.sender, hwrites, hqueued, Queue.offer_of_not_listening hgone.closed⟩
  · exact (primes_of_run? hnew hrun).isPrefix
  · intro htimely
    exact (delayed_of_run? hnew hrun htimely).queued

/-- Two callers, the priming and the pinger send. One write falls short, one fails, and the one
after that finds the end of the stream, while a last message is queued. -/
theorem writes_in_turn_raced :
    let t : List (Nat × Event) :=
      [(0, .move 0 (.stage .start)), (0, .move 0 (.pinger .starts)), (1, .client (.send .exit)),
        (0, .move 0 (.sender .takes)), (2, .client (.send ⟨.send, 7, [1, 2]⟩)),
        (0, .move 1000 (.stage .prime)), (0, .move 1000 (.pinger .ticks)),
        (0, .move 1000 (.pinger .offers)), (0, .move 1000 (.sender (.wrote (.ok 3)))),
        (0, .move 1001 (.stage .prime)), (1, .client (.send .ping)),
        (0, .move 1001 (.sender .takes)),
        (0, .move 1002 (.sender (.wrote (.error ⟨.timedOut, "too slow"⟩)))),
        (0, .move 1002 (.sender .takes)),
        (0, .move 1003 (.sender (.wrote (.error ⟨.brokenPipe, "broken pipe"⟩))))]
    let es := t.map Prod.snd
    ∃ s₀ s, new? 7 { owner := false } {} {} {} = some s₀ ∧ run? State.act? s₀ es = some s ∧
      accepted s₀ t = [(1, .exit), (2, ⟨.send, 7, [1, 2]⟩), (0, .ping), (0, .enableOption 1),
        (1, .ping)] ∧
      begun s₀ es s = [.exit, ⟨.send, 7, [1, 2]⟩, .ping] ∧ s.sender = .finished .complete ∧
      Dispatched 1000 s₀ t s := by
  intro t es
  obtain ⟨s₀, s, hnew, hrun, haccepted, hbegun, hsender⟩ : ∃ s₀ s,
      new? 7 { owner := false } {} {} {} = some s₀ ∧ run? State.act? s₀ es = some s ∧
      accepted s₀ t = [(1, .exit), (2, ⟨.send, 7, [1, 2]⟩), (0, .ping), (0, .enableOption 1),
        (1, .ping)] ∧
      begun s₀ es s = [.exit, ⟨.send, 7, [1, 2]⟩, .ping] ∧ s.sender = .finished .complete :=
    ⟨_, _, rfl, rfl, rfl, rfl, rfl⟩
  exact ⟨s₀, s, hnew, hrun, haccepted, hbegun, hsender, writes_in_turn hnew hrun⟩

end Runs

end Wiretap.Session
