import Wiretap.Proofs.Session.Call

/-!
# From the queue to the channel

Messages for the agent are queued by clients, by the session when it primes the agent, and by the
pinger. The sender takes them one by one and writes each of them once, unless it is too large for a
frame.

Results:

* `posts_of_act?`: what an event does to the messages on their way to the agent.
* `Posted.next`: what has been written, what the sender holds and what is queued are some of the
  messages that were queued, in the order in which they were.
* `Posted.send_eq_refused`: nothing is queued any more once the sender is over.
-/

namespace Wiretap.Session

/-- The message, if the queue takes it now. -/
def State.accepts (s : State) (m : Message) : List Message :=
  match s.send m with
  | .accepted _ => [m]
  | _ => []

/-- The messages that an event puts into the queue of outgoing ones. -/
def State.enqueued (s : State) : Event → List Message
  | .client (.send m) => s.accepts m
  | .move _ (.stage .prime) =>
    match s.stage with
    | .priming (option :: _) _ => s.accepts (.enableOption option)
    | _ => []
  | .move _ (.pinger .offers) => s.accepts .ping
  | _ => []

/-- The messages that were queued in the course of a run. -/
def queued (s : State) (t : List Event) : List Message := history State.act? State.enqueued s t

theorem queued_concat {s s' : State} {t : List Event} (h : run? State.act? s t = some s')
    (e : Event) : queued s (t ++ [e]) = queued s t ++ s'.enqueued e := history_concat t e h

/-- The message that the sender was to write. -/
def Call.written? : Call → Option Message
  | .write m _ => some m
  | _ => none

/-- The messages that the sender was to write. -/
def written (cs : List Call) : List Message := cs.filterMap Call.written?

@[simp] theorem written_append (cs cs' : List Call) :
    written (cs ++ cs') = written cs ++ written cs' := List.filterMap_append

/-- The message that the sender writes. -/
def Sender.pending : Sender → List Message
  | .writing m => [m]
  | _ => []

@[simp] theorem Sender.pending_waiting : Sender.waiting.pending = [] := rfl

@[simp] theorem Sender.pending_writing (m : Message) : (Sender.writing m).pending = [m] := rfl

@[simp] theorem Sender.pending_finished (e : Exit) : (Sender.finished e).pending = [] := rfl

/-! ## One event -/

/-- What an event does to the messages on their way to the agent, where it puts the first ones into
the queue and ends the writing of the second ones. -/
inductive Posts (s : State) : List Message → List Message → State → Prop where
  | still {s' : State} (hsender : s'.sender = s.sender) (houtgoing : s'.outgoing = s.outgoing) :
      Posts s [] [] s'
  | queues {m : Message} {s' : State} (hoffer : s.outgoing.offer m = .accepted s'.outgoing)
      (hsender : s'.sender = s.sender) : Posts s [m] [] s'
  | takes {m : Message} {s' : State} (htake : s.outgoing.take? = some (m, s'.outgoing))
      (hfits : Frame.wireLength m ≤ Frame.maxLength) (hsender : s.sender = .waiting)
      (hsender' : s'.sender = .writing m) : Posts s [] [] s'
  | skips {m : Message} {s' : State} (htake : s.outgoing.take? = some (m, s'.outgoing))
      (hlarge : Frame.maxLength < Frame.wireLength m) (hsender : s'.sender = s.sender) :
      Posts s [] [] s'
  | writes {m : Message} {s' : State} (houtgoing : s'.outgoing = s.outgoing)
      (hsender : s.sender = .writing m) (hsender' : s'.sender = .waiting) : Posts s [] [m] s'
  | ends {e : Exit} {s' : State} (houtgoing : s'.outgoing = s.outgoing.close)
      (hsender : s'.sender = .finished e) : Posts s [] s.sender.pending s'
  | drops {s' : State} (houtgoing : s'.outgoing = s.outgoing.close)
      (hstage : s'.stage = .dropped) (hsender : s'.sender = s.sender) : Posts s [] [] s'

variable {s s' : State} {now : Nat}

theorem accepts_of_offer {m : Message} {q : Queue Message}
    (h : s.outgoing.offer m = .accepted q) : s.accepts m = [m] := by
  unfold State.accepts State.send
  rw [h]

theorem accepts_of_refused {m : Message} (h : s.outgoing.offer m = .refused) :
    s.accepts m = [] := by
  unfold State.accepts State.send
  rw [h]

@[simp] theorem written_wrote (s : State) (now : Nat) (r : Except Fault Nat) :
    written (s.calls (.move now (.sender (.wrote r)))) = s.sender.pending := by
  cases hsender : s.sender <;> simp [State.calls, hsender, written, Call.written?, Sender.pending]

@[simp] theorem written_stops (s : State) (now : Nat) :
    written (s.calls (.move now (.sender .stops))) = s.sender.pending := by
  cases hsender : s.sender <;> simp [State.calls, hsender, written, Call.written?, Sender.pending]

theorem posts_of_stepSender? {m : SenderMove} (h : s.stepSender? m = some s') :
    Posts s [] (written (s.calls (.move now (.sender m)))) s' := by
  unfold State.stepSender? State.endSender at h
  split at h
  -- it takes a message
  next hsender =>
    split at h
    next m q htake =>
      split at h
      next hencode =>
        cases h
        refine .takes htake ?_ hsender rfl
        unfold Frame.encode at hencode
        split at hencode
        next hfits => exact hfits
        next => cases hencode
      next hencode =>
        cases h
        refine .skips htake ?_ rfl
        unfold Frame.encode at hencode
        split at hencode
        next => cases hencode
        next hlarge => exact Nat.lt_of_not_le hlarge
    next => cases h
  -- it has written it
  next r m hsender =>
    rw [written_wrote]
    split at h
    next =>
      split at h <;> cases h
      · exact .ends rfl rfl
      · rw [hsender]
        exact .writes rfl hsender rfl
    next =>
      cases h
      rw [hsender]
      exact .writes rfl hsender rfl
  -- it sees that it is told to stop
  next =>
    split at h <;> cases h
    rw [written_stops]
    exact .ends rfl rfl
  next =>
    split at h <;> cases h
    rw [written_stops]
    exact .ends rfl rfl
  next => cases h

theorem posts_of_stepStage? {m : StageMove} (h : s.stepStage? now m = some s') :
    Posts s (s.enqueued (.move now (.stage m))) [] s' := by
  unfold State.stepStage? State.primeNext? at h
  split at h
  -- it primes the agent
  case h_6 options since hstage =>
    cases options with
    | nil =>
      cases h
      simp only [State.enqueued, hstage]
      exact .still rfl rfl
    | cons option options =>
      simp only [State.enqueued, hstage]
      simp only at h
      split at h <;> cases h
      next outgoing hsend =>
        rw [accepts_of_offer hsend]
        exact .queues hsend rfl
      next hsend =>
        rw [accepts_of_refused hsend]
        exact .still rfl rfl
  case h_5 hstage =>
    simp only [State.enqueued, hstage]
    split at h <;> cases h
    exact .still rfl rfl
  -- it does something else
  all_goals first | split at h | skip
  all_goals
    cases h
    try exact .still rfl rfl

theorem posts_of_stepPinger? {m : PingerMove} (h : s.stepPinger? now m = some s') :
    Posts s (s.enqueued (.move now (.pinger m))) [] s' := by
  have hends : ∀ e, some (s.endPinger now e) = some s' → Posts s [] [] s' := by
    intro e he
    cases he
    obtain ⟨_, _, hend⟩ := s.eq_of_endPinger now e
    rw [hend]
    exact .still rfl rfl
  unfold State.stepPinger? at h
  split at h
  -- it starts, and ticks
  next =>
    split at h
    next =>
      split at h
      next => cases h; exact .still rfl rfl
      next => exact hends _ h
    next => cases h
  next =>
    split at h <;> cases h
    exact .still rfl rfl
  -- it queues a ping
  next =>
    simp only [State.enqueued]
    split at h
    next outgoing hsend =>
      cases h
      rw [accepts_of_offer hsend]
      exact .queues hsend rfl
    next hsend =>
      rw [accepts_of_refused hsend]
      exact hends _ h
    next => cases h
  -- it sees that it is told to stop, and its rest ends
  next =>
    split at h
    next => exact hends _ h
    next => cases h
  next =>
    split at h
    next => exact hends _ h
    next => cases h
  next =>
    obtain ⟨life, -, rfl⟩ := Option.map_eq_some_iff.mp h
    exact .still rfl rfl
  next => cases h

theorem posts_of_serve? {c : ClientEvent} (h : s.serve? c = some s') :
    Posts s (s.enqueued (.client c)) [] s' := by
  unfold State.serve? State.subscribe? at h
  split at h
  next =>
    split at h <;> cases h
    exact .still rfl rfl
  next =>
    split at h
    next =>
      split at h <;> cases h
      obtain ⟨_, _, hset⟩ := State.eq_of_setBlocks s _ _
      rw [hset]
      exact .still rfl rfl
    next => cases h
  next =>
    split at h <;> cases h
    obtain ⟨_, _, hset⟩ := State.eq_of_setBlocks s _ _
    rw [hset]
    exact .still rfl rfl
  next m =>
    simp only [State.enqueued]
    split at h <;> cases h
    next outgoing hsend =>
      rw [accepts_of_offer hsend]
      exact .queues hsend rfl

/-- **What an event does to the messages on their way to the agent.** -/
theorem posts_of_act? {e : Event} (h : s.act? e = some s') :
    Posts s (s.enqueued e) (written (s.calls e)) s' := by
  cases e with
  | move now m =>
    cases moves_of_step? h with
    | @stage m hmove =>
      have hcalls : written (s.calls (.move now (.stage m))) = [] := by cases m <;> rfl
      rw [hcalls]
      exact posts_of_stepStage? hmove
    | sender hmove => exact posts_of_stepSender? hmove
    | @receiver m hmove =>
      have hcalls : written (s.calls (.move now (.receiver m))) = [] := by
        cases m with
        | stops => cases hreceiver : s.receiver <;> simp only [State.calls, hreceiver] <;> rfl
        | _ => rfl
      rw [hcalls]
      obtain ⟨_, _, _, _, rfl⟩ := eq_of_stepReceiver? hmove
      exact .still rfl rfl
    | decoder hmove =>
      obtain ⟨_, _, _, _, _, rfl⟩ := eq_of_stepDecoder? hmove
      exact .still rfl rfl
    | pinger hmove => exact posts_of_stepPinger? hmove
  | client c => exact posts_of_serve? h
  | cancel =>
    cases h
    exact .still rfl rfl
  | drop =>
    simp only [State.act?] at h
    split at h <;> cases h
    exact .drops rfl rfl rfl

/-! ## Runs -/

/-- How the messages that were queued relate to those that the sender was to write. -/
structure Posted (queued written : List Message) (s : State) : Prop where
  sublist : (written ++ s.sender.pending ++ s.outgoing.items).Sublist queued
  fits : ∀ m ∈ written ++ s.sender.pending, Frame.wireLength m ≤ Frame.maxLength
  gone : s.sender.isOver = true → s.outgoing.listening = false

namespace Posted

variable {queued written new ended : List Message}

theorem next (h : Posted queued written s) (hposts : Posts s new ended s') :
    Posted (queued ++ new) (written ++ ended) s' := by
  have hsublist := h.sublist
  have hfits := h.fits
  cases hposts with
  | still hsender houtgoing =>
    rw [List.append_nil, List.append_nil]
    exact ⟨by rw [hsender, houtgoing]; exact hsublist, by rw [hsender]; exact hfits,
      by rw [hsender, houtgoing]; exact h.gone⟩
  | @queues m _ hoffer hsender =>
    rw [List.append_nil]
    obtain ⟨hlistening, -⟩ := Queue.eq_of_offer hoffer
    refine ⟨?_, by rw [hsender]; exact hfits, fun hover => ?_⟩
    · rw [hsender, Queue.items_offer hoffer, ← List.append_assoc]
      exact hsublist.append (List.Sublist.refl [m])
    · rw [hsender] at hover
      rw [h.gone hover] at hlistening
      cases hlistening
  | @takes m _ htake hm hsender hsender' =>
    rw [List.append_nil, List.append_nil]
    obtain ⟨hitems, -⟩ := Queue.eq_of_take? htake
    rw [hsender, Sender.pending_waiting, List.append_nil] at hsublist hfits
    refine ⟨?_, ?_, by rw [hsender']; nofun⟩
    · rw [hsender', Sender.pending_writing, List.append_assoc, List.singleton_append, ← hitems]
      exact hsublist
    · rw [hsender', Sender.pending_writing]
      intro m' hm'
      rcases List.mem_append.mp hm' with hm' | hm'
      · exact hfits m' hm'
      · rw [List.mem_singleton.mp hm']
        exact hm
  | @skips m _ htake hlarge hsender =>
    rw [List.append_nil, List.append_nil]
    obtain ⟨hitems, hq⟩ := Queue.eq_of_take? htake
    refine ⟨?_, by rw [hsender]; exact hfits, fun hover => ?_⟩
    · rw [hitems] at hsublist
      rw [hsender]
      exact (List.Sublist.append_left (List.sublist_cons_self m _) _).trans hsublist
    · rw [hsender] at hover
      rw [hq]
      exact h.gone hover
  | @writes m _ houtgoing hsender hsender' =>
    rw [List.append_nil]
    rw [hsender] at hsublist hfits
    refine ⟨?_, ?_, by rw [hsender']; nofun⟩
    · rw [hsender', houtgoing, Sender.pending_waiting, List.append_nil]
      exact hsublist
    · rw [hsender', Sender.pending_waiting, List.append_nil]
      exact hfits
  | ends houtgoing hsender =>
    rw [List.append_nil]
    refine ⟨?_, ?_, fun _ => by rw [houtgoing]; rfl⟩
    · rw [hsender, houtgoing, Sender.pending_finished, List.append_nil]
      exact (List.Sublist.append_left (List.nil_sublist _) _).trans hsublist
    · rw [hsender, Sender.pending_finished, List.append_nil]
      exact hfits
  | drops houtgoing hstage hsender =>
    rw [List.append_nil, List.append_nil]
    refine ⟨?_, by rw [hsender]; exact hfits, fun _ => by rw [houtgoing]; rfl⟩
    rw [hsender, houtgoing]
    exact (List.Sublist.append_left (List.nil_sublist _) _).trans hsublist

/-- Once the sender is over, nothing can be queued. -/
theorem send_eq_refused (h : Posted queued written s) (hover : s.sender.isOver = true)
    (m : Message) : s.send m = .refused :=
  Queue.offer_of_not_listening (h.gone hover) m

end Posted

theorem posted_of_new? {id : UInt32} {conn : Connection} {hook : HookConfig} {r : Block.Registry}
    {policy : RestartPolicy} (h : new? id conn hook r policy = some s) : Posted [] [] s := by
  obtain ⟨-, rfl⟩ := eq_of_new? h
  exact ⟨List.Sublist.refl _, nofun, nofun⟩

theorem posted_of_run? {id : UInt32} {conn : Connection} {hook : HookConfig} {r : Block.Registry}
    {policy : RestartPolicy} {t : List Event} (h : new? id conn hook r policy = some s)
    (hrun : run? State.act? s t = some s') :
    Posted (queued s t) (written (calls s t)) s' := by
  refine run?_invariant (motive := fun t s' => Posted (queued s t) (written (calls s t)) s')
    (posted_of_new? h) ?_ hrun
  intro past s₁ e s₂ hpast hposted hact
  rw [queued_concat hpast, calls_concat hpast, written_append]
  exact hposted.next (posts_of_act? hact)

end Wiretap.Session
