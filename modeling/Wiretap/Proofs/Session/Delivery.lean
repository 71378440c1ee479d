import Wiretap.Proofs.Session.Progress
import Wiretap.Proofs.Session.Stage

/-!
# Delivery of blocks

What the flow of traffic comes to for a subscriber, over all runs of a session.

Results:

* `Accounted.next`: every event keeps account of the traffic.
* `delivers`: a subscriber receives what one decoder makes of all that was read, a part of it at any
  time and all of it in the end.
-/

namespace Wiretap.Session

variable {r : Block.Registry} {s s' : State} {d : Block.Direction}

/-! ## Runs -/

/-- All the traffic of a session is accounted for, after these events. -/
structure Accounted (r : Block.Registry) (t : List Event) (s : State) : Prop where
  flow : s.stage ≠ .dropped → ∃ handled, Flow r (t.map Event.exchange) handled s.pipeline s.halted
  fresh : s.hasStarted = false → bytesRead (t.map Event.exchange) = [] ∧ s.receiver.isOver = false ∧
    ∀ d, received d (t.map Event.exchange) ++ (s.blocks d).items = []
  cancelled_of_halted : s.halted = true → s.cancelled = true
  mem_of_cancelled : s.cancelled = true → .cancel ∈ t
  subscribed_of_mem : ∀ d, .client (.subscribe d) ∈ t → d ∈ s.subscribed

/-- Nothing goes in or out before a session has started. -/
theorem idle_of_act? {e : Event} (h : s.act? e = some s') (hidle : s.hasStarted = false) :
    bytesRead [e.exchange] = [] ∧ s'.receiver = s.receiver ∧
      ∀ d, received d [e.exchange] ++ (s'.blocks d).items <+: (s.blocks d).items := by
  cases e with
  | move now m =>
    cases m with
    | stage m =>
      have hpipeline := pipeline_stepStage? h
      refine ⟨rfl, congrArg Pipeline.receiver hpipeline, fun d => ?_⟩
      rw [show s'.blocks d = s.blocks d from congrFun (congrArg Pipeline.blocks hpipeline) d]
      exact List.prefix_rfl
    | _ => simp [State.act?, State.step?, hidle] at h
  | client c =>
    have h : s.serve? c = some s' := h
    cases c with
    | subscribe d =>
      simp only [State.serve?, State.subscribe?] at h
      split at h <;> cases h
      exact ⟨rfl, rfl, fun _ => List.prefix_rfl⟩
    | receive d b =>
      simp only [State.serve?] at h
      split at h
      next b' q htake =>
        obtain ⟨hitems, -⟩ := Queue.eq_of_take? htake
        split at h <;> cases h
        next hb =>
          obtain ⟨-, rfl⟩ := hb
          refine ⟨rfl, congrArg Pipeline.receiver (s.pipeline_setBlocks d q), fun d' => ?_⟩
          rw [State.blocks_setBlocks]
          by_cases hd : d' = d
          · subst hd
            simp [Event.exchange, received, hitems]
          · simp [Event.exchange, received, hd, Ne.symm hd]
      next => cases h
    | unsubscribe d =>
      simp only [State.serve?] at h
      split at h <;> cases h
      refine ⟨rfl, congrArg Pipeline.receiver (s.pipeline_setBlocks d _), fun d' => ?_⟩
      rw [State.blocks_setBlocks]
      split
      next => exact List.nil_prefix
      next => exact List.prefix_rfl
    | send m =>
      simp only [State.serve?] at h
      split at h <;> cases h
      exact ⟨rfl, rfl, fun _ => List.prefix_rfl⟩
  | cancel =>
    cases h
    exact ⟨rfl, rfl, fun _ => List.prefix_rfl⟩
  | drop =>
    simp only [State.act?] at h
    split at h <;> cases h
    refine ⟨rfl, rfl, fun d => ?_⟩
    cases d <;> exact List.prefix_rfl

namespace Accounted

variable {t : List Event}

theorem flow_next (h : Accounted r t s) {e : Event} (he : s.act? e = some s')
    (hdropped : s'.stage ≠ .dropped) :
    ∃ handled, Flow r ((t ++ [e]).map Event.exchange) handled s'.pipeline s'.halted := by
  have hadvances := advances_of_act? he
  have hdrop : e ≠ .drop := by
    rintro rfl
    simp only [State.act?] at he
    split at he <;> cases he
    exact hdropped rfl
  obtain ⟨handled, hflow⟩ := h.flow fun hs => hdropped (hadvances.dropped hs)
  obtain ⟨handled', hflow'⟩ := hflow.passes (passes_of_act? he hdrop)
  rw [List.map_append, List.map_singleton]
  refine ⟨handled', ?_⟩
  cases hhalted : s.halted with
  | true =>
    rw [hadvances.halted hhalted, ← hhalted]
    exact hflow'
  | false =>
    rw [hhalted] at hflow'
    exact hflow'.halts s'.halted

theorem fresh_next (h : Accounted r t s) {e : Event} (he : s.act? e = some s')
    (hidle' : s'.hasStarted = false) :
    bytesRead ((t ++ [e]).map Event.exchange) = [] ∧ s'.receiver.isOver = false ∧
      ∀ d, received d ((t ++ [e]).map Event.exchange) ++ (s'.blocks d).items = [] := by
  have hidle : s.hasStarted = false := by
    cases hs : s.hasStarted with
    | false => rfl
    | true => rw [(advances_of_act? he).hasStarted hs] at hidle'; cases hidle'
  obtain ⟨hread, hreceiver, hqueued⟩ := idle_of_act? he hidle
  obtain ⟨hread₀, hreceiver₀, hqueued₀⟩ := h.fresh hidle
  rw [List.map_append, List.map_singleton]
  refine ⟨?_, by rw [hreceiver, hreceiver₀], fun d => ?_⟩
  · rw [bytesRead_append, hread, hread₀, List.append_nil]
  · obtain ⟨hreceived, hitems⟩ := List.append_eq_nil_iff.mp (hqueued₀ d)
    rw [received_append, hreceived, List.nil_append]
    have hprefix := hqueued d
    rw [hitems] at hprefix
    exact List.prefix_nil.mp hprefix

theorem next (h : Accounted r t s) {e : Event} (he : s.act? e = some s') :
    Accounted r (t ++ [e]) s' where
  flow := h.flow_next he
  fresh := h.fresh_next he
  cancelled_of_halted := (advances_of_act? he).cancelled_of_halted h.cancelled_of_halted
  mem_of_cancelled hcancelled := by
    rw [List.mem_append, List.mem_singleton]
    exact ((advances_of_act? he).eq_cancel hcancelled).imp h.mem_of_cancelled Eq.symm
  subscribed_of_mem d hd := by
    rw [List.mem_append, List.mem_singleton] at hd
    exact (advances_of_act? he).mem_subscribed (hd.imp (h.subscribed_of_mem d) Eq.symm)

end Accounted

/-- A new session has no traffic. -/
theorem accounted_new? {id : UInt32} {conn : Connection} {hook : HookConfig}
    {policy : RestartPolicy} (h : new? id conn hook r policy = some s) : Accounted r [] s := by
  obtain ⟨hroom, rfl⟩ := eq_of_new? h
  refine {
    flow := fun _ => ⟨[], rfl, rfl, ?_, ?_⟩
    fresh := fun _ => ⟨rfl, rfl, fun d => by cases d <;> rfl⟩
    cancelled_of_halted := nofun
    mem_of_cancelled := nofun
    subscribed_of_mem := nofun }
  · exact {
      left_eq := rfl
      queued_isPrefix := List.nil_prefix
      whole := fun _ _ => rfl
      whole_over := nofun
      drained := nofun
      spent := nofun
      feeding_eq := rfl
      listening_eq := rfl
      room := hroom }
  · intro d
    refine {
      queued_isPrefix := ?_, whole := ?_, feeding_eq := ?_, listening_iff := ?_, room := ?_ }
    · cases d <;> exact List.nil_prefix
    · cases d <;> exact fun _ _ => rfl
    · cases d <;> rfl
    · cases d <;> simp [State.pipeline, State.blocks]
    · cases d <;> exact hroom

theorem accounted_of_run? {id : UInt32} {conn : Connection} {hook : HookConfig}
    {policy : RestartPolicy} {t : List Event} (h : new? id conn hook r policy = some s)
    (hrun : run? State.act? s t = some s') : Accounted r t s' :=
  run?_invariant (accounted_new? h) (fun _ hinv he => hinv.next he) hrun

/-! ## What a subscriber receives -/

theorem exchange_eq_unsubscribed_iff {e : Event} :
    e.exchange = .unsubscribed d ↔ e = .client (.unsubscribe d) := by
  constructor
  · intro h
    unfold Event.exchange at h
    split at h
    next => split at h <;> cases h
    next => cases h
    next => cases h; rfl
    next => cases h
  · rintro rfl
    rfl

theorem Event.exchange_of_drains {e : Event} (h : e.drains d = true) :
    bytesRead [e.exchange] = [] ∧ e ≠ .cancel ∧ ∀ d', e ≠ .client (.unsubscribe d') := by
  unfold Event.drains at h
  split at h
  next => exact ⟨rfl, nofun, nofun⟩
  next => exact ⟨rfl, nofun, nofun⟩
  next => exact ⟨rfl, nofun, nofun⟩
  next => exact ⟨rfl, nofun, nofun⟩
  next => exact ⟨rfl, nofun, nofun⟩
  next => cases h

theorem blocksIn_nil : blocksIn r d [] = [] := by
  rw [blocksIn, messagesIn_nil]
  rfl

theorem Flow.received_isPrefix {xs : List Exchange} {handled : List Message} {p : Pipeline}
    {halted : Bool} (h : Flow r xs handled p halted) (d : Block.Direction) :
    received d xs <+: blocksIn r d (bytesRead xs) := by
  have hhandled : handled <+: messagesIn (bytesRead xs) :=
    (List.prefix_append _ _).trans h.inlet.queued_isPrefix
  have hreceived : received d xs <+: select d (Block.run r {} handled).2 :=
    (List.prefix_append _ _).trans (h.outlet d).queued_isPrefix
  obtain ⟨rest, hrest⟩ := hhandled
  rw [blocksIn, ← hrest, Block.run_append, select_append]
  exact hreceived.trans (List.prefix_append _ _)

namespace Accounted

variable {t : List Event}

theorem received_isPrefix (h : Accounted r t s) (d : Block.Direction) :
    received d (t.map Event.exchange) <+: blocksIn r d (bytesRead (t.map Event.exchange)) := by
  by_cases hdropped : s.stage = .dropped
  · have hidle : s.hasStarted = false := by rw [State.hasStarted, hdropped]
    have hnone := (h.fresh hidle).2.2 d
    rw [(List.append_eq_nil_iff.mp hnone).1]
    exact List.nil_prefix
  · obtain ⟨handled, hflow⟩ := h.flow hdropped
    exact hflow.received_isPrefix d

theorem halted_eq (h : Accounted r t s) (hcancel : .cancel ∉ t) : s.halted = false := by
  cases hhalted : s.halted with
  | false => rfl
  | true => exact absurd (h.mem_of_cancelled (h.cancelled_of_halted hhalted)) hcancel

theorem received_of_idle (h : Accounted r t s) (hidle : s.hasStarted = false) :
    received d (t.map Event.exchange) = blocksIn r d (bytesRead (t.map Event.exchange)) := by
  obtain ⟨hread, -, hnone⟩ := h.fresh hidle
  rw [hread, blocksIn_nil, (List.append_eq_nil_iff.mp (hnone d)).1]

theorem listening_iff {handled : List Message} {halted : Bool}
    (hflow : Flow r (t.map Event.exchange) handled s.pipeline halted) :
    (s.blocks d).listening = true ↔ .client (.unsubscribe d) ∉ t := by
  have hlistening : (s.blocks d).listening = true ↔ .unsubscribed d ∉ t.map Event.exchange :=
    (hflow.outlet d).listening_iff
  rw [hlistening, List.mem_map]
  simp only [exchange_eq_unsubscribed_iff, exists_eq_right]

theorem received_of_ended (h : Accounted r t s) (hcancel : .cancel ∉ t)
    (hstays : .client (.unsubscribe d) ∉ t) (hended : (s.blocks d).ended = true) :
    received d (t.map Event.exchange) = blocksIn r d (bytesRead (t.map Event.exchange)) := by
  by_cases hdropped : s.stage = .dropped
  · exact h.received_of_idle (by rw [State.hasStarted, hdropped])
  · obtain ⟨handled, hflow⟩ := h.flow hdropped
    rw [h.halted_eq hcancel] at hflow
    exact hflow.received_of_ended ((listening_iff hflow).mpr hstays) hended

/-- Where nothing can be drained, a subscriber who has stayed has received everything, if the other
one has gone. -/
theorem received_of_stuck (h : Accounted r t s) (hcancel : .cancel ∉ t)
    (hsubscribed : .client (.subscribe d) ∈ t) (hstays : .client (.unsubscribe d) ∉ t)
    (hgone : ∀ d', d' ≠ d → .client (.unsubscribe d') ∈ t)
    (hstuck : ∀ e : Event, e.drains d = true → s.act? e = none) :
    received d (t.map Event.exchange) = blocksIn r d (bytesRead (t.map Event.exchange)) ∧
      (s.receiver.isOver = true → (s.blocks d).ended = true) := by
  cases hidle : s.hasStarted with
  | false =>
    refine ⟨h.received_of_idle hidle, fun hover => ?_⟩
    rw [(h.fresh hidle).2.1] at hover
    cases hover
  | true =>
    have hdropped : s.stage ≠ .dropped := by
      intro hdropped
      rw [State.hasStarted, hdropped] at hidle
      cases hidle
    obtain ⟨handled, hflow⟩ := h.flow hdropped
    have hother : ∀ d', d' ≠ d → (s.blocks d').listening = false := by
      intro d' hd
      have hleft : ¬(s.blocks d').listening = true := fun hlistening =>
        (listening_iff hflow).mp hlistening (hgone d' hd)
      simpa using hleft
    rw [h.halted_eq hcancel] at hflow
    exact hflow.delivered_of_stuck (stuck_of_act? hidle hstuck)
      (h.subscribed_of_mem d hsubscribed) ((listening_iff hflow).mpr hstays) hother

end Accounted

theorem bytesRead_of_drains {es : List Event} (hes : ∀ e ∈ es, e.drains d = true) :
    bytesRead (es.map Event.exchange) = [] := by
  induction es with
  | nil => rfl
  | cons e es ih =>
    have hread := (Event.exchange_of_drains (hes e List.mem_cons_self)).1
    rw [List.map_cons, ← List.singleton_append, bytesRead_append, hread, List.nil_append]
    exact ih fun e' he' => hes e' (List.mem_cons_of_mem e he')

/-- **Blocks are delivered.** After any run of a new session a subscriber has received the first of
the blocks that a fresh decoder forwards for the messages in the bytes that were read. In a session
that was not cancelled

* it has received all of them once it sees its stream end, unless it dropped that itself;
* if the other subscriber has dropped its stream, then handing on what the session holds comes to an
  end, in whatever order it is done, and by then all of them have been received. Its stream has
  ended by then if the receiver has seen the end of what it reads. -/
theorem delivers {id : UInt32} {conn : Connection} {hook : HookConfig} {policy : RestartPolicy}
    {s₀ : State} {t : List Event} (hnew : new? id conn hook r policy = some s₀)
    (hrun : run? State.act? s₀ t = some s) (d : Block.Direction) :
    let forwarded := blocksIn r d (bytesRead (t.map Event.exchange))
    received d (t.map Event.exchange) <+: forwarded ∧
      (.cancel ∉ t → .client (.unsubscribe d) ∉ t →
        ((s.blocks d).ended = true → received d (t.map Event.exchange) = forwarded) ∧
        (.client (.subscribe d) ∈ t → (∀ d', d' ≠ d → .client (.unsubscribe d') ∈ t) →
          ∀ es s', (∀ e ∈ es, e.drains d = true) → run? State.act? s es = some s' →
            es.length ≤ s.backlog d ∧
            ((∀ e : Event, e.drains d = true → s'.act? e = none) →
              received d ((t ++ es).map Event.exchange) = forwarded ∧
                (s'.receiver.isOver = true → (s'.blocks d).ended = true)))) := by
  intro forwarded
  have h := accounted_of_run? hnew hrun
  refine ⟨h.received_isPrefix d, fun hcancel hstays => ⟨h.received_of_ended hcancel hstays, ?_⟩⟩
  intro hsubscribed hgone es s' hes hrun'
  refine ⟨Nat.le_of_add_right_le (length_le_backlog hes hrun'), fun hstuck => ?_⟩
  have hall : run? State.act? s₀ (t ++ es) = some s' := by
    rw [run?_append, hrun]
    exact hrun'
  have hout : ∀ e ∈ es, e ≠ .cancel ∧ ∀ d', e ≠ .client (.unsubscribe d') :=
    fun e he => (Event.exchange_of_drains (hes e he)).2
  have hreceived := (accounted_of_run? hnew hall).received_of_stuck
    (by simp only [List.mem_append, not_or]; exact ⟨hcancel, fun hc => (hout _ hc).1 rfl⟩)
    (List.mem_append_left es hsubscribed)
    (by simp only [List.mem_append, not_or]; exact ⟨hstays, fun hc => (hout _ hc).2 d rfl⟩)
    (fun d' hd => List.mem_append_left es (hgone d' hd)) hstuck
  rw [List.map_append, bytesRead_append, bytesRead_of_drains hes, List.append_nil] at hreceived
  rw [List.map_append]
  exact hreceived

/-- One block comes through while nobody listens to the other direction, and then the
stream ends. -/
theorem delivers_one_block :
    let data : Bytes := Frame.bytes ⟨.recv, 1, List.replicate 48 0⟩
    let block : Block := ⟨0, 0, 0, 0, 0, .raw (List.replicate 16 0)⟩
    let opening : List Event :=
      [.client (.subscribe .egress), .client (.unsubscribe .egress), .client (.subscribe .ingress),
        .move 0 (.stage .start), .move 0 (.receiver .decodes),
        .move 0 (.receiver (.read (.ok data)))]
    let draining : List Event :=
      [.move 0 (.receiver .decodes), .move 0 (.receiver .offers), .move 0 (.receiver .decodes),
        .move 0 (.decoder .takes), .move 0 (.decoder .emits), .client (.receive .ingress block)]
    let ending : List Event :=
      [.move 0 (.receiver (.read (.error .endOfStream))), .move 0 (.receiver (.hungUp (.ok ()))),
        .move 0 (.decoder .takes)]
    ∃ s₀ s₁ s₂ s₃, new? 7 ⟨false, false⟩ {} {} {} = some s₀ ∧
      run? State.act? s₀ opening = some s₁ ∧ run? State.act? s₁ draining = some s₂ ∧
      run? State.act? s₀ (opening ++ draining ++ ending) = some s₃ ∧
      draining.length ≤ s₁.backlog .ingress ∧
      received .ingress ((opening ++ draining).map Event.exchange) = [block] ∧
      blocksIn {} .ingress data = [block] ∧ (s₃.blocks .ingress).ended = true := by
  intro data block opening draining ending
  obtain ⟨s₀, s₁, s₂, s₃, hnew, hopening, hdraining, hending, hended⟩ : ∃ s₀ s₁ s₂ s₃,
      new? 7 ⟨false, false⟩ {} {} {} = some s₀ ∧ run? State.act? s₀ opening = some s₁ ∧
      run? State.act? s₀ (opening ++ draining) = some s₂ ∧
      run? State.act? s₀ (opening ++ draining ++ ending) = some s₃ ∧
      (s₃.blocks .ingress).ended = true := ⟨_, _, _, _, rfl, rfl, rfl, rfl, rfl⟩
  rw [run?_append, hopening] at hdraining
  refine ⟨s₀, s₁, s₂, s₃, hnew, hopening, hdraining, hending, ?_, rfl, ?_, hended⟩
  · obtain ⟨-, hstill⟩ := delivers hnew hopening .ingress
    obtain ⟨-, hdrain⟩ := hstill (by simp [opening]) (by simp [opening])
    refine (hdrain (by simp [opening]) ?_ draining s₂ (by simp [draining, Event.drains])
      hdraining).1
    rintro (_ | _) hd
    · exact absurd rfl hd
    · simp [opening]
  · have hbytes : bytesRead ((opening ++ draining ++ ending).map Event.exchange) = data := rfl
    have hblocks : received .ingress ((opening ++ draining ++ ending).map Event.exchange) = [block] :=
      rfl
    obtain ⟨-, hstill⟩ := delivers hnew hending .ingress
    rw [hbytes, hblocks] at hstill
    obtain ⟨hall, -⟩ := hstill (by simp [opening, draining, ending])
      (by simp [opening, draining, ending])
    exact (hall hended).symm

end Wiretap.Session
