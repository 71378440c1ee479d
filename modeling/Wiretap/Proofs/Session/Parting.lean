import Wiretap.Proofs.Session.Call
import Wiretap.Proofs.Session.Ending

/-!
# Parting from the agent

Two tasks of a session may close its connection: the receiver at the end of the stream, and the
session's own task in the end. Only the first call to close it has an effect, so over a whole run
the agent is told to unload at most once, and the channel is closed once.

Results:

* `parts_of_act?`: what an event does to the closing of the connection.
* `Parted.next`: what was done to close the connection and what is left of it make up one closing,
  and nothing follows it as long as the end of the stream was not seen.
* `parted_of_run?`: this holds after every run of a new session.
-/

namespace Wiretap

/-- What is left to be done to close a connection. -/
def Closing.rest : Closing → List Session.Parting
  | .farewell => [.farewell, .hangUp]
  | .hangUp => [.hangUp]
  | .done _ => []

namespace Session

/-- What it takes to close a connection, for an owner of the agent or somebody else. -/
def partingPlan (owner : Bool) : List Parting := if owner then [.farewell, .hangUp] else [.hangUp]

def Receiver.rest : Receiver → List Parting
  | .closing stage => stage.rest
  | _ => []

def Stage.rest : Stage → List Parting
  | .closing stage => stage.rest
  | _ => []

def State.rest (s : State) : List Parting := s.receiver.rest ++ s.stage.rest

variable {s s' : State} {now : Nat}

theorem Receiver.rest_of_isOver {r : Receiver} (h : r.isOver = true) : r.rest = [] := by
  cases r <;> first | rfl | cases h

theorem Stage.rest_of_not_closing {stage : Stage} (h : stage.isClosing = false) :
    stage.rest = [] := by
  cases stage <;> first | rfl | cases h

theorem rest_beginClose (c : Connection) :
    c.beginClose.2.rest = if c.closed then [] else partingPlan c.owner := by
  unfold Connection.beginClose partingPlan
  cases c.closed <;> cases c.owner <;> rfl

theorem owner_beginClose (c : Connection) : c.beginClose.1.owner = c.owner := by
  unfold Connection.beginClose
  split <;> rfl

theorem rest_stageAfter (closing : Closing) : (State.stageAfter closing).rest = closing.rest := by
  cases closing <;> rfl

theorem isClosing_stageAfter (closing : Closing) :
    (State.stageAfter closing).isClosing = true := by
  cases closing <;> rfl

/-! ## One event -/

/-- What an event, with these calls, does to the closing of the connection. -/
inductive Parts (s : State) : List Call → State → Prop where
  | alone {cs : List Call} {s' : State} (hcalls : ∀ c ∈ cs, c.parting? = none)
      (hconn : s'.conn = s.conn) (hrest : s'.rest = s.rest) : Parts s cs s'
  /-- The receiver has seen the end of the stream. -/
  | leaves {c : Call} {s' : State} (hcall : c.parting? = none) (hend : c.isEnd = true)
      (hconn : s'.conn = s.conn.beginClose.1) (hrest : s.rest = [])
      (hrest' : s'.rest = s.conn.beginClose.2.rest) : Parts s [c] s'
  | gathers {s' : State} (hclosing : s'.stage.isClosing = true)
      (hconn : s'.conn = s.conn.beginClose.1) (hrest : s.rest = [])
      (hrest' : s'.rest = s.conn.beginClose.2.rest) : Parts s [] s'
  | proceeds {c : Call} {p : Parting} {s' : State} (hcall : c.parting? = some p)
      (hconn : s'.conn = s.conn) (hrest : s.rest = p :: s'.rest) : Parts s [c] s'

theorem State.rest_of_servicesOver (h : s.servicesOver = true) : s.rest = s.stage.rest := by
  obtain ⟨-, hreceiver, -, -⟩ := State.servicesOver_iff.mp h
  rw [State.rest, Receiver.rest_of_isOver hreceiver, List.nil_append]

theorem State.rest_of_not_closing (h : s.stage.isClosing = false) : s.rest = s.receiver.rest := by
  rw [State.rest, Stage.rest_of_not_closing h, List.append_nil]

/-- The session's own task goes on and has not come to closing the connection. -/
theorem Parts.waits {stage : Stage} {halted : Bool} {outgoing : Queue Message}
    (hstage : s.stage.isClosing = false) (hstage' : stage.isClosing = false) :
    Parts s [] { s with stage, halted, outgoing } := by
  refine .alone (List.forall_mem_nil _) rfl ?_
  rw [State.rest_of_not_closing hstage]
  exact State.rest_of_not_closing hstage'

theorem parts_of_stepStage? (ho : Orderly s) {m : StageMove} (h : s.stepStage? now m = some s') :
    Parts s (s.calls (.move now (.stage m))) s' := by
  unfold State.stepStage? State.primeNext? at h
  split at h
  -- it starts, heeds that it is cancelled, and primes the agent
  next hstage =>
    cases h
    exact .waits (congrArg Stage.isClosing hstage) rfl
  next hstage =>
    split at h <;> cases h
    exact .waits (congrArg Stage.isClosing hstage) rfl
  next hstage =>
    split at h <;> cases h
    exact .waits (congrArg Stage.isClosing hstage) rfl
  next hstage =>
    split at h <;> cases h
    exact .waits (congrArg Stage.isClosing hstage) rfl
  next hstage =>
    split at h <;> cases h
    exact .waits (congrArg Stage.isClosing hstage) rfl
  next hstage =>
    split at h
    next =>
      cases h
      exact .waits (congrArg Stage.isClosing hstage) rfl
    next =>
      split at h <;> cases h
      · exact .waits (congrArg Stage.isClosing hstage) rfl
      · exact .waits (congrArg Stage.isClosing hstage) rfl
  -- it closes the connection
  next hstage =>
    split at h <;> cases h
    next hover =>
      have hreceiver := Receiver.rest_of_isOver (State.servicesOver_iff.mp hover).2.1
      refine .gathers (isClosing_stageAfter _) rfl ?_ ?_
      · rw [State.rest_of_servicesOver hover, hstage]
        rfl
      · rw [State.rest, hreceiver, List.nil_append]
        exact rest_stageAfter _
  next hstage =>
    cases h
    have hover := (ho.closing (congrArg Stage.isClosing hstage)).1
    refine .proceeds (p := .farewell) rfl rfl ?_
    rw [State.rest_of_servicesOver hover, hstage, State.rest]
    rw [Receiver.rest_of_isOver (State.servicesOver_iff.mp hover).2.1]
    rfl
  next hstage =>
    cases h
    have hover := (ho.closing (congrArg Stage.isClosing hstage)).1
    refine .proceeds (p := .hangUp) rfl rfl ?_
    rw [State.rest_of_servicesOver hover, hstage, State.rest]
    rw [Receiver.rest_of_isOver (State.servicesOver_iff.mp hover).2.1]
    rfl
  next => cases h

theorem parts_of_stepReceiver? {m : ReceiverMove} (h : s.stepReceiver? m = some s')
    (hclosing : s.stage.isClosing = false) :
    Parts s (s.calls (.move now (.receiver m))) s' := by
  have hrest := State.rest_of_not_closing hclosing
  have hgoesOn : ∀ {receiver buffer inbound} {cs : List Call}, (∀ c ∈ cs, c.parting? = none) →
      s.receiver.rest = [] → receiver.rest = [] →
      Parts s cs { s with receiver, buffer, inbound } := by
    intro receiver buffer inbound cs hcs hreceiver hreceiver'
    refine .alone hcs rfl ?_
    show receiver.rest ++ s.stage.rest = s.rest
    rw [hrest, hreceiver, hreceiver', Stage.rest_of_not_closing hclosing, List.append_nil]
  unfold State.stepReceiver? State.endReceiver at h
  split at h
  -- it decodes, and offers
  next hreceiver =>
    have hreceiver := congrArg Receiver.rest hreceiver
    split at h
    all_goals
      cases h
      exact hgoesOn (List.forall_mem_nil _) hreceiver (by first | rfl | exact hreceiver)
  next hreceiver =>
    have hreceiver := congrArg Receiver.rest hreceiver
    split at h <;> cases h
    · exact hgoesOn (List.forall_mem_nil _) hreceiver rfl
    · exact hgoesOn (List.forall_mem_nil _) hreceiver rfl
  -- it reads
  next r hreceiver =>
    have hnone : s.receiver.rest = [] := congrArg Receiver.rest hreceiver
    have hread : ∀ c ∈ [Call.read (some r)], c.parting? = none := by simp [Call.parting?]
    split at h
    next =>
      cases h
      exact hgoesOn hread hnone rfl
    next f hreceived =>
      split at h
      next hend =>
        have hend : (Call.read (some r)).isEnd = true := by rw [Call.isEnd_read hreceived, hend]
        cases hbegin : s.conn.beginClose with
        | mk conn closing =>
          have hconn : conn = s.conn.beginClose.1 := by rw [hbegin]
          have hrest' : ∀ {s' : State}, s'.stage = s.stage → s'.receiver.rest = closing.rest →
              s'.rest = s.conn.beginClose.2.rest := by
            intro s' hstage hreceiver
            rw [State.rest, hstage, hreceiver, Stage.rest_of_not_closing hclosing, hbegin]
            exact List.append_nil _
          rw [hbegin] at h
          cases closing <;> cases h
          · exact .leaves rfl hend hconn (hrest.trans hnone) (hrest' rfl rfl)
          · exact .leaves rfl hend hconn (hrest.trans hnone) (hrest' rfl rfl)
          · exact .leaves rfl hend hconn (hrest.trans hnone) (hrest' rfl rfl)
      next =>
        cases h
        exact hgoesOn hread hnone rfl
  -- it sees that it is told to stop
  next hreceiver =>
    split at h <;> cases h
    refine hgoesOn ?_ (congrArg Receiver.rest hreceiver) rfl
    exact fun c hc => parting?_of_isQuiet rfl hc
  next hreceiver =>
    split at h <;> cases h
    refine hgoesOn ?_ (congrArg Receiver.rest hreceiver) rfl
    exact fun c hc => parting?_of_isQuiet rfl hc
  -- it closes the connection
  next hreceiver =>
    cases h
    refine .proceeds (p := .farewell) rfl rfl ?_
    rw [hrest, hreceiver, State.rest_of_not_closing (by exact hclosing)]
    rfl
  next hreceiver =>
    cases h
    refine .proceeds (p := .hangUp) rfl rfl ?_
    rw [hrest, hreceiver, State.rest_of_not_closing (by exact hclosing)]
    rfl
  next => cases h

/-- **What an event does to the closing of the connection.** -/
theorem parts_of_act? (ho : Orderly s) {e : Event} (h : s.act? e = some s') :
    Parts s (s.calls e) s' := by
  have hquiet : e.isQuiet = true → s'.conn = s.conn → s'.rest = s.rest → Parts s (s.calls e) s' :=
    fun he => .alone fun c hc => parting?_of_isQuiet he hc
  cases e with
  | move now m =>
    have hstep : s.step? now m = some s' := h
    cases moves_of_step? hstep with
    | stage hmove => exact parts_of_stepStage? ho hmove
    | sender hmove =>
      obtain ⟨_, _, rfl⟩ := eq_of_stepSender? hmove
      exact hquiet rfl rfl rfl
    | receiver hmove =>
      have hrunning := ho.servicesOver_of_moves (moves_of_step? hstep) fun _ => nofun
      exact parts_of_stepReceiver? hmove (ho.not_closing hrunning)
    | decoder hmove =>
      obtain ⟨_, _, _, _, _, rfl⟩ := eq_of_stepDecoder? hmove
      exact hquiet rfl rfl rfl
    | pinger hmove =>
      obtain ⟨_, _, _, rfl⟩ := eq_of_stepPinger? hmove
      exact hquiet rfl rfl rfl
  | client c =>
    obtain ⟨_, _, _, _, rfl⟩ := eq_of_serve? h
    exact hquiet rfl rfl rfl
  | cancel =>
    cases h
    exact hquiet rfl rfl rfl
  | drop =>
    simp only [State.act?] at h
    split at h <;> cases h
    next hstage =>
      refine hquiet rfl rfl ?_
      rw [State.rest, State.rest, hstage]
      rfl

theorem isClosing_of_act? {e : Event} (h : s.act? e = some s') (hs : s.stage.isClosing = true) :
    s'.stage.isClosing = true := by
  cases advances_of_act? h with
  | moves hstep =>
    cases hstep with
    | heeds hactive | primes hactive =>
      rw [Stage.isClosing_of_isActive hactive] at hs
      cases hs
    | starts hstage | gathers hstage =>
      rw [hstage] at hs
      cases hs
    | bids => rfl
    | finishes => rfl
  | stands _ hstanding =>
    have hstage : s'.stage = s.stage := congrArg Standing.stage hstanding
    rw [hstage, hs]
  | subscribes => exact hs
  | cancels => exact hs
  | drops hstage =>
    rw [hstage] at hs
    cases hs

/-- The services are over by the time the session's own task closes the connection, so that all it
still does to the channel is part of that. -/
theorem isSome_parting?_of_isClosing (ho : Orderly s) {e : Event} (h : s.act? e = some s')
    (hs : s.stage.isClosing = true) {c : Call} (hc : c ∈ s.calls e) : c.parting?.isSome = true := by
  have hover := (ho.closing hs).1
  cases e with
  | move now m =>
    have hmoves := moves_of_step? h
    cases m with
    | stage m =>
      cases m with
      | wroteFarewell r => rw [List.mem_singleton.mp hc]; rfl
      | hungUp r => rw [List.mem_singleton.mp hc]; rfl
      | _ => cases hc
    | _ =>
      rw [ho.servicesOver_of_moves hmoves fun _ => nofun] at hover
      cases hover
  | _ => cases hc

/-! ## Runs -/

/-- The calls of a session whose connection is its own agent's, or not, up to a state of it. -/
structure Parted (owner : Bool) (cs : List Call) (s : State) : Prop where
  orderly : Orderly s
  owner_eq : s.conn.owner = owner
  /-- The first call to close the connection begins what is to be done, and nobody else does. -/
  whole : partings cs ++ s.rest = if s.conn.closed then partingPlan owner else []
  /-- Where the end of the stream was not seen, only the session's own task closes it. -/
  closing : (∀ c ∈ cs, c.isEnd = false) → s.conn.closed = true → s.stage.isClosing = true
  last : (∀ c ∈ cs, c.isEnd = false) → ∃ traffic parting, cs = traffic ++ parting ∧
    (∀ c ∈ traffic, c.parting? = none) ∧ (∀ c ∈ parting, c.parting?.isSome = true) ∧
    (s.stage.isClosing = false → parting = [])

namespace Parted

variable {owner : Bool} {cs : List Call}

/-- Before anybody closes the connection nothing is done to that end. -/
theorem quiet (h : Parted owner cs s) (hopen : s.conn.closed = false) :
    partings cs = [] ∧ s.rest = [] := by
  have hwhole := h.whole
  rw [hopen] at hwhole
  exact List.append_eq_nil_iff.mp hwhole

theorem whole_next (h : Parted owner cs s) {e : Event} (hact : s.act? e = some s') :
    s'.conn.owner = owner ∧
      partings (cs ++ s.calls e) ++ s'.rest = if s'.conn.closed then partingPlan owner else [] := by
  have hbegins : s'.conn = s.conn.beginClose.1 → s.rest = [] →
      s'.rest = s.conn.beginClose.2.rest → partings (s.calls e) = [] → s'.conn.owner = owner ∧
      partings (cs ++ s.calls e) ++ s'.rest = if s'.conn.closed then partingPlan owner else [] := by
    intro hconn hrest hrest' hcalls
    have hwhole := h.whole
    rw [hrest, List.append_nil] at hwhole
    have howner : s'.conn.owner = owner := by rw [hconn, owner_beginClose, h.owner_eq]
    refine ⟨howner, ?_⟩
    rw [partings_append, hcalls, List.append_nil, hwhole, hrest', rest_beginClose, h.owner_eq,
      hconn, s.conn.closed_beginClose]
    cases s.conn.closed
    · rfl
    · exact List.append_nil _
  generalize hcs : s.calls e = cs' at hbegins ⊢
  have hparts := parts_of_act? h.orderly hact
  rw [hcs] at hparts
  cases hparts with
  | alone hcalls hconn hrest =>
    rw [hconn, hrest, partings_append, partings_eq_nil hcalls, List.append_nil]
    exact ⟨h.owner_eq, h.whole⟩
  | leaves hcall _ hconn hrest hrest' =>
    exact hbegins hconn hrest hrest' (partings_eq_nil fun c hc => List.mem_singleton.mp hc ▸ hcall)
  | gathers _ hconn hrest hrest' => exact hbegins hconn hrest hrest' rfl
  | proceeds hcall hconn hrest =>
    have hwhole := h.whole
    rw [hrest] at hwhole
    rw [hconn, partings_append, partings_singleton hcall, List.append_assoc]
    exact ⟨h.owner_eq, hwhole⟩

theorem closing_next (h : Parted owner cs s) {e : Event} (hact : s.act? e = some s')
    (hend : ∀ c ∈ cs ++ s.calls e, c.isEnd = false) (hclosed : s'.conn.closed = true) :
    s'.stage.isClosing = true := by
  have hbefore : s.conn.closed = true → s'.stage.isClosing = true := fun hs =>
    isClosing_of_act? hact (h.closing (fun c hc => hend c (List.mem_append_left _ hc)) hs)
  have hnow : ∀ c ∈ s.calls e, c.isEnd = false := fun c hc => hend c (List.mem_append_right _ hc)
  generalize hcs : s.calls e = cs' at hnow
  have hparts := parts_of_act? h.orderly hact
  rw [hcs] at hparts
  cases hparts with
  | alone _ hconn => exact hbefore (hconn ▸ hclosed)
  | leaves _ hcall =>
    rw [hnow _ List.mem_cons_self] at hcall
    cases hcall
  | gathers hclosing => exact hclosing
  | proceeds _ hconn => exact hbefore (hconn ▸ hclosed)

theorem last_next (h : Parted owner cs s) {e : Event} (hact : s.act? e = some s')
    (hend : ∀ c ∈ cs ++ s.calls e, c.isEnd = false) :
    ∃ traffic parting, cs ++ s.calls e = traffic ++ parting ∧
      (∀ c ∈ traffic, c.parting? = none) ∧ (∀ c ∈ parting, c.parting?.isSome = true) ∧
      (s'.stage.isClosing = false → parting = []) := by
  have hbefore : ∀ c ∈ cs, c.isEnd = false := fun c hc => hend c (List.mem_append_left _ hc)
  obtain ⟨traffic, parting, hcs, htraffic, hparting, hnone⟩ := h.last hbefore
  cases hclosing : s.stage.isClosing with
  | true =>
    -- the traffic is over, and this is part of the closing
    refine ⟨traffic, parting ++ s.calls e, ?_, htraffic, ?_, ?_⟩
    · rw [hcs, List.append_assoc]
    · intro c hc
      rcases List.mem_append.mp hc with hc | hc
      · exact hparting c hc
      · exact isSome_parting?_of_isClosing h.orderly hact hclosing hc
    · intro hclosing'
      rw [isClosing_of_act? hact hclosing] at hclosing'
      cases hclosing'
  | false =>
    -- nobody has begun to close the connection, so this is traffic
    have hopen : s.conn.closed = false := by
      cases hclosed : s.conn.closed with
      | false => rfl
      | true =>
        rw [h.closing hbefore hclosed] at hclosing
        cases hclosing
    have hcalls : ∀ c ∈ s.calls e, c.parting? = none := by
      have hrest := (h.quiet hopen).2
      have hparts := parts_of_act? h.orderly hact
      generalize s.calls e = cs' at hparts
      cases hparts with
      | alone hcalls => exact hcalls
      | leaves hcall => exact fun c hc => List.mem_singleton.mp hc ▸ hcall
      | gathers => exact List.forall_mem_nil _
      | proceeds _ _ hleft =>
        rw [hleft] at hrest
        cases hrest
    refine ⟨traffic ++ s.calls e, [], ?_, ?_, List.forall_mem_nil _, fun _ => rfl⟩
    · rw [hcs, hnone hclosing, List.append_nil, List.append_nil]
    · intro c hc
      rcases List.mem_append.mp hc with hc | hc
      · exact htraffic c hc
      · exact hcalls c hc

/-- **One event** keeps the order in which a session parts from its agent. -/
theorem next (h : Parted owner cs s) {e : Event} (hact : s.act? e = some s') :
    Parted owner (cs ++ s.calls e) s' where
  orderly := h.orderly.next hact
  owner_eq := (h.whole_next hact).1
  whole := (h.whole_next hact).2
  closing := h.closing_next hact
  last := h.last_next hact

/-- A session that is over has closed its connection, and has done all that this takes. -/
theorem partings_of_isOver (h : Parted owner cs s) (hover : s.isOver = true) :
    partings cs = partingPlan owner := by
  have hended := h.orderly.hasEnded hover
  have hwhole := h.whole
  rw [hended.closed, State.rest_of_servicesOver hended.services] at hwhole
  cases hstage : s.stage with
  | finished =>
    rw [hstage] at hwhole
    exact (List.append_nil _).symm.trans hwhole
  | _ => rw [State.isOver, hstage] at hover; cases hover

end Parted

theorem parted_of_new? {id : UInt32} {owner : Bool} {hook : HookConfig} {r : Block.Registry}
    {policy : RestartPolicy} (h : new? id { owner } hook r policy = some s) :
    Parted owner [] s := by
  have ho := orderly_of_new? h
  obtain ⟨-, rfl⟩ := eq_of_new? h
  exact ⟨ho, rfl, rfl, fun _ hclosed => absurd hclosed Bool.false_ne_true, fun _ =>
    ⟨[], [], rfl, List.forall_mem_nil _, List.forall_mem_nil _, fun _ => rfl⟩⟩

/-- **Every run of a new session** parts from the agent in that order. -/
theorem parted_of_run? {id : UInt32} {owner : Bool} {hook : HookConfig} {r : Block.Registry}
    {policy : RestartPolicy} {t : List Event} (h : new? id { owner } hook r policy = some s)
    (hrun : run? State.act? s t = some s') : Parted owner (calls s t) s' := by
  refine run?_invariant (motive := fun t s' => Parted owner (calls s t) s') (parted_of_new? h) ?_ hrun
  intro past s₁ e s₂ hpast hparted hact
  rw [calls_concat hpast]
  exact hparted.next hact

end Session
end Wiretap
