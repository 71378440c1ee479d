import Wiretap.Proofs.Request.Spelling
import Wiretap.Proofs.Session.Dispatch
import Wiretap.Proofs.Session.Ending
import Wiretap.Scenario.Live

/-!
# Requests to a session

Clients make requests of a session while it runs. A request that can be read waits until there is
room for its message in the queue of the session, or until the sender is gone.

Results:

* `attends_of_act?`: what an event does to the session and to its requests.
* `liveSend_eq`: a client of a scripted session is told what a waiting request comes to.
* `listening_eq_isLive`: the session takes messages exactly as long as it is live.
* `Attended.next`: what an event makes of the requests and of what they have queued.
* `requests_queue_their_message`: a request queues its message once, and one that is refused queues
  nothing.
-/

namespace Wiretap.Session

/-- Why a request was not accepted. -/
inductive Refusal where
  | unreadable (e : RequestError)
  /-- The sender of that session is gone. -/
  | senderClosed (id : UInt32)
  deriving DecidableEq, Repr

/-- How far a request is. -/
inductive Reply where
  /-- It waits until the session takes the message. -/
  | waits (m : Message)
  | answered (r : Except Refusal String)
  /-- Its client does not wait for it any more. -/
  | givenUp
  deriving DecidableEq

/-- A request, as it was sent. -/
structure Asked where
  bytes : Bytes
  reply : Reply

/-- A session and the requests that were made of it, oldest first. -/
structure Front where
  session : State
  asked : List Asked := []

/-- Something that happens to a session and to its requests. -/
inductive FrontEvent where
  | session (e : Event)
  | asks (bytes : Bytes)
  /-- The request of that number goes on. -/
  | settles (k : Nat)
  | givesUp (k : Nat)

/-- A new request, after it has been read. -/
def Asked.ofBytes (bytes : Bytes) : Asked where
  bytes := bytes
  reply :=
    match Request.decode bytes with
    | .ok m => .waits m
    | .error e => .answered (.error (.unreadable e))

/-- The session can send: it was not given up, and its sender is not over. -/
def State.isLive (s : State) : Bool :=
  match s.stage with
  | .dropped => false
  | _ => !s.sender.isOver

namespace Front

def answer (f : Front) (k : Nat) (reply : Reply) : Front :=
  { f with asked := f.asked.modify k ({ · with reply }) }

/-- A waiting request queues its message, or is told that it cannot. -/
def settle? (f : Front) (k : Nat) (m : Message) : Option Front :=
  match f.session.send m with
  | .accepted outgoing =>
    some ({ f with session := { f.session with outgoing } }.answer k
      (.answered (.ok Request.acknowledgement)))
  | .refused => some (f.answer k (.answered (.error (.senderClosed f.session.id))))
  | .full => none

/-- The session and its requests after an event, if that can happen now. -/
def act? (f : Front) : FrontEvent → Option Front
  | .session e => (f.session.act? e).map fun session => { f with session }
  | .asks bytes => some { f with asked := f.asked ++ [.ofBytes bytes] }
  | .settles k =>
    match f.asked[k]? with
    | some ⟨_, .waits m⟩ => f.settle? k m
    | _ => none
  | .givesUp k =>
    match f.asked[k]? with
    | some ⟨_, .waits _⟩ => some (f.answer k .givenUp)
    | _ => none

/-- The request that an event is about. -/
def subject? (f : Front) : FrontEvent → Option Nat
  | .session _ => none
  | .asks _ => some f.asked.length
  | .settles k | .givesUp k => some k

/-- What the request `k` adds to the queue of the session with an event. -/
def adds (k : Nat) (f : Front) (e : FrontEvent) : List Message :=
  if f.subject? e = some k then
    ((f.act? e).map fun f' =>
      f'.session.outgoing.items.drop f.session.outgoing.items.length).getD []
  else []

/-- What an event does to the session itself. -/
def own (f : Front) : FrontEvent → List Event
  | .session e => [e]
  | .settles k =>
    match f.asked[k]? with
    | some ⟨_, .waits m⟩ => (f.session.accepts m).map fun m => .client (.send m)
    | _ => []
  | _ => []

end Front

/-- What the request `k` has queued in the course of a run. -/
def sentBy (k : Nat) (f : Front) (t : List FrontEvent) : List Message :=
  history Front.act? (Front.adds k) f t

/-- What happens to the session itself in the course of a run. -/
def sessionEvents (f : Front) (t : List FrontEvent) : List Event :=
  history Front.act? Front.own f t

variable {f f' f₀ : Front} {k : Nat} {t : List FrontEvent} {e : FrontEvent}

theorem sentBy_concat (h : run? Front.act? f₀ t = some f) (e : FrontEvent) (k : Nat) :
    sentBy k f₀ (t ++ [e]) = sentBy k f₀ t ++ f.adds k e := history_concat t e h

/-! ## One event -/

/-- What an event does to the session and to its requests. -/
inductive Attends (f : Front) : FrontEvent → Front → Prop where
  | session {e : Event} {s' : State} (hact : f.session.act? e = some s') :
      Attends f (.session e) { f with session := s' }
  | asks {bytes : Bytes} : Attends f (.asks bytes) { f with asked := f.asked ++ [.ofBytes bytes] }
  | queues {k : Nat} {bytes : Bytes} {m : Message} {outgoing : Queue Message}
      (ha : f.asked[k]? = some ⟨bytes, .waits m⟩) (hsend : f.session.send m = .accepted outgoing) :
      Attends f (.settles k) ({ f with session := { f.session with outgoing } }.answer k
        (.answered (.ok Request.acknowledgement)))
  | refused {k : Nat} {bytes : Bytes} {m : Message} (ha : f.asked[k]? = some ⟨bytes, .waits m⟩)
      (hsend : f.session.send m = .refused) :
      Attends f (.settles k) (f.answer k (.answered (.error (.senderClosed f.session.id))))
  | givesUp {k : Nat} {bytes : Bytes} {m : Message} (ha : f.asked[k]? = some ⟨bytes, .waits m⟩) :
      Attends f (.givesUp k) (f.answer k .givenUp)

theorem attends_of_act? (h : f.act? e = some f') : Attends f e f' := by
  cases e with
  | session e =>
    obtain ⟨s', hact, rfl⟩ := Option.map_eq_some_iff.mp h
    exact .session hact
  | asks bytes =>
    cases h
    exact .asks
  | settles k =>
    simp only [Front.act?] at h
    split at h
    next bytes m ha =>
      unfold Front.settle? at h
      split at h <;> cases h
      next outgoing hsend => exact .queues ha hsend
      next hsend => exact .refused ha hsend
    next => cases h
  | givesUp k =>
    simp only [Front.act?] at h
    split at h <;> cases h
    next ha => exact .givesUp ha

/-- Where the session takes messages, a request is acknowledged if there is room. -/
theorem settle?_of_listening (h : f.session.outgoing.listening = true) (k : Nat) (m : Message) :
    f.settle? k m =
      if f.session.outgoing.hasRoom then
        some ({ f with session.outgoing.items := f.session.outgoing.items ++ [m] }.answer k
          (.answered (.ok "OK")))
      else none := by
  unfold Front.settle? State.send Queue.offer
  rw [if_pos h]
  cases f.session.outgoing.hasRoom <;> rfl

/-- **A client of a scripted session** is told what a request comes to that waits with its
message. -/
theorem liveSend_eq (l : Scenario.Live) (asked : List Asked) (k : Nat) (m : Message) :
    l.send m =
      match Front.settle? ⟨l.session, asked⟩ k m with
      | some f => ({ l with session := f.session },
          if l.session.outgoing.listening then .ok else .senderGone)
      | none => (l, .waits) := by
  unfold Scenario.Live.send Front.settle?
  cases hsend : l.session.send m with
  | accepted outgoing => simp only [(Queue.eq_of_offer hsend).1, if_true, Front.answer]
  | refused => simp only [Queue.not_listening_of_offer hsend, Front.answer]; rfl
  | full => rfl

/-- A run with requests is a run of the session itself. -/
theorem run?_sessionEvents (h : run? Front.act? f₀ t = some f) :
    run? State.act? f₀.session (sessionEvents f₀ t) = some f.session := by
  have hstart : run? State.act? f₀.session (sessionEvents f₀ []) = some f₀.session := rfl
  refine run?_invariant
    (motive := fun t f => run? State.act? f₀.session (sessionEvents f₀ t) = some f.session)
    hstart ?_ h
  intro past f₁ e f₂ hpast hrun hact
  rw [sessionEvents, history_concat past e hpast, run?_append, ← sessionEvents, hrun,
    Option.bind_some]
  cases attends_of_act? hact with
  | session hsession => rw [Front.own, run?_cons, hsession]; rfl
  | asks => rfl
  | queues ha hsend =>
    simp only [Front.own, ha, accepts_of_offer hsend, List.map_cons, List.map_nil, run?_cons,
      State.act?, State.serve?, hsend]
    rfl
  | refused ha hsend => simp only [Front.own, ha, accepts_of_refused hsend]; rfl
  | givesUp => rfl

/-! ## Live sessions -/

section Live

variable {s s' : State}

theorem not_listening_of_dropped {e : Event} (h : s.act? e = some s')
    (hs : s.stage = .dropped → s.outgoing.listening = false) (hdropped : s'.stage = .dropped) :
    s'.outgoing.listening = false := by
  have hstays (hstage : s.stage = .dropped) : s'.outgoing.listening = false :=
    (posts_of_act? h).not_listening (hs hstage)
  cases advances_of_act? h with
  | moves hstep =>
    have hstarted := hstep.hasStarted
    rw [State.hasStarted, hdropped] at hstarted
    cases hstarted
  | stands _ hstanding => exact hstays ((congrArg Standing.stage hstanding).symm.trans hdropped)
  | subscribes => exact hstays hdropped
  | cancels => exact hstays hdropped
  | drops => rfl

variable {id : UInt32} {conn : Connection} {hook : HookConfig} {r : Block.Registry}
  {policy : RestartPolicy} {s₀ : State} {es : List Event}

/-- **A session takes messages** as long as it is live. -/
theorem listening_eq_isLive (hnew : new? id conn hook r policy = some s₀)
    (hrun : run? State.act? s₀ es = some s) : s.outgoing.listening = s.isLive := by
  have hdropped : s.stage = .dropped → s.outgoing.listening = false := by
    refine run?_invariant
      (motive := fun _ s => s.stage = .dropped → s.outgoing.listening = false) ?_ ?_ hrun
    · obtain ⟨-, rfl⟩ := eq_of_new? hnew
      nofun
    · intro past s₁ e s₂ _ hs hact
      exact not_listening_of_dropped hact hs
  have hover := (posted_of_run? hnew hrun).gone
  have hgone := (inTurn_of_run? hnew hrun).listening
  unfold State.isLive
  split
  next hstage => exact hdropped hstage
  next hstage =>
    cases hsender : s.sender.isOver with
    | true => exact hover hsender
    | false =>
      rw [hsender] at hgone
      exact (hgone.resolve_left nofun).resolve_left hstage

end Live

/-! ## What a request queues -/

theorem adds_of_ne (h : f.subject? e ≠ some k) : f.adds k e = [] := if_neg h

theorem adds_of_act? (hsubject : f.subject? e = some k) (h : f.act? e = some f') :
    f.adds k e = f'.session.outgoing.items.drop f.session.outgoing.items.length := by
  rw [Front.adds, if_pos hsubject, h]
  rfl

theorem adds_eq_nil (h : f.act? e = some f') (hsession : f'.session = f.session) :
    f.adds k e = [] := by
  by_cases hsubject : f.subject? e = some k
  · rw [adds_of_act? hsubject h, hsession]
    exact List.drop_length
  · exact adds_of_ne hsubject

/-- What became of a request that has queued these messages, where the session stands so. -/
inductive Fate (s : State) (sent : List Message) : Asked → Prop where
  | unreadable {bytes : Bytes} {e : RequestError} (hdecode : Request.decode bytes = .error e)
      (hsent : sent = []) : Fate s sent ⟨bytes, .answered (.error (.unreadable e))⟩
  | waits {bytes : Bytes} {m : Message} (hdecode : Request.decode bytes = .ok m)
      (hsent : sent = []) : Fate s sent ⟨bytes, .waits m⟩
  | acknowledged {bytes : Bytes} {m : Message} (hdecode : Request.decode bytes = .ok m)
      (hsent : sent = [m]) : Fate s sent ⟨bytes, .answered (.ok Request.acknowledgement)⟩
  | closed {bytes : Bytes} {m : Message} (hdecode : Request.decode bytes = .ok m)
      (hsent : sent = []) (hgone : s.outgoing.listening = false) :
      Fate s sent ⟨bytes, .answered (.error (.senderClosed s.id))⟩
  | givenUp {bytes : Bytes} {m : Message} (hdecode : Request.decode bytes = .ok m)
      (hsent : sent = []) : Fate s sent ⟨bytes, .givenUp⟩

namespace Fate

variable {s s' : State} {sent : List Message} {a : Asked}

theorem ofBytes (s : State) (bytes : Bytes) : Fate s [] (.ofBytes bytes) := by
  unfold Asked.ofBytes
  split
  next m hdecode => exact .waits hdecode rfl
  next e hdecode => exact .unreadable hdecode rfl

/-- A request that waits has been read, and has queued nothing. -/
theorem of_waits {bytes : Bytes} {m : Message} (h : Fate s sent ⟨bytes, .waits m⟩) :
    Request.decode bytes = .ok m ∧ sent = [] := by
  cases h with
  | waits hdecode hsent => exact ⟨hdecode, hsent⟩

theorem later (h : Fate s sent a) (hid : s'.id = s.id)
    (hgone : s.outgoing.listening = false → s'.outgoing.listening = false) : Fate s' sent a := by
  cases h with
  | unreadable hdecode hsent => exact .unreadable hdecode hsent
  | waits hdecode hsent => exact .waits hdecode hsent
  | acknowledged hdecode hsent => exact .acknowledged hdecode hsent
  | closed hdecode hsent hclosed =>
    rw [← hid]
    exact .closed hdecode hsent (hgone hclosed)
  | givenUp hdecode hsent => exact .givenUp hdecode hsent

end Fate

/-! ## Runs -/

/-- What is known after a run of a session and of the requests that were made of it. -/
structure Attended (f₀ : Front) (t : List FrontEvent) (f : Front) : Prop where
  fate : ∀ (k : Nat) a, f.asked[k]? = some a → Fate f.session (sentBy k f₀ t) a
  unasked : ∀ k, f.asked.length ≤ k → sentBy k f₀ t = []

namespace Attended

/-- An event in the session leaves the requests as they are. -/
theorem serves (h : Attended f₀ t f) (hrun : run? Front.act? f₀ t = some f) {e : Event} {s' : State}
    (hact : f.session.act? e = some s') :
    Attended f₀ (t ++ [.session e]) { f with session := s' } := by
  have hsent (k : Nat) : sentBy k f₀ (t ++ [.session e]) = sentBy k f₀ t := by
    rw [sentBy_concat hrun, adds_of_ne (by rw [Front.subject?]; nofun), List.append_nil]
  have hid : s'.id = f.session.id := by
    cases e with
    | cancel => cases hact; rfl
    | _ => exact (id_of_act? hact nofun).1
  refine ⟨fun k a ha => ?_, fun k hk => ?_⟩
  · rw [hsent]
    exact (h.fate k a ha).later hid (posts_of_act? hact).not_listening
  · rw [hsent]
    exact h.unasked k hk

theorem asks (h : Attended f₀ t f) (hrun : run? Front.act? f₀ t = some f) (bytes : Bytes) :
    Attended f₀ (t ++ [.asks bytes]) { f with asked := f.asked ++ [.ofBytes bytes] } := by
  have hact : f.act? (.asks bytes) = some { f with asked := f.asked ++ [.ofBytes bytes] } := rfl
  have hsent (k : Nat) : sentBy k f₀ (t ++ [.asks bytes]) = sentBy k f₀ t := by
    rw [sentBy_concat hrun, adds_eq_nil hact rfl, List.append_nil]
  refine ⟨fun k a ha => ?_, fun k hk => ?_⟩
  · rw [hsent]
    rw [List.getElem?_append, List.getElem?_singleton] at ha
    split at ha
    next => exact h.fate k a ha
    next hk =>
      split at ha <;> cases ha
      rw [h.unasked k (Nat.le_of_not_lt hk)]
      exact .ofBytes f.session bytes
  · rw [hsent]
    rw [List.length_append] at hk
    exact h.unasked k (Nat.le_of_add_right_le hk)

/-- A request that waited has gone on. -/
theorem answers (h : Attended f₀ t f) (hrun : run? Front.act? f₀ t = some f) {s' : State}
    {bytes : Bytes} {reply reply' : Reply} (ha : f.asked[k]? = some ⟨bytes, reply⟩)
    (hsubject : f.subject? e = some k) (hid : s'.id = f.session.id)
    (hgone : f.session.outgoing.listening = false → s'.outgoing.listening = false)
    (hfate : Fate s' (sentBy k f₀ t ++ f.adds k e) ⟨bytes, reply'⟩) :
    Attended f₀ (t ++ [e]) ({ f with session := s' }.answer k reply') := by
  have hsent (k' : Nat) (hk : k' ≠ k) : sentBy k' f₀ (t ++ [e]) = sentBy k' f₀ t := by
    have hother : f.subject? e ≠ some k' := by
      rw [hsubject]
      exact fun heq => hk (Option.some.inj heq).symm
    rw [sentBy_concat hrun, adds_of_ne hother, List.append_nil]
  refine ⟨fun k' a' ha' => ?_, fun k' hk => ?_⟩
  · simp only [Front.answer, List.getElem?_modify] at ha'
    by_cases hk : k = k'
    · subst hk
      obtain rfl : ⟨bytes, reply'⟩ = a' := by simpa [ha] using ha'
      rw [sentBy_concat hrun]
      exact hfate
    · rw [hsent k' (Ne.symm hk)]
      exact (h.fate k' a' (by simpa [hk] using ha')).later hid hgone
  · have hk : f.asked.length ≤ k' := by
      rw [Front.answer, List.length_modify] at hk
      exact hk
    have hne : k' ≠ k := by
      rintro rfl
      have hlt := (List.getElem?_eq_some_iff.mp ha).1
      omega
    rw [hsent k' hne]
    exact h.unasked k' hk

theorem next (h : Attended f₀ t f) (hrun : run? Front.act? f₀ t = some f)
    (hact : f.act? e = some f') : Attended f₀ (t ++ [e]) f' := by
  cases attends_of_act? hact with
  | session hsession => exact h.serves hrun hsession
  | asks => exact h.asks hrun _
  | @queues k bytes m outgoing ha hsend =>
    obtain ⟨hdecode, hnone⟩ := (h.fate k _ ha).of_waits
    obtain ⟨hlistening, hq⟩ := Queue.eq_of_offer hsend
    refine h.answers hrun ha rfl rfl (fun hgone => ?_) (.acknowledged hdecode ?_)
    · rw [hlistening] at hgone
      cases hgone
    · rw [hnone, List.nil_append, adds_of_act? rfl hact, hq]
      exact List.drop_left
  | @refused k bytes m ha hsend =>
    obtain ⟨hdecode, hnone⟩ := (h.fate k _ ha).of_waits
    have hgone := Queue.not_listening_of_offer hsend
    refine h.answers hrun ha rfl rfl (fun _ => hgone) (.closed hdecode ?_ hgone)
    rw [hnone, adds_eq_nil hact rfl]
    rfl
  | @givesUp k bytes m ha =>
    obtain ⟨hdecode, hnone⟩ := (h.fate k _ ha).of_waits
    refine h.answers hrun ha rfl rfl (fun hgone => hgone) (.givenUp hdecode ?_)
    rw [hnone, adds_eq_nil hact rfl]
    rfl

end Attended

theorem attended_of_run? {s₀ : State} (hrun : run? Front.act? ⟨s₀, []⟩ t = some f) :
    Attended ⟨s₀, []⟩ t f := by
  have hstart : Attended ⟨s₀, []⟩ [] ⟨s₀, []⟩ := ⟨fun _ _ ha => (nomatch ha), fun _ _ => rfl⟩
  refine run?_invariant (motive := fun t f => Attended ⟨s₀, []⟩ t f) hstart ?_ hrun
  intro past f₁ e f₂ hpast hattended hact
  exact hattended.next hpast hact

/-! ## What is promised to clients -/

/-- The request `k` asks for the message `m`, and has queued these messages. -/
structure Forwards (f : Front) (k : Nat) (reply : Reply) (sent : List Message) (m : Message) :
    Prop where
  /-- It is acknowledged and has queued its message once, or it has queued nothing: because it
  waits, because its client did not wait, or because the session is no longer live. -/
  outcome : reply = .answered (.ok "OK") ∧ sent = [m] ∨
    sent = [] ∧ (reply = .waits m ∨ reply = .givenUp ∨
      reply = .answered (.error (.senderClosed f.session.id)) ∧ f.session.isLive = false)
  /-- As long as the session is live, a request that waits is acknowledged as soon as there is room
  in the queue, and its message is then the last one there. -/
  goesOn : reply = .waits m → f.session.isLive = true →
    f.act? (.settles k) =
      if f.session.outgoing.hasRoom then
        some ({ f with session.outgoing.items := f.session.outgoing.items ++ [m] }.answer k
          (.answered (.ok "OK")))
      else none
  /-- From a write of the message that is complete, the agent reads this message. -/
  arrives : Frame.wireLength m ≤ Frame.maxLength →
    ∀ n p, (Call.write m (some (.ok n))).takes p → Frame.wireLength m ≤ n →
      ∀ rest, Frame.decode (p.bytes ++ rest) = (.ok m, rest)

/-- What becomes of the request `k` in a run. -/
structure Handled (f₀ : Front) (t : List FrontEvent) (f : Front) (k : Nat) (a : Asked) : Prop where
  /-- Whatever its bytes are, it has queued nothing if it is answered with an error. -/
  refused : ∀ e, a.reply = .answered (.error e) → sentBy k f₀ t = []
  /-- However it is spelled, it is forwarded as the message that it asks for. -/
  forwards : ∀ op channel data, Request.Object op channel data (Text.Json.ofBytes a.bytes) →
    Forwards f k a.reply (sentBy k f₀ t) ⟨.ofByte op, channel, data⟩

/-- What is written of a message as a whole is read as this message. -/
theorem decode_of_isWhole {p : Frame.Piece} (hwhole : p.isWhole = true)
    (hfits : Frame.wireLength p.message ≤ Frame.maxLength) (rest : Bytes) :
    Frame.decode (p.bytes ++ rest) = (.ok p.message.received, rest) := by
  rw [Frame.bytes_of_isWhole hwhole]
  exact Frame.decode_span (.frame p.message hfits) rest

/-- **Requests queue the message that they ask for.** Take any run of a new session and of the
requests that clients make of it. -/
theorem requests_queue_their_message {id : UInt32} {conn : Connection} {hook : HookConfig}
    {r : Block.Registry} {policy : RestartPolicy} {s₀ : State} {a : Asked}
    (hnew : new? id conn hook r policy = some s₀) (hrun : run? Front.act? ⟨s₀, []⟩ t = some f)
    (ha : f.asked[k]? = some a) : Handled ⟨s₀, []⟩ t f k a := by
  have hfate := (attended_of_run? hrun).fate k a ha
  have hlive := listening_eq_isLive hnew (run?_sessionEvents hrun)
  refine ⟨fun e hreply => ?_, fun op channel data hobject => ?_⟩
  · cases hfate with
    | unreadable _ hsent => exact hsent
    | closed _ hsent => exact hsent
    | waits | acknowledged | givenUp => cases hreply
  · have hread := Request.decode_of_object hobject
    refine ⟨?_, fun hwaits hs => ?_, fun hfits n p htakes hwhole rest => ?_⟩
    · cases hfate with
      | unreadable hdecode =>
        rw [hread] at hdecode
        cases hdecode
      | waits hdecode hsent =>
        rw [hread] at hdecode
        cases hdecode
        exact .inr ⟨hsent, .inl rfl⟩
      | acknowledged hdecode hsent =>
        rw [hread] at hdecode
        cases hdecode
        exact .inl ⟨rfl, hsent⟩
      | closed _ hsent hgone => exact .inr ⟨hsent, .inr (.inr ⟨rfl, hlive.symm.trans hgone⟩)⟩
      | givenUp _ hsent => exact .inr ⟨hsent, .inr (.inl rfl)⟩
    · obtain ⟨bytes, reply⟩ := a
      obtain rfl : reply = .waits _ := hwaits
      simp only [Front.act?, ha]
      exact settle?_of_listening (hlive.trans hs) k _
    · obtain rfl : p = ⟨_, n⟩ := htakes
      rw [decode_of_isWhole (decide_eq_true hwhole) hfits, Message.received,
        MessageKind.toByte_ofByte]

/-- Of three requests the first is written as a whole, and the second one is no request. When the
third one is made, the sender has stopped. -/
theorem requests_queue_their_message_told :
    let m : Message := ⟨.send, 7, [1, 2]⟩
    let spelled : List Char := " \x7b \"d\\u0061ta\" : \"AQI=\",\"op\":4,\n\"channel\":7\x7d".toList
    let bytes : Bytes := Text.Json.toBytes spelled
    let t : List FrontEvent :=
      [.session (.move 0 (.stage .start)), .asks bytes, .settles 0, .asks [0x7b, 0x7d],
        .session (.move 0 (.sender .takes)), .session (.move 0 (.sender (.wrote (.ok 11)))),
        .session .cancel, .session (.move 0 (.stage .heed)), .session (.move 0 (.sender .stops)),
        .asks bytes, .settles 2]
    ∃ s₀ f, new? 7 { owner := false } {} {} {} = some s₀ ∧ run? Front.act? ⟨s₀, []⟩ t = some f ∧
      f.asked.map Asked.reply = [.answered (.ok "OK"), .answered (.error (.unreadable .malformed)),
        .answered (.error (.senderClosed 7))] ∧
      Request.Object 4 7 [1, 2] (Text.Json.ofBytes bytes) ∧ sentBy 0 ⟨s₀, []⟩ t = [m] ∧
      written (calls s₀ (sessionEvents ⟨s₀, []⟩ t)) = [m] ∧
      ∀ (k : Nat) a, f.asked[k]? = some a → Handled ⟨s₀, []⟩ t f k a := by
  intro m spelled bytes t
  have hends : ((new? 7 { owner := false } {} {} {}).bind fun s₀ =>
      (run? Front.act? ⟨s₀, []⟩ t).map fun f => (f.asked.map Asked.reply, sentBy 0 ⟨s₀, []⟩ t,
        written (calls s₀ (sessionEvents ⟨s₀, []⟩ t)))) =
        some ([.answered (.ok "OK"), .answered (.error (.unreadable .malformed)),
          .answered (.error (.senderClosed 7))], [m], [m]) := by
    decide +kernel
  obtain ⟨s₀, hnew, hends⟩ := Option.bind_eq_some_iff.mp hends
  obtain ⟨f, hrun, hends⟩ := Option.map_eq_some_iff.mp hends
  simp only [Prod.mk.injEq] at hends
  obtain ⟨hreplies, hsent, hwritten⟩ := hends
  refine ⟨s₀, f, hnew, hrun, hreplies, ?_, hsent, hwritten,
    fun k a => requests_queue_their_message hnew hrun⟩
  have hnone : Text.Json.Space [] := nofun
  have hblank : Text.Json.Space [' '] := List.forall_mem_cons.mpr ⟨rfl, hnone⟩
  have hbreak : Text.Json.Space ['\n'] := List.forall_mem_cons.mpr ⟨rfl, hnone⟩
  have hop : Text.Json.Spells ['o', 'p'] Request.Part.op.key.toList :=
    Text.Json.spells_self (by decide)
  have hchannel : Text.Json.Spells "channel".toList Request.Part.channel.key.toList :=
    Text.Json.spells_self (by decide)
  have hdata : Text.Json.Spells ('d' :: '\\' :: 'u' :: '0' :: '0' :: '6' :: '1' :: ['t', 'a'])
      Request.Part.data.key.toList := by
    have hkey : Request.Part.data.key.toList = ['d', 'a', 't', 'a'] := by decide
    rw [hkey]
    exact .plain (by decide) (by decide) (by decide) (.number (by decide) (by decide) (by decide)
      (Text.Json.spells_self (by decide)))
  have hpayload : Text.Json.Spells ['A', 'Q', 'I', '='] (Text.Base64.encode [1, 2]) := by
    have hencode : Text.Base64.encode [1, 2] = ['A', 'Q', 'I', '='] := by decide
    rw [hencode]
    exact Text.Json.spells_self (by decide)
  have hentries : Request.Entries 4 7 [1, 2] [.data, .op, .channel] _ :=
    .more (.mk hblank hdata hblank hblank (.data hpayload) hnone)
      (.more (.mk hnone hop hnone hnone .op hnone)
        (.last (.mk hbreak hchannel hnone hnone .channel hnone)))
  have hobject : Request.Object 4 7 [1, 2] _ :=
    .mk hblank hentries hnone (by decide) (by decide) (by decide) (.inl (by decide))
  refine Eq.mp (congrArg (Request.Object 4 7 [1, 2]) ?_) hobject
  decide +kernel

end Wiretap.Session
