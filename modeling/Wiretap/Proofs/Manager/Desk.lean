import Wiretap.Proofs.Manager.Booked

/-!
# Calls

A call looks the session of its process up in the table and then waits until that session takes the
message. In between, the manager may take the session down, start another one for the same process,
or be told to stop.

Results:

* `request_eq`: a call that goes on at once comes to what the manager answers to a request.
* `handles_of_act?`: what an event does to the manager and to the calls.
* `queuedFor_set`: a message that is queued for one session is not queued for another.
-/

namespace Wiretap.Manager

/-- How far a call is. -/
inductive Progress where
  /-- It waits until the session that it found takes the message. -/
  | waits (m : Message)
  | answered (r : Except CallError Unit)
  /-- Its caller does not wait for it any more. -/
  | givenUp
  deriving DecidableEq

/-- A request to a process. -/
structure Call where
  pid : UInt32
  bytes : Bytes
  /-- The session that the table had for the process. -/
  found : Option Nat
  progress : Progress

/-- A manager and the calls that were made, oldest first. -/
structure Desk where
  manager : State
  calls : List Call := []

/-- Something that happens to a manager and to calls. -/
inductive DeskEvent where
  | manager (e : Event)
  /-- The manager is told to stop, and does. -/
  | stops
  /-- A new call looks up its session. -/
  | asks (pid : UInt32) (bytes : Bytes)
  /-- The call of that number goes on. -/
  | settles (k : Nat)
  | givesUp (k : Nat)

/-- A new call, after it has looked up its session and read the request. -/
def State.lookUp (s : State) (pid : UInt32) (bytes : Bytes) : Call where
  pid := pid
  bytes := bytes
  found := s.session? pid
  progress :=
    match s.session? pid with
    | none => .answered (.error (.sessionNotFound pid))
    | some _ =>
      match Request.decode bytes with
      | .error e => .answered (.error (.request e))
      | .ok m => .waits m

namespace Desk

def answer (d : Desk) (k : Nat) (progress : Progress) : Desk :=
  { d with calls := d.calls.modify k ({ · with progress }) }

/-- A waiting call queues its message, or is told that it cannot. -/
def settle? (d : Desk) (k : Nat) (c : Call) : Option Desk :=
  match c.found, c.progress with
  | some i, .waits m =>
    match d.manager.send i m with
    | .ok manager => some ({ d with manager }.answer k (.answered (.ok ())))
    | .error .waits => none
    | .error e => some (d.answer k (.answered (.error e)))
  | _, _ => none

/-- The desk after an event, if that can happen now. -/
def act? (d : Desk) : DeskEvent → Option Desk
  | .manager e => (d.manager.act? e).map fun manager => { d with manager }
  | .stops => (d.manager.step? 0 true .stops).map fun manager => { d with manager }
  | .asks pid bytes => some { d with calls := d.calls ++ [d.manager.lookUp pid bytes] }
  | .settles k => d.calls[k]?.bind (d.settle? k)
  | .givesUp k =>
    match d.calls[k]? with
    | some ⟨_, _, _, .waits _⟩ => some (d.answer k .givenUp)
    | _ => none

/-- The changes of who has a session that come with an event. -/
def changes (d : Desk) : DeskEvent → List Change
  | .manager e => d.manager.changes e
  | _ => []

/-- The call that an event is about. -/
def subject? (d : Desk) : DeskEvent → Option Nat
  | .asks _ _ => some d.calls.length
  | .settles k | .givesUp k => some k
  | _ => none

/-- What is queued for the agent of that session. -/
def queuedFor (d : Desk) (j : Nat) : List Message :=
  (d.manager.sessions[j]?.map (·.outgoing.items)).getD []

/-- What the call `k` adds to the queue of the session `j` with an event. -/
def adds (j k : Nat) (d : Desk) (e : DeskEvent) : List Message :=
  if d.subject? e = some k then
    ((d.act? e).map fun d' => (d'.queuedFor j).drop (d.queuedFor j).length).getD []
  else []

end Desk

/-- The book of a run. -/
def deskChanges (d : Desk) (t : List DeskEvent) : List Change :=
  history Desk.act? Desk.changes d t

/-- What the call `k` has queued for the session `j` in the course of a run. -/
def sentTo (j k : Nat) (d : Desk) (t : List DeskEvent) : List Message :=
  history Desk.act? (Desk.adds j k) d t

theorem sentTo_concat {d₀ d : Desk} {t : List DeskEvent} (h : run? Desk.act? d₀ t = some d)
    (e : DeskEvent) (j k : Nat) : sentTo j k d₀ (t ++ [e]) = sentTo j k d₀ t ++ d.adds j k e :=
  history_concat t e h

/-! ## Calls that do not wait -/

/-- The desk after a request that was answered so. -/
def Desk.requested (d : Desk) (pid : UInt32) (bytes : Bytes) : Except CallError State → Desk
  | .ok manager =>
    ⟨manager, d.calls ++ [{ d.manager.lookUp pid bytes with progress := .answered (.ok ()) }]⟩
  | .error .waits => ⟨d.manager, d.calls ++ [d.manager.lookUp pid bytes]⟩
  | .error e =>
    ⟨d.manager, d.calls ++ [{ d.manager.lookUp pid bytes with progress := .answered (.error e) }]⟩

variable {s s' : State} {d d' : Desk} {k : Nat} {c : Call}

theorem answer_concat (manager : State) (calls : List Call) (c : Call) (progress : Progress) :
    Desk.answer ⟨manager, calls ++ [c]⟩ calls.length progress =
      ⟨manager, calls ++ [{ c with progress }]⟩ := by
  simp only [Desk.answer, Desk.mk.injEq, true_and]
  rw [modify_of_getElem? List.getElem?_concat_length, List.set_append_right _ _ (Nat.le_refl _),
    Nat.sub_self]
  rfl

theorem act?_settles_lookUp {pid : UInt32} {bytes : Bytes} {i : Nat} {m : Message}
    (hfound : d.manager.session? pid = some i) (hdecode : Request.decode bytes = .ok m)
    (hwaits : d.manager.send i m ≠ .error .waits) :
    Desk.act? ⟨d.manager, d.calls ++ [d.manager.lookUp pid bytes]⟩ (.settles d.calls.length) =
      some (d.requested pid bytes (d.manager.send i m)) := by
  simp only [Desk.act?, List.getElem?_concat_length, Option.bind_some, Desk.settle?, State.lookUp,
    hfound, hdecode]
  cases hsend : d.manager.send i m with
  | ok manager => simp only [answer_concat, Desk.requested, State.lookUp, hfound]
  | error e =>
    cases e with
    | waits => exact absurd hsend hwaits
    | _ => simp only [answer_concat, Desk.requested, State.lookUp, hfound]

/-- **A call that goes on at once** comes to what the manager answers to a request. -/
theorem request_eq (d : Desk) (pid : UInt32) (bytes : Bytes) :
    ∃ es ∈ [[], [.settles d.calls.length]], run? Desk.act? d (.asks pid bytes :: es) =
      some (d.requested pid bytes (d.manager.request pid bytes)) := by
  have hasks : Desk.act? d (.asks pid bytes) =
      some ⟨d.manager, d.calls ++ [d.manager.lookUp pid bytes]⟩ := rfl
  unfold State.request
  cases hfound : d.manager.session? pid with
  | none =>
    refine ⟨[], List.mem_cons_self, ?_⟩
    rw [run?_cons, hasks, Option.bind_some, run?_nil]
    simp only [Desk.requested, State.lookUp, hfound]
  | some i =>
    cases hdecode : Request.decode bytes with
    | error e =>
      refine ⟨[], List.mem_cons_self, ?_⟩
      rw [run?_cons, hasks, Option.bind_some, run?_nil]
      simp only [Desk.requested, State.lookUp, hfound, hdecode]
    | ok m =>
      by_cases hwaits : d.manager.send i m = .error .waits
      · refine ⟨[], List.mem_cons_self, ?_⟩
        rw [run?_cons, hasks, Option.bind_some, run?_nil]
        simp only [hwaits, Desk.requested]
      · refine ⟨_, List.mem_cons_of_mem _ List.mem_cons_self, ?_⟩
        rw [run?_cons, hasks, Option.bind_some, run?_cons,
          act?_settles_lookUp hfound hdecode hwaits]
        rfl

/-! ## One event -/

/-- What an event does to the manager and to the calls. -/
inductive Handles (d : Desk) : DeskEvent → Desk → Prop where
  | manager {e : Event} {s' : State} (hact : d.manager.act? e = some s') :
      Handles d (.manager e) { d with manager := s' }
  | stops : Handles d .stops { d with manager := d.manager.finish .stopped }
  | asks {pid : UInt32} {bytes : Bytes} :
      Handles d (.asks pid bytes) { d with calls := d.calls ++ [d.manager.lookUp pid bytes] }
  | queues {k i : Nat} {c : Call} {m : Message} {x : Session.State} {outgoing : Queue Message}
      (hc : d.calls[k]? = some c) (hfound : c.found = some i) (hwaits : c.progress = .waits m)
      (hx : d.manager.sessions[i]? = some x) (hsend : x.send m = .accepted outgoing) :
      Handles d (.settles k) (Desk.answer
        { d with
          manager := { d.manager with sessions := d.manager.sessions.set i { x with outgoing } } }
        k (.answered (.ok ())))
  /-- The session is none of those that were ever started. -/
  | misses {k i : Nat} {c : Call} (hc : d.calls[k]? = some c) (hfound : c.found = some i)
      (hx : d.manager.sessions[i]? = none) :
      Handles d (.settles k) (d.answer k (.answered (.ok ())))
  | refused {k i : Nat} {c : Call} {m : Message} {x : Session.State}
      (hc : d.calls[k]? = some c) (hfound : c.found = some i) (hwaits : c.progress = .waits m)
      (hx : d.manager.sessions[i]? = some x) (hsend : x.send m = .refused) :
      Handles d (.settles k) (d.answer k (.answered (.error (.senderClosed x.id))))
  | givesUp {k : Nat} {c : Call} {m : Message} (hc : d.calls[k]? = some c)
      (hwaits : c.progress = .waits m) : Handles d (.givesUp k) (d.answer k .givenUp)

theorem handles_of_settle? (hc : d.calls[k]? = some c) (h : d.settle? k c = some d') :
    Handles d (.settles k) d' := by
  unfold Desk.settle? State.send at h
  split at h
  next i m hfound hwaits =>
    cases hx : d.manager.sessions[i]? with
    | none =>
      simp only [hx] at h
      cases h
      exact .misses hc hfound hx
    | some x =>
      simp only [hx] at h
      cases hsend : x.send m with
      | accepted outgoing =>
        simp only [hsend] at h
        cases h
        exact .queues hc hfound hwaits hx hsend
      | refused =>
        simp only [hsend] at h
        cases h
        exact .refused hc hfound hwaits hx hsend
      | full =>
        simp only [hsend] at h
        cases h
  next => cases h

theorem handles_of_act? {e : DeskEvent} (h : d.act? e = some d') : Handles d e d' := by
  cases e with
  | manager e =>
    obtain ⟨s', hact, rfl⟩ := Option.map_eq_some_iff.mp h
    exact .manager hact
  | stops =>
    obtain ⟨s', hstep, rfl⟩ := Option.map_eq_some_iff.mp h
    cases steps_of_step? hstep with
    | stops => exact .stops
  | asks pid bytes =>
    cases h
    exact .asks
  | settles k =>
    obtain ⟨c, hc, hsettle⟩ := Option.bind_eq_some_iff.mp h
    exact handles_of_settle? hc hsettle
  | givesUp k =>
    simp only [Desk.act?] at h
    split at h <;> cases h
    next hc => exact .givesUp hc rfl

/-! ## What is queued -/

theorem adds_of_ne {e : DeskEvent} (h : d.subject? e ≠ some k) (j : Nat) : d.adds j k e = [] :=
  if_neg h

theorem adds_of_act? {e : DeskEvent} (hsubject : d.subject? e = some k) (h : d.act? e = some d')
    (j : Nat) : d.adds j k e = (d'.queuedFor j).drop (d.queuedFor j).length := by
  rw [Desk.adds, if_pos hsubject, h]
  rfl

theorem adds_eq_nil {e : DeskEvent} (h : d.act? e = some d')
    (hmanager : d'.manager = d.manager) (j : Nat) : d.adds j k e = [] := by
  by_cases hsubject : d.subject? e = some k
  · rw [adds_of_act? hsubject h, Desk.queuedFor, Desk.queuedFor, hmanager]
    exact List.drop_length
  · exact adds_of_ne hsubject j

theorem sentTo_of_quiet {d₀ : Desk} {t : List DeskEvent} {e : DeskEvent}
    (hrun : run? Desk.act? d₀ t = some d) (hnone : ∀ j, sentTo j k d₀ t = [])
    (h : d.act? e = some d') (hmanager : d'.manager = d.manager) (j : Nat) :
    sentTo j k d₀ (t ++ [e]) = [] := by
  rw [sentTo_concat hrun, hnone j, adds_eq_nil h hmanager]
  rfl

/-- A message that is queued for one session is not queued for another. -/
theorem queuedFor_set {sessions : List Session.State} {calls : List Call} {i : Nat}
    {x : Session.State} {m : Message} {outgoing : Queue Message}
    (hx : d.manager.sessions[i]? = some x) (hsend : x.send m = .accepted outgoing)
    (hsessions : sessions = d.manager.sessions.set i { x with outgoing }) (j : Nat) :
    (Desk.queuedFor ⟨{ d.manager with sessions }, calls⟩ j).drop (d.queuedFor j).length =
      if i = j then [m] else [] := by
  have hitems : outgoing.items = x.outgoing.items ++ [m] := Queue.items_offer hsend
  rw [hsessions, Desk.queuedFor, Desk.queuedFor, List.getElem?_set]
  split
  next hij =>
    subst hij
    rw [if_pos (List.getElem?_eq_some_iff.mp hx).1, hx]
    simp only [Option.map_some, Option.getD_some, hitems, List.drop_left]
  next => exact List.drop_length

/-! ## What is answered -/

theorem mem_answer {progress : Progress} (hc : d.calls[k]? = some c) {k' : Nat} {c' : Call}
    (h : (d.answer k progress).calls[k']? = some c') :
    k' = k ∧ c' = { c with progress } ∨ k' ≠ k ∧ d.calls[k']? = some c' := by
  simp only [Desk.answer] at h
  rw [List.getElem?_modify] at h
  by_cases hk : k = k'
  · subst hk
    have hc' : some { c with progress } = some c' := by simpa [hc] using h
    exact .inl ⟨rfl, (Option.some.inj hc').symm⟩
  · obtain ⟨c'', hc'', heq⟩ := Option.map_eq_some_iff.mp h
    rw [if_neg hk] at heq
    rw [← heq]
    exact .inr ⟨Ne.symm hk, hc''⟩

end Wiretap.Manager
