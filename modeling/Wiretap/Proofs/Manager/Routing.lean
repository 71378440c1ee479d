import Wiretap.Proofs.Manager.Desk

/-!
# Where requests go

Between the lookup of a call and the queueing of its message, the session that it has found may be
taken down and replaced by another one of the same process.

Results:

* `Tabled.passes`: an event that changes the table changes the book in the same way.
* `Served.next`: what an event makes of the calls and of what they have queued.
* `requests_reach_their_session`: a call queues its message on the session that it found, or
  nowhere.
-/

namespace Wiretap.Manager

variable {d d' : Desk} {k : Nat} {c : Call}

/-! ## The table and the book -/

/-- The service has ended, and the table is empty. -/
def Service.hasEnded : Service → Bool
  | .finished .complete | .finished .stopped => true
  | _ => false

/-- The table lists the sessions of the book, as long as the service has not ended. -/
structure Tabled (cs : List Change) (h : Holdings) : Prop where
  lookup_eq : ∀ pid, (h.table.lookup pid).map (·.session) =
    if h.service.hasEnded then none else book cs pid
  session_of_book : ∀ pid i, book cs pid = some i → ∃ x, h.sessions[i]? = some x ∧ x.id = pid

/-- Sessions stay what they are, and keep their numbers. -/
def Stays (sessions sessions' : List Session.State) : Prop :=
  ∀ (i : Nat) x, sessions[i]? = some x → ∃ x', sessions'[i]? = some x' ∧ x'.id = x.id

theorem stays_set {sessions : List Session.State} {i : Nat} {x y : Session.State}
    (hx : sessions[i]? = some x) (hid : y.id = x.id) : Stays sessions (sessions.set i y) := by
  intro j z hz
  rw [List.getElem?_set]
  split
  next hij =>
    subst hij
    rw [hx] at hz
    cases hz
    exact ⟨y, if_pos (List.getElem?_eq_some_iff.mp hx).1, hid⟩
  next => exact ⟨z, hz, rfl⟩

namespace Tabled

variable {cs : List Change} {h h' : Holdings}

/-- The service goes on, and the table stays as it is. -/
theorem serves (hb : Tabled cs h) {service : Service}
    (hservice : service.hasEnded = h.service.hasEnded) : Tabled cs { h with service } where
  lookup_eq := by
    rw [hservice]
    exact hb.lookup_eq
  session_of_book := hb.session_of_book

/-- The service ends and empties the table. -/
theorem ends (hb : Tabled cs h) {service : Service} (hservice : service.hasEnded = true) :
    Tabled cs { h with table := [], service } where
  lookup_eq pid := by
    rw [hservice]
    rfl
  session_of_book := hb.session_of_book

theorem stays (hb : Tabled cs h) (htable : h'.table = h.table) (hservice : h'.service = h.service)
    (hstays : Stays h.sessions h'.sessions) : Tabled cs h' where
  lookup_eq := by
    rw [htable, hservice]
    exact hb.lookup_eq
  session_of_book pid i hbook := by
    obtain ⟨x, hx, hid⟩ := hb.session_of_book pid i hbook
    obtain ⟨x', hx', hid'⟩ := hstays i x hx
    exact ⟨x', hx', hid'.trans hid⟩

theorem registers (hb : Tabled cs h) (hrunning : h.service.hasEnded = false) {pid : UInt32}
    {x : Session.State} (hid : x.id = pid) :
    Tabled (cs ++ [.up pid h.sessions.length]) (h.register pid x) where
  lookup_eq pid' := by
    have hold := hb.lookup_eq pid'
    rw [hrunning] at hold
    show (List.lookup pid' ((pid, _) :: h.table.filter (·.1 != pid))).map _ = book _ pid'
    rw [book_up, List.lookup_cons, lookup_without]
    by_cases hpid : pid = pid'
    · subst hpid
      simp
    · have hne : (pid' == pid) = false := beq_eq_false_iff_ne.mpr (Ne.symm hpid)
      rw [hne, if_neg hpid, if_neg hpid]
      exact hold
  session_of_book pid' i hbook := by
    show ∃ y, (h.sessions ++ [_])[i]? = some y ∧ y.id = pid'
    rw [book_up] at hbook
    split at hbook
    next hpid =>
      cases hbook
      exact ⟨_, List.getElem?_concat_length, hid.trans hpid⟩
    next =>
      obtain ⟨y, hy, hyid⟩ := hb.session_of_book pid' i hbook
      exact ⟨y, (List.getElem?_append_left (List.getElem?_eq_some_iff.mp hy).1).trans hy, hyid⟩

theorem loses (hb : Tabled cs h) (hrunning : h.service.hasEnded = false) {pid : UInt32} {i : Nat}
    {service : Service} (hservice : service.hasEnded = false) :
    Tabled (cs ++ [.down pid i])
      { h with table := h.table.filter (·.1 != pid), service } where
  lookup_eq pid' := by
    have hold := hb.lookup_eq pid'
    rw [hrunning] at hold
    rw [hservice, lookup_without, book_down]
    split
    next => rfl
    next => exact hold
  session_of_book pid' j hbook := by
    rw [book_down] at hbook
    split at hbook
    next => cases hbook
    next => exact hb.session_of_book pid' j hbook

/-- **An event that changes the table** changes the book in the same way. -/
theorem passes (hb : Tabled cs h) {new : List Change} {said : List Announcement}
    (hpasses : Passes h new said h') : Tabled (cs ++ new) h' ∧ Stays h.sessions h'.sessions := by
  have hsame : Stays h.sessions h.sessions := fun _ x hx => ⟨x, hx, rfl⟩
  cases hpasses with
  | registers hbuilding hid hcreated =>
    refine ⟨hb.registers (by rw [hbuilding]; rfl) hid, fun i y hy => ⟨y, ?_, rfl⟩⟩
    exact (List.getElem?_append_left (List.getElem?_eq_some_iff.mp hy).1).trans hy
  | @detaches pid entry i hidle hlookup hmember =>
    have hstays : Stays h.sessions (h.sessions.modify i ({ · with cancelled := true })) := by
      intro j y hy
      rw [List.getElem?_modify, hy]
      refine ⟨_, rfl, ?_⟩
      show (if i = j then { y with cancelled := true } else y).id = y.id
      split <;> rfl
    have hlost : Tabled _ { h with table := h.table.filter (·.1 != pid), service := .removing pid i } :=
      hb.loses (i := entry.session) (by rw [hidle]; rfl) rfl
    exact ⟨hlost.stays rfl rfl hstays, hstays⟩
  | loses hidle hlookup hmember => exact ⟨hb.loses (by rw [hidle]; rfl) rfl, hsame⟩
  | session hx hact hcancel hdrop =>
    rw [List.append_nil]
    have hstays := stays_set hx (Session.id_of_act? hact hcancel).1
    exact ⟨hb.stays rfl rfl hstays, hstays⟩
  | still =>
    rw [List.append_nil]
    exact ⟨hb, hsame⟩
  | completes =>
    rw [List.append_nil]
    exact ⟨hb.ends rfl, hsame⟩
  | fails hbuilding hservice =>
    rw [List.append_nil]
    refine ⟨hb.serves ?_, hsame⟩
    rcases hservice with rfl | ⟨reason, rfl⟩
    · rw [hbuilding]
      rfl
    · rw [hbuilding]
      rfl
  | begins hservice | builds hservice | announces hservice | released hservice | reports hservice
  | restarts hservice =>
    rw [List.append_nil]
    exact ⟨hb.serves (by rw [hservice]; rfl), hsame⟩

end Tabled

/-! ## Calls -/

/-- What became of a call that has queued these messages for the agent of each session. -/
inductive Outcome (c : Call) (sent : Nat → List Message) : Prop where
  /-- Its process had no session. -/
  | missing (hfound : c.found = none)
      (hprogress : c.progress = .answered (.error (.sessionNotFound c.pid)))
      (hsent : ∀ j, sent j = [])
  /-- Its request could not be read. -/
  | malformed {i : Nat} {e : RequestError} (hfound : c.found = some i)
      (hdecode : Request.decode c.bytes = .error e)
      (hprogress : c.progress = .answered (.error (.request e))) (hsent : ∀ j, sent j = [])
  /-- It waits for room in the queue of the session. -/
  | waits {i : Nat} {m : Message} (hfound : c.found = some i)
      (hdecode : Request.decode c.bytes = .ok m) (hprogress : c.progress = .waits m)
      (hsent : ∀ j, sent j = [])
  | givenUp {i : Nat} {m : Message} (hfound : c.found = some i)
      (hdecode : Request.decode c.bytes = .ok m) (hprogress : c.progress = .givenUp)
      (hsent : ∀ j, sent j = [])
  /-- The sender of the session is gone. -/
  | closed {i : Nat} {m : Message} (hfound : c.found = some i)
      (hdecode : Request.decode c.bytes = .ok m)
      (hprogress : c.progress = .answered (.error (.senderClosed c.pid)))
      (hsent : ∀ j, sent j = [])
  /-- Its message was queued for the session that it had found, and for no other. -/
  | queued {i : Nat} {m : Message} (hfound : c.found = some i)
      (hdecode : Request.decode c.bytes = .ok m) (hprogress : c.progress = .answered (.ok ()))
      (hsent : sent i = [m]) (hothers : ∀ j, j ≠ i → sent j = [])

theorem outcome_lookUp (s : State) (pid : UInt32) (bytes : Bytes) {sent : Nat → List Message}
    (hsent : ∀ j, sent j = []) : Outcome (s.lookUp pid bytes) sent := by
  cases hfound : s.session? pid with
  | none => exact .missing hfound (by simp only [State.lookUp, hfound]) hsent
  | some i =>
    cases hdecode : Request.decode bytes with
    | error e => exact .malformed hfound hdecode (by simp only [State.lookUp, hfound, hdecode]) hsent
    | ok m => exact .waits hfound hdecode (by simp only [State.lookUp, hfound, hdecode]) hsent

/-- A call that waits has found a session, has read its request and has queued nothing. -/
theorem Outcome.of_waits {sent : Nat → List Message} (h : Outcome c sent) {m : Message}
    (hwaits : c.progress = .waits m) :
    (∃ i, c.found = some i) ∧ Request.decode c.bytes = .ok m ∧ ∀ j, sent j = [] := by
  cases h with
  | @waits i _ hfound hdecode hprogress hsent =>
    rw [hwaits] at hprogress
    cases hprogress
    exact ⟨⟨i, hfound⟩, hdecode, hsent⟩
  | missing _ hprogress | malformed _ _ hprogress | givenUp _ _ hprogress | closed _ _ hprogress
  | queued _ _ hprogress =>
    rw [hwaits] at hprogress
    cases hprogress

/-- What is known of the call `k` after a run. -/
structure Traced (d₀ : Desk) (t : List DeskEvent) (d : Desk) (k : Nat) (c : Call) : Prop where
  /-- It found the session that its process had when it looked. -/
  looked : ∃ before after d₁, t = before ++ .asks c.pid c.bytes :: after ∧
    run? Desk.act? d₀ before = some d₁ ∧ d₁.calls.length = k ∧ c.found = d₁.manager.session? c.pid
  known : ∀ i, c.found = some i → ∃ x, d.manager.sessions[i]? = some x ∧ x.id = c.pid
  outcome : Outcome c fun j => sentTo j k d₀ t

namespace Traced

variable {d₀ : Desk} {t : List DeskEvent} {e : DeskEvent}

/-- An event that is not about the call leaves it as it is. -/
theorem passedBy (h : Traced d₀ t d k c) (hrun : run? Desk.act? d₀ t = some d)
    (hadds : ∀ j, d.adds j k e = []) (hstays : Stays d.manager.sessions d'.manager.sessions) :
    Traced d₀ (t ++ [e]) d' k c where
  looked := by
    obtain ⟨before, after, d₁, rfl, hlooked⟩ := h.looked
    exact ⟨before, after ++ [e], d₁, by simp, hlooked⟩
  known i hfound := by
    obtain ⟨x, hx, hid⟩ := h.known i hfound
    obtain ⟨x', hx', hid'⟩ := hstays i x hx
    exact ⟨x', hx', hid'.trans hid⟩
  outcome := by
    have hsent : (fun j => sentTo j k d₀ (t ++ [e])) = fun j => sentTo j k d₀ t := by
      funext j
      rw [sentTo_concat hrun, hadds j, List.append_nil]
    rw [hsent]
    exact h.outcome

/-- An event that is about the call changes what has become of it. -/
theorem goesOn (h : Traced d₀ t d k c) {progress : Progress}
    (hstays : Stays d.manager.sessions d'.manager.sessions)
    (houtcome : Outcome { c with progress } fun j => sentTo j k d₀ (t ++ [e])) :
    Traced d₀ (t ++ [e]) d' k { c with progress } where
  looked := by
    obtain ⟨before, after, d₁, rfl, hlooked⟩ := h.looked
    exact ⟨before, after ++ [e], d₁, by simp, hlooked⟩
  known i hfound := by
    obtain ⟨x, hx, hid⟩ := h.known i hfound
    obtain ⟨x', hx', hid'⟩ := hstays i x hx
    exact ⟨x', hx', hid'.trans hid⟩
  outcome := houtcome

end Traced

/-! ## Runs -/

/-- What is known after a run of a manager and the calls that were made. -/
structure Served (d₀ : Desk) (t : List DeskEvent) (d : Desk) : Prop where
  tabled : Tabled (deskChanges d₀ t) d.manager.holdings
  traced : ∀ k c, d.calls[k]? = some c → Traced d₀ t d k c
  unasked : ∀ j k, d.calls.length ≤ k → sentTo j k d₀ t = []

namespace Served

variable {d₀ : Desk} {t : List DeskEvent} {e : DeskEvent}

/-- An event in the manager leaves the calls as they are. -/
theorem manages (h : Served d₀ t d) (hrun : run? Desk.act? d₀ t = some d)
    (hsubject : d.subject? e = none) (hcalls : d'.calls = d.calls)
    (htabled : Tabled (deskChanges d₀ (t ++ [e])) d'.manager.holdings)
    (hstays : Stays d.manager.sessions d'.manager.sessions) : Served d₀ (t ++ [e]) d' := by
  have hadds (j k : Nat) : d.adds j k e = [] := adds_of_ne (by rw [hsubject]; nofun) j
  refine ⟨htabled, fun k c hc => ?_, fun j k hk => ?_⟩
  · rw [hcalls] at hc
    exact (h.traced k c hc).passedBy hrun (fun j => hadds j k) hstays
  · rw [hcalls] at hk
    rw [sentTo_concat hrun, h.unasked j k hk, hadds j k]
    rfl

/-- A call that waited has gone on. -/
theorem answers (h : Served d₀ t d) (hrun : run? Desk.act? d₀ t = some d) {progress : Progress}
    (hc : d.calls[k]? = some c) (hsubject : d.subject? e = some k)
    (hcalls : d'.calls = (d.answer k progress).calls)
    (htabled : Tabled (deskChanges d₀ (t ++ [e])) d'.manager.holdings)
    (hstays : Stays d.manager.sessions d'.manager.sessions)
    (houtcome : Outcome { c with progress } fun j => sentTo j k d₀ (t ++ [e])) :
    Served d₀ (t ++ [e]) d' := by
  have hadds (j k' : Nat) (hk : k' ≠ k) : d.adds j k' e = [] := by
    refine adds_of_ne ?_ j
    rw [hsubject]
    exact fun heq => hk (Option.some.inj heq).symm
  refine ⟨htabled, fun k' c' hc' => ?_, fun j k' hk => ?_⟩
  · rw [hcalls] at hc'
    rcases mem_answer hc hc' with ⟨rfl, rfl⟩ | ⟨hk, hc'⟩
    · exact (h.traced k' c hc).goesOn hstays houtcome
    · exact (h.traced k' c' hc').passedBy hrun (fun j => hadds j k' hk) hstays
  · have hlength : d'.calls.length = d.calls.length := by
      rw [hcalls, Desk.answer, List.length_modify]
    have hne : k' ≠ k := by
      rintro rfl
      have hlt := (List.getElem?_eq_some_iff.mp hc).1
      omega
    rw [sentTo_concat hrun, h.unasked j k' (hlength ▸ hk), hadds j k' hne]
    rfl

/-- A new call has found the session that is in the table under its process. -/
theorem asks (h : Served d₀ t d) (hrun : run? Desk.act? d₀ t = some d) {pid : UInt32}
    {bytes : Bytes} (htabled : Tabled (deskChanges d₀ (t ++ [.asks pid bytes])) d.manager.holdings)
    (hact : d.act? (.asks pid bytes) =
      some { d with calls := d.calls ++ [d.manager.lookUp pid bytes] }) :
    Served d₀ (t ++ [.asks pid bytes])
      { d with calls := d.calls ++ [d.manager.lookUp pid bytes] } := by
  have hsame : Stays d.manager.sessions d.manager.sessions := fun _ x hx => ⟨x, hx, rfl⟩
  have hnone := sentTo_of_quiet hrun (fun j => h.unasked j _ (Nat.le_refl _)) hact rfl
  refine ⟨htabled, fun k c hc => ?_, fun j k hk => ?_⟩
  · rw [List.getElem?_append, List.getElem?_singleton] at hc
    split at hc
    next hk => exact (h.traced k c hc).passedBy hrun (fun j => adds_eq_nil hact rfl j) hsame
    next hk =>
      split at hc <;> cases hc
      next hlast =>
        obtain rfl : k = d.calls.length := by omega
        refine ⟨⟨t, [], d, rfl, hrun, rfl, rfl⟩, fun i hfound => ?_, outcome_lookUp _ _ _ hnone⟩
        have hlookup := h.tabled.lookup_eq pid
        have hfound : d.manager.session? pid = some i := hfound
        rw [State.session?] at hfound
        rw [show d.manager.holdings.table = d.manager.table from rfl, hfound] at hlookup
        split at hlookup
        next => cases hlookup
        next => exact h.tabled.session_of_book pid i hlookup.symm
  · rw [List.length_append, List.length_singleton] at hk
    exact sentTo_of_quiet hrun (fun j => h.unasked j k (by omega)) hact rfl j

/-- The message of a call is queued for the session that it has found, and for no other. -/
theorem sentTo_of_queues (hrun : run? Desk.act? d₀ t = some d) {i : Nat} {m : Message}
    {x : Session.State} {outgoing : Queue Message} (hx : d.manager.sessions[i]? = some x)
    (hsend : x.send m = .accepted outgoing) (hnone : ∀ j, sentTo j k d₀ t = [])
    (hact : d.act? (.settles k) = some (Desk.answer
      { d with
        manager := { d.manager with sessions := d.manager.sessions.set i { x with outgoing } } }
      k (.answered (.ok ())))) (j : Nat) :
    sentTo j k d₀ (t ++ [.settles k]) = if i = j then [m] else [] := by
  rw [sentTo_concat hrun, hnone j, List.nil_append, adds_of_act? rfl hact]
  exact queuedFor_set hx hsend rfl j

theorem next (h : Served d₀ t d) (hrun : run? Desk.act? d₀ t = some d)
    (hact : d.act? e = some d') : Served d₀ (t ++ [e]) d' := by
  have hchanges : deskChanges d₀ (t ++ [e]) = deskChanges d₀ t ++ d.changes e :=
    history_concat t e hrun
  have hquiet (hnone : d.changes e = []) : deskChanges d₀ (t ++ [e]) = deskChanges d₀ t := by
    rw [hchanges, hnone, List.append_nil]
  have hsame : Stays d.manager.sessions d.manager.sessions := fun _ x hx => ⟨x, hx, rfl⟩
  cases handles_of_act? hact with
  | manager hmanager =>
    obtain ⟨htabled, hstays⟩ := h.tabled.passes (passes_of_act? hmanager)
    refine h.manages hrun rfl rfl ?_ hstays
    rw [hchanges]
    exact htabled
  | stops =>
    refine h.manages hrun rfl rfl ?_ hsame
    rw [hquiet rfl]
    exact h.tabled.ends rfl
  | asks => exact h.asks hrun ((hquiet rfl).symm ▸ h.tabled) hact
  | @queues k i c m x outgoing hc hfound hwaits hx hsend =>
    obtain ⟨-, hdecode, hnone⟩ := (h.traced k c hc).outcome.of_waits hwaits
    have hstays := stays_set (y := { x with outgoing }) hx rfl
    have hsent := sentTo_of_queues hrun hx hsend hnone hact
    refine h.answers hrun hc rfl rfl ?_ hstays ?_
    · rw [hquiet rfl]
      exact h.tabled.stays rfl rfl hstays
    · exact .queued hfound hdecode rfl ((hsent i).trans (if_pos rfl)) fun j hj =>
        (hsent j).trans (if_neg (Ne.symm hj))
  | @misses k i c hc hfound hx =>
    obtain ⟨x, hx', -⟩ := (h.traced k c hc).known i hfound
    rw [hx] at hx'
    cases hx'
  | @refused k i c m x hc hfound hwaits hx hsend =>
    have htraced := h.traced k c hc
    obtain ⟨-, hdecode, hnone⟩ := htraced.outcome.of_waits hwaits
    obtain ⟨x', hx', hid⟩ := htraced.known i hfound
    obtain rfl : x' = x := Option.some.inj (hx'.symm.trans hx)
    refine h.answers hrun hc rfl rfl ?_ hsame ?_
    · rw [hquiet rfl]
      exact h.tabled
    · exact .closed hfound hdecode (by rw [hid]) (sentTo_of_quiet hrun hnone hact rfl)
  | @givesUp k c m hc hwaits =>
    obtain ⟨⟨i, hfound⟩, hdecode, hnone⟩ := (h.traced k c hc).outcome.of_waits hwaits
    refine h.answers hrun hc rfl rfl ?_ hsame ?_
    · rw [hquiet rfl]
      exact h.tabled
    · exact .givenUp hfound hdecode rfl (sentTo_of_quiet hrun hnone hact rfl)

end Served

theorem served_of_run? {config : Config} {events : ProcessEvents} {s₀ : State}
    {t : List DeskEvent} (hnew : new? config events = some s₀)
    (hrun : run? Desk.act? ⟨s₀, []⟩ t = some d) : Served ⟨s₀, []⟩ t d := by
  have hstart : Served ⟨s₀, []⟩ [] ⟨s₀, []⟩ := by
    refine ⟨?_, fun k c hc => ?_, fun _ _ _ => rfl⟩
    · show Tabled [] s₀.holdings
      rw [(initial_of_new? hnew).holdings_eq]
      exact ⟨fun _ => rfl, fun _ _ hbook => nomatch hbook⟩
    · cases hc
  refine run?_invariant (motive := fun t d => Served ⟨s₀, []⟩ t d) hstart ?_ hrun
  intro past d₁ e d₂ hpast hserved hact
  exact hserved.next hpast hact

/-- What becomes of the call `k` of a manager, in a run from `d₀` to `d`. -/
structure Routed (d₀ : Desk) (t : List DeskEvent) (d : Desk) (k : Nat) (c : Call) : Prop where
  /-- It looked up its session once. It found the one that its process had been given and had not
  lost since, unless the manager was done and had emptied the table. -/
  looked : ∃ before after d₁, t = before ++ .asks c.pid c.bytes :: after ∧
    run? Desk.act? d₀ before = some d₁ ∧ d₁.calls.length = k ∧
    ∀ i, c.found = some i ↔ d₁.manager.service.hasEnded = false ∧
      ∃ early late, deskChanges d₀ before = early ++ .up c.pid i :: late ∧
        ∀ change ∈ late, change.pid ≠ c.pid
  /-- It was told that there is no session, or that it could not be read, or that the sender of the
  session is gone, and queued nothing; or it queued its message for that session and no other. -/
  outcome : Outcome c fun j => sentTo j k d₀ t
  /-- A call that waits can go on, unless the queue of the session that it found is full. -/
  goesOn : ∀ m, c.progress = .waits m → (d.act? (.settles k)).isSome = true ∨
    ∃ i x, c.found = some i ∧ d.manager.sessions[i]? = some x ∧ x.send m = .full

/-- **A request reaches the session that it was routed to, or none.** Take any run of a new manager
and of calls, in which sessions may be taken down and replaced while calls wait for them. -/
theorem requests_reach_their_session {config : Config} {events : ProcessEvents} {s₀ : State}
    {t : List DeskEvent} (hnew : new? config events = some s₀)
    (hrun : run? Desk.act? ⟨s₀, []⟩ t = some d) (hc : d.calls[k]? = some c) :
    Routed ⟨s₀, []⟩ t d k c := by
  have htraced := (served_of_run? hnew hrun).traced k c hc
  refine ⟨?_, htraced.outcome, fun m hwaits => ?_⟩
  · obtain ⟨before, after, d₁, ht, hbefore, hlength, hfound⟩ := htraced.looked
    refine ⟨before, after, d₁, ht, hbefore, hlength, fun i => ?_⟩
    have hlookup := (served_of_run? hnew hbefore).tabled.lookup_eq c.pid
    have hfound : c.found = if d₁.manager.service.hasEnded then none else
        book (deskChanges ⟨s₀, []⟩ before) c.pid := hfound.trans hlookup
    rw [hfound, ← book_eq_some_iff]
    cases d₁.manager.service.hasEnded <;> simp
  · obtain ⟨⟨i, hfound⟩, -, -⟩ := htraced.outcome.of_waits hwaits
    obtain ⟨x, hx, -⟩ := htraced.known i hfound
    cases hsend : x.send m with
    | full => exact .inr ⟨i, x, hfound, hx, hsend⟩
    | accepted outgoing =>
      refine .inl ?_
      simp [Desk.act?, hc, Desk.settle?, hfound, hwaits, State.send, hx, hsend]
    | refused =>
      refine .inl ?_
      simp [Desk.act?, hc, Desk.settle?, hfound, hwaits, State.send, hx, hsend]

/-- A call waits while the session that it has found is taken down and replaced. It is told that the
sender is gone, and the next call reaches the session that has replaced it. -/
theorem requests_reach_their_session_replaced :
    let events : ProcessEvents := ⟨{ capacity := 8 }, { capacity := 8 }⟩
    let visit : List Event :=
      [.appears 7, .move 0 .takesAdded, .move 0 (.builds (.checked none)),
        .move 0 (.builds (.injected (.ok ()))), .move 0 (.builds (.dialed none)),
        .move 0 .announces]
    let teardown : List Session.Move :=
      [.stage .start, .stage .heed, .sender .stops, .receiver .decodes, .receiver .stops,
        .decoder .stops, .pinger .starts, .pinger .stops, .stage .gather,
        .stage (.wroteFarewell (.ok 9)), .stage (.hungUp (.ok ()))]
    let leave : List Event := [.vanishes 7, .move 0 .takesRemoved] ++
      teardown.map (fun m => .move 0 (.session 0 m)) ++ [.move 0 .released, .move 0 .reports]
    let ping : Bytes := [91, 49, 44, 48, 93]
    let t : List DeskEvent := visit.map .manager ++ [.asks 7 ping, .asks 8 ping] ++
      leave.map .manager ++ [.asks 7 ping] ++ visit.map .manager ++
      [.settles 0, .asks 7 ping, .settles 3]
    ∃ s₀ d, new? {} events = some s₀ ∧ run? Desk.act? ⟨s₀, []⟩ t = some d ∧
      d.calls.map (fun c => (c.pid, c.found, c.progress)) =
        [(7, some 0, .answered (.error (.senderClosed 7))),
          (8, none, .answered (.error (.sessionNotFound 8))),
          (7, none, .answered (.error (.sessionNotFound 7))),
          (7, some 1, .answered (.ok ()))] ∧
      sentTo 1 3 ⟨s₀, []⟩ t = [.ping] ∧
      ∀ k c, d.calls[k]? = some c → Routed ⟨s₀, []⟩ t d k c := by
  intro events visit teardown leave ping t
  have hends : ((new? {} events).bind fun s₀ => (run? Desk.act? ⟨s₀, []⟩ t).map fun d =>
      (d.calls.map fun c => (c.pid, c.found, c.progress), sentTo 1 3 ⟨s₀, []⟩ t)) =
        some ([(7, some 0, .answered (.error (.senderClosed 7))),
          (8, none, .answered (.error (.sessionNotFound 8))),
          (7, none, .answered (.error (.sessionNotFound 7))),
          (7, some 1, .answered (.ok ()))], [.ping]) := by
    decide +kernel
  obtain ⟨s₀, hnew, hends⟩ := Option.bind_eq_some_iff.mp hends
  obtain ⟨d, hrun, hends⟩ := Option.map_eq_some_iff.mp hends
  simp only [Prod.mk.injEq] at hends
  obtain ⟨hcalls, hsent⟩ := hends
  exact ⟨s₀, d, hnew, hrun, hcalls, hsent, fun k c hc =>
    requests_reach_their_session hnew hrun hc⟩

end Wiretap.Manager
