import Wiretap.Proofs.Manager.Relay

/-!
# Sessions follow processes

What is true of a manager at any time, in whatever order processes appear and vanish, however the
bringing up of their agents turns out, and whatever their sessions and the clients of these do.

Results:

* `Booked.eq_of_not_isOver`, `Booked.runs_of_lookup`, `Booked.isOver_of_down`: which sessions run.
* `sessions_follow_processes`: the table lists the sessions of the book, each of them runs, and
  every change in the book is announced in its turn.
-/

namespace Wiretap.Manager

variable {cs : List Change} {said : List Announcement} {h h' : Holdings} {pid : UInt32} {i : Nat}

/-- A session that runs is in the book, or the manager waits for it. -/
theorem Staffed.book_of_not_isOver {service : Service} {sessions : List Session.State}
    (hs : Staffed cs service sessions) {x : Session.State} (hx : sessions[i]? = some x)
    (hover : x.isOver = false) : book cs x.id = some i ∨ service = .removing x.id i := by
  have hminded := hs.minded i x hx
  cases hcancelled : x.cancelled with
  | false => exact .inl (hminded.cancelled_iff.mp hcancelled)
  | true =>
    refine .inr ((hminded.isOver_or_removing hcancelled).resolve_left ?_)
    rw [hover]
    exact Bool.false_ne_true

namespace Booked

/-- **No two sessions of a process run at once.** -/
theorem eq_of_not_isOver (hb : Booked cs said h) {j : Nat} {x y : Session.State}
    (hx : h.sessions[i]? = some x) (hy : h.sessions[j]? = some y) (hxover : x.isOver = false)
    (hyover : y.isOver = false) (hid : x.id = y.id) : i = j := by
  have hxheld := hb.staffed.book_of_not_isOver hx hxover
  have hyheld := hb.staffed.book_of_not_isOver hy hyover
  rw [← hid] at hyheld
  rcases hxheld with hxheld | hxheld
  · rcases hyheld with hyheld | hyheld
    · exact Option.some.inj (hxheld.symm.trans hyheld)
    · exact nomatch hxheld.symm.trans (hb.removing _ _ hyheld)
  · rcases hyheld with hyheld | hyheld
    · exact nomatch hyheld.symm.trans (hb.removing _ _ hxheld)
    · cases hxheld.symm.trans hyheld
      rfl

theorem lookup_eq (hb : Booked cs said h) (hcompleted : h.service.hasCompleted = false)
    (pid : UInt32) : h.table.lookup pid = (book cs pid).map fun i => ⟨i, i⟩ := by
  have hlisted := hb.listed
  rw [hcompleted] at hlisted
  exact hlisted.lookup_eq_map pid

theorem mem_roster_iff (hb : Booked cs said h) (hcompleted : h.service.hasCompleted = false)
    {token : Nat} :
    (token, i) ∈ h.roster.members ↔ ∃ pid, h.table.lookup pid = some ⟨token, i⟩ := by
  rw [hb.listed.mem_iff]
  constructor
  · rintro ⟨rfl, pid, hbook⟩
    exact ⟨pid, by rw [hb.lookup_eq hcompleted, hbook, Option.map_some]⟩
  · rintro ⟨pid, hlookup⟩
    rw [hb.lookup_eq hcompleted] at hlookup
    obtain ⟨j, hbook, hentry⟩ := Option.map_eq_some_iff.mp hlookup
    cases hentry
    exact ⟨rfl, pid, hbook⟩

theorem hasCompleted_of_lookup (hb : Booked cs said h) {entry : Entry}
    (hlookup : h.table.lookup pid = some entry) : h.service.hasCompleted = false := by
  cases hcompleted : h.service.hasCompleted with
  | false => rfl
  | true =>
    rw [hb.listed.lookup_eq, hcompleted] at hlookup
    cases hlookup

/-- A session in the table is supervised and runs. -/
theorem runs_of_lookup (hb : Booked cs said h) {entry : Entry}
    (hlookup : h.table.lookup pid = some entry) :
    h.roster.member? entry.token = some entry.session ∧ ∃ x, h.sessions[entry.session]? = some x ∧
      x.id = pid ∧ x.cancelled = false ∧ x.isOver = false := by
  have hlisted := hb.listed
  rw [hb.hasCompleted_of_lookup hlookup] at hlisted
  obtain ⟨hheld, -, hsupervised⟩ := hlisted.of_lookup hlookup
  obtain ⟨x, hx, rfl⟩ := hb.staffed.session_of_book hheld
  have hminded := hb.staffed.minded _ x hx
  have hcancelled := hminded.cancelled_iff.mpr hheld
  exact ⟨hsupervised, x, hx, rfl, hcancelled, hminded.dutiful.not_isOver hcancelled⟩

/-- What is about to be announced to be up is in the book. -/
theorem book_of_pending (hb : Booked cs said h) (hpending : .up pid i ∈ h.pending) :
    h.service.hasCompleted = false ∧ book cs pid = some i := by
  unfold Holdings.pending at hpending
  split at hpending
  next j hservice =>
    obtain ⟨pid', hbook⟩ := hb.announcing j hservice
    obtain ⟨x, hx, rfl⟩ := hb.staffed.session_of_book hbook
    rw [hx] at hpending
    cases List.mem_singleton.mp hpending
    rw [hservice]
    exact ⟨rfl, hbook⟩
  next => cases List.mem_singleton.mp hpending
  next => cases List.mem_singleton.mp hpending
  next => cases hpending

/-- A session that was taken out of the book is over, or its end is not announced yet. -/
theorem isOver_of_down (hb : Booked cs said h) (hdown : .down pid i ∈ cs) :
    ∃ x, h.sessions[i]? = some x ∧ x.id = pid ∧
      (x.isOver = true ∨ h.service = .removing pid i ∧ h.pending = [.down pid]) := by
  obtain ⟨x, hx, rfl, hcancelled⟩ := hb.staffed.lost pid i hdown
  refine ⟨x, hx, rfl, ?_⟩
  have hminded := hb.staffed.minded i x hx
  refine (hminded.isOver_or_removing hcancelled).imp_right fun hservice => ⟨hservice, ?_⟩
  rw [Holdings.pending, hservice]

theorem alternates (hb : Booked cs said h) (pid : UInt32) : Alternates (turns pid said) := by
  refine (hb.regular.alternates pid).of_isPrefix ?_
  rw [← hb.said_eq, turns_append]
  exact List.prefix_append _ _

/-- **The table and the supervisor change only with the book**, until the manager is done. -/
theorem steady (hb : Booked cs said h) {said' : List Announcement}
    (hpasses : Passes h [] said' h') :
    h'.roster = h.roster ∧ (h'.service.hasCompleted = false → h'.table = h.table) := by
  cases hpasses with
  | session hx hact hcancel hdrop =>
    rw [hb.setSession_eq hx hact hcancel hdrop]
    exact ⟨rfl, fun _ => rfl⟩
  | completes => exact ⟨rfl, fun hcompleted => nomatch hcompleted⟩
  | _ => exact ⟨rfl, fun _ => rfl⟩

end Booked

/-! ## The whole -/

variable {s : State}

/-- What is true of a manager after a run. -/
structure KeepsBook (s₀ : State) (t : List Event) (s : State) : Prop where
  /-- No two sessions of a process run at once. -/
  eq_of_running : ∀ (i j : Nat) x y, s.sessions[i]? = some x → s.sessions[j]? = some y →
    x.isOver = false → y.isOver = false → x.id = y.id → i = j
  /-- The table lists the processes that were given a session and have not lost it since, as long as
  the manager is not done. -/
  session?_eq_iff : ∀ pid i, s.session? pid = some i ↔ s.service.hasCompleted = false ∧
    ∃ before after, changesOf s₀ t = before ++ .up pid i :: after ∧ ∀ c ∈ after, c.pid ≠ pid
  /-- It is not done before one of its queues ends. -/
  not_completed : s.isFed = true → s.service.hasCompleted = false
  /-- A session in the table is supervised under its token, and it runs. -/
  runs : ∀ pid entry, s.table.lookup pid = some entry →
    s.roster.member? entry.token = some entry.session ∧ ∃ x, s.sessions[entry.session]? = some x ∧
      x.id = pid ∧ x.cancelled = false ∧ x.isOver = false
  /-- The supervisor runs no others. -/
  mem_roster_iff : s.service.hasCompleted = false → ∀ token i,
    (token, i) ∈ s.roster.members ↔ ∃ pid, s.table.lookup pid = some ⟨token, i⟩
  /-- These are all sessions that were ever started. -/
  starts_eq : starts (changesOf s₀ t) = (s.sessions.map (·.id)).zipIdx
  /-- Each change is announced once, in its turn. -/
  announced_eq :
    announcedOf s₀ t ++ s.holdings.pending = (changesOf s₀ t).map Change.announcement
  /-- What is not announced yet can be, unless there is something to wait for. -/
  waits_or_announces : s.holdings.pending ≠ [] → ∀ now, Waits s ∨
    ∃ m ∈ [Move.announces, .released, .reports], (s.act? (.move now m)).isSome = true
  /-- The table lists a session before the session is announced. -/
  session?_of_pending : ∀ pid i, .up pid i ∈ s.holdings.pending → s.session? pid = some i
  /-- A session that was lost is over before that is announced. -/
  isOver_of_down : ∀ pid i, .down pid i ∈ changesOf s₀ t →
    ∃ x, s.sessions[i]? = some x ∧ x.id = pid ∧
      (x.isOver = true ∨ s.service = .removing pid i ∧ s.holdings.pending = [.down pid])
  alternates : ∀ pid, Alternates (turns pid (announcedOf s₀ t))
  /-- Those who listen hear what is announced. -/
  relayedUp : Event.closeUp ∉ t →
    s.up.Relayed (takenUpOf s₀ t) ((announcedOf s₀ t).filterMap Announcement.up?)
  relayedDown : Event.closeDown ∉ t →
    s.down.Relayed (takenDownOf s₀ t) ((announcedOf s₀ t).filterMap Announcement.down?)
  /-- Without a change, table and supervisor stay as they are. -/
  steady : ∀ e s', s.act? e = some s' → s.changes e = [] →
    s'.roster = s.roster ∧ (s'.service.hasCompleted = false → s'.table = s.table)
  /-- Events that come to nothing are no changes, and nothing is announced of them. -/
  unmoved : ∀ e s', s.act? e = some s' → Vain s e →
    Unmoved s s' ∧ s.changes e = [] ∧ s.announced e = []

/-- **Sessions follow processes.** Take any run of a new manager that nobody tells to stop. Then the
table has a session for each process that was given one and has not lost it since, no process has
two, and listeners hear of each session in turn that it is up, and, once it is over, that it is
down. -/
theorem sessions_follow_processes {config : Config} {events : ProcessEvents} {s₀ : State}
    {t : List Event} (hnew : new? config events = some s₀)
    (hrun : run? State.act? s₀ t = some s) : KeepsBook s₀ t s := by
  have hb := booked_of_run? hnew hrun
  obtain ⟨hup, hdown⟩ := relayed_of_run? hnew hrun
  have hsession : ∀ pid i, s.session? pid = some i ↔
      s.service.hasCompleted = false ∧ book (changesOf s₀ t) pid = some i := by
    intro pid i
    have hlookup : s.table.lookup pid = _ := hb.listed.lookup_eq pid
    rw [State.session?, hlookup]
    show _ ↔ s.holdings.service.hasCompleted = false ∧ _
    cases s.holdings.service.hasCompleted <;> simp [Option.map_map, Function.comp_def]
  exact {
    eq_of_running := fun _ _ _ _ hx hy hxover hyover hid =>
      hb.eq_of_not_isOver hx hy hxover hyover hid
    session?_eq_iff := by
      intro pid i
      rw [hsession, book_eq_some_iff]
    not_completed := hasCompleted_of_run? hnew hrun
    runs := fun _ _ hlookup => hb.runs_of_lookup hlookup
    mem_roster_iff := fun hcompleted _ _ => hb.mem_roster_iff hcompleted
    starts_eq := hb.staffed.starts_eq
    announced_eq := hb.said_eq
    waits_or_announces := waits_or_announces
    session?_of_pending := fun pid i hpending => (hsession pid i).mpr (hb.book_of_pending hpending)
    isOver_of_down := fun _ _ hlost => hb.isOver_of_down hlost
    alternates := hb.alternates
    relayedUp := hup
    relayedDown := hdown
    steady := by
      intro e s' hact hchanges
      have hpasses := passes_of_act? hact
      rw [hchanges] at hpasses
      exact hb.steady hpasses
    unmoved := fun _ _ hact hvain => hvain.unmoved hact }

/-- A process appears twice and then vanishes, while listeners take what is announced. -/
theorem sessions_follow_visit :
    let events : ProcessEvents := ⟨{ capacity := 8 }, { capacity := 8 }⟩
    let visit : List Event :=
      [.appears 7, .appears 7, .move 0 .takesAdded, .move 0 (.builds (.checked none)),
        .move 0 (.builds (.injected (.ok ()))), .move 0 (.builds (.dialed none)),
        .move 0 .announces, .takeUp, .move 0 .takesAdded, .vanishes 7, .move 0 .takesRemoved]
    let teardown : List Session.Move :=
      [.stage .start, .stage .heed, .sender .stops, .receiver .decodes, .receiver .stops,
        .decoder .stops, .pinger .starts, .pinger .stops, .stage .gather,
        .stage (.wroteFarewell (.ok 9)), .stage (.hungUp (.ok ()))]
    let t := visit ++ teardown.map (fun m => .move 0 (.session 0 m)) ++
      [.move 0 .released, .move 0 .reports, .takeDown]
    ∃ s₀ s, new? {} events = some s₀ ∧ run? State.act? s₀ t = some s ∧
      changesOf s₀ t = [.up 7 0, .down 7 0] ∧ announcedOf s₀ t = [.up 7 0, .down 7] ∧
      takenUpOf s₀ t = [0] ∧ takenDownOf s₀ t = [7] ∧
      ∃ x, s.sessions[0]? = some x ∧ x.id = 7 ∧ x.isOver = true := by
  intro events visit teardown t
  have hends : ((new? {} events).bind fun s₀ => (run? State.act? s₀ t).map fun s =>
      (s.holdings.pending, changesOf s₀ t, s.up.items, s.down.items)) =
        some ([], [.up 7 0, .down 7 0], [], []) := by
    decide +kernel
  obtain ⟨s₀, hnew, hends⟩ := Option.bind_eq_some_iff.mp hends
  obtain ⟨s, hrun, hends⟩ := Option.map_eq_some_iff.mp hends
  simp only [Prod.mk.injEq] at hends
  obtain ⟨hpending, hchanges, hup, hdown⟩ := hends
  have hkeeps := sessions_follow_processes hnew hrun
  have hsaid := hkeeps.announced_eq
  rw [hpending, hchanges, List.append_nil] at hsaid
  have htakenUp := (hkeeps.relayedUp (by simp [t, visit, teardown])).2
  rw [hup, hsaid, List.append_nil] at htakenUp
  have htakenDown := (hkeeps.relayedDown (by simp [t, visit, teardown])).2
  rw [hdown, hsaid, List.append_nil] at htakenDown
  obtain ⟨x, hx, hid, hover⟩ := hkeeps.isOver_of_down 7 0 (by simp [hchanges])
  rw [hpending] at hover
  exact ⟨s₀, s, hnew, hrun, hchanges, hsaid, htakenUp, htakenDown, x, hx, hid,
    hover.resolve_right nofun⟩

end Wiretap.Manager
