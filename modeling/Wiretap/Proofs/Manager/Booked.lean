import Wiretap.Proofs.Manager.Ending
import Wiretap.Proofs.Manager.Listed
import Wiretap.Proofs.Manager.Staffed

/-!
# The book and the manager

What a manager holds is what the book says, whatever happens to it, and it announces the changes in
the book one by one.

Results:

* `Booked.passes`: an event that changes the book changes what the manager holds in the same way.
* `booked_of_run?`: after every run a new manager holds what the book says.
-/

namespace Wiretap.Manager

variable {cs : List Change} {pid : UInt32} {i : Nat}

/-- The manager holds what the book says, and has announced all changes but the pending one. -/
structure Booked (cs : List Change) (said : List Announcement) (h : Holdings) : Prop where
  regular : Regular cs
  said_eq : said ++ h.pending = cs.map Change.announcement
  listed : Listed cs h.service.hasCompleted h.table h.roster
  staffed : Staffed cs h.service h.sessions
  token_eq : h.roster.nextToken = h.sessions.length
  uncancelled : h.roster.cancelled = false
  building : ∀ job, h.service = .building job → book cs job.pid = none
  announcing : ∀ i, h.service = .announcing i → ∃ pid, book cs pid = some i
  removing : ∀ pid i, h.service = .removing pid i → book cs pid = none

namespace Booked

variable {said : List Announcement} {h h' : Holdings}

/-- The service goes on, and the book stays as it is. -/
theorem serves (hb : Booked cs said h) {said' : List Announcement} {service : Service}
    (hservice : service.hasCompleted = h.service.hasCompleted)
    (hpending : said' ++ { h with service }.pending = said ++ h.pending)
    (hover : ∀ pid i x, h.service = .removing pid i → h.sessions[i]? = some x →
      x.isOver = true ∨ service = .removing pid i)
    (hbuilding : ∀ job, service = .building job → book cs job.pid = none)
    (hannouncing : ∀ i, service ≠ .announcing i) (hremoving : ∀ pid i, service ≠ .removing pid i) :
    Booked cs said' { h with service } where
  regular := hb.regular
  said_eq := hpending.trans hb.said_eq
  listed := by
    rw [hservice]
    exact hb.listed
  staffed := hb.staffed.serves hover
  token_eq := hb.token_eq
  uncancelled := hb.uncancelled
  building := hbuilding
  announcing i hservice := absurd hservice (hannouncing i)
  removing pid i hservice := absurd hservice (hremoving pid i)

/-- The service rests, and nothing is left to announce. -/
theorem rests (hb : Booked cs said h) {old service : Service} (hold : h.service = old)
    (hcompleted : old.hasCompleted = false) (hremoving : ∀ pid i, old ≠ .removing pid i)
    (hservice : service = .idle ∨ ∃ reason, service = .finished (.failed reason)) :
    Booked cs (said ++ h.pending) { h with service } := by
  subst hold
  have hrests : ∀ {service}, service.hasCompleted = false → { h with service }.pending = [] →
      (∀ job, service ≠ .building job) → (∀ i, service ≠ .announcing i) →
      (∀ pid i, service ≠ .removing pid i) → Booked cs (said ++ h.pending) { h with service } := by
    intro service hcompleted' hpending hbuilding hannouncing hremoving'
    refine hb.serves (hcompleted'.trans hcompleted.symm) ?_
      (fun pid i _ hs => absurd hs (hremoving pid i)) (fun job hs => absurd hs (hbuilding job))
      hannouncing hremoving'
    rw [hpending, List.append_nil]
  rcases hservice with rfl | ⟨reason, rfl⟩
  · exact hrests rfl rfl (fun _ => nofun) (fun _ => nofun) fun _ _ => nofun
  · exact hrests rfl rfl (fun _ => nofun) (fun _ => nofun) fun _ _ => nofun

theorem registers (hb : Booked cs said h) {job : Injection.State} {x : Session.State}
    (hbuilding : h.service = .building job) (hid : x.id = job.pid) (hcreated : x.stage = .created) :
    Booked (cs ++ [.up job.pid h.sessions.length]) said (h.register job.pid x) := by
  have hnone := hb.building job hbuilding
  have hcompleted : h.service.hasCompleted = false := by rw [hbuilding]; rfl
  have hpending : h.pending = [] := by rw [Holdings.pending, hbuilding]
  have hlisted := hb.listed
  rw [hcompleted] at hlisted
  rw [← hid] at hnone ⊢
  exact {
    regular := .up _ hb.regular hnone
    said_eq := by
      have hsaid := hb.said_eq
      rw [hpending, List.append_nil] at hsaid
      have hpending' : (h.register x.id x).pending = [.up x.id h.sessions.length] := by
        show (((h.sessions ++ [_])[h.sessions.length]?).map _).toList = _
        rw [List.getElem?_concat_length]
        rfl
      rw [hpending', hsaid, List.map_append]
      rfl
    listed := hlisted.up hnone hb.token_eq
    staffed := hb.staffed.up (by rw [hbuilding]; rintro _ _ ⟨⟩)
      (x := { x with cancelled := h.roster.cancelled }) hnone hcreated hb.uncancelled
    token_eq := by
      show h.roster.nextToken + 1 = (h.sessions ++ [_]).length
      rw [hb.token_eq, List.length_append, List.length_singleton]
    uncancelled := hb.uncancelled
    building := fun _ hservice => by cases hservice
    announcing := by
      intro i hservice
      cases hservice
      exact ⟨x.id, by rw [book_up, if_pos rfl]⟩
    removing := fun _ _ hservice => by cases hservice }

theorem detaches (hb : Booked cs said h) {entry : Entry} (hidle : h.service = .idle)
    (hlookup : h.table.lookup pid = some entry) (hmember : h.roster.member? entry.token = some i) :
    Booked (cs ++ [.down pid entry.session]) said (h.detach pid entry.token i) := by
  have hlisted := hb.listed
  rw [hidle] at hlisted
  obtain ⟨hheld, htoken, hsupervised⟩ := hlisted.of_lookup hlookup
  obtain rfl : i = entry.session := Option.some.inj (hmember.symm.trans hsupervised)
  obtain ⟨x, hx, rfl⟩ := hb.staffed.session_of_book hheld
  have hpending : h.pending = [] := by rw [Holdings.pending, hidle]
  exact {
    regular := .down hb.regular hheld
    said_eq := by
      have hsaid := hb.said_eq
      rw [hpending, List.append_nil] at hsaid
      rw [hsaid, List.map_append]
      rfl
    listed := by
      show Listed _ _ _ (h.roster.drop entry.token)
      rw [htoken]
      exact hlisted.down hheld fun pid' hbook => hb.staffed.pid_eq_of_book hbook hheld
    staffed := by
      show Staffed _ _ (h.sessions.modify _ _)
      rw [modify_of_getElem? hx]
      exact hb.staffed.down (by rw [hidle]; rintro _ _ ⟨⟩) hheld hx
    token_eq := by
      show h.roster.nextToken = (h.sessions.modify _ _).length
      rw [hb.token_eq, List.length_modify]
    uncancelled := hb.uncancelled
    building := fun _ hservice => by cases hservice
    announcing := fun _ hservice => by cases hservice
    removing := by
      intro pid i hservice
      cases hservice
      rw [book_down, if_pos rfl] }

theorem completes (hb : Booked cs said h) (hidle : h.service = .idle) :
    Booked cs said { h with table := [], service := .finished .complete } where
  regular := hb.regular
  said_eq := by
    rw [← hb.said_eq, Holdings.pending, Holdings.pending, hidle]
  listed := hb.listed.completes
  staffed := hb.staffed.serves fun _ _ _ hs => nomatch hidle.symm.trans hs
  token_eq := hb.token_eq
  uncancelled := hb.uncancelled
  building := fun _ hservice => nomatch hservice
  announcing := fun _ hservice => nomatch hservice
  removing := fun _ _ hservice => nomatch hservice

/-- A session that is over was taken out of the book, and of its supervisor, before. -/
theorem setSession_eq (hb : Booked cs said h) {x x' : Session.State} {e : Session.Event}
    (hx : h.sessions[i]? = some x) (hact : x.act? e = some x') (hcancel : e ≠ .cancel)
    (hdrop : e ≠ .drop) : h.setSession i x' = { h with sessions := h.sessions.set i x' } := by
  unfold Holdings.setSession
  split
  next hover =>
    have hstaffed := hb.staffed.acts hx hact hcancel hdrop
    have hi : i < h.sessions.length := (List.getElem?_eq_some_iff.mp hx).1
    have hminded := hstaffed.minded i x' (List.getElem?_set_self hi)
    have hkept : h.roster.members.filter (·.2 != i) = h.roster.members := by
      refine List.filter_eq_self.mpr fun p hp => ?_
      obtain ⟨-, pid, hbook⟩ := (hb.listed.mem_iff p.1 p.2).mp hp
      rw [bne_iff_ne]
      rintro rfl
      obtain ⟨y, hy, rfl⟩ := hstaffed.session_of_book hbook
      rw [List.getElem?_set_self hi] at hy
      cases hy
      have hrunning := hminded.dutiful.not_isOver (hminded.cancelled_iff.mpr hbook)
      rw [hover] at hrunning
      cases hrunning
    rw [hkept]
  next => rfl

theorem pending_set {x x' : Session.State} (hx : h.sessions[i]? = some x) (hid : x'.id = x.id) :
    { h with sessions := h.sessions.set i x' }.pending = h.pending := by
  obtain ⟨table, roster, sessions, service⟩ := h
  cases service with
  | announcing j =>
    have hids := congrArg (·[j]?) (Staffed.ids_set hx hid)
    simp only [List.getElem?_map] at hids
    have hup := congrArg (fun pid => (pid.map fun pid => Announcement.up pid j).toList) hids
    simp only [Option.map_map] at hup
    exact hup
  | _ => rfl

theorem session (hb : Booked cs said h) {x x' : Session.State} {e : Session.Event}
    (hx : h.sessions[i]? = some x) (hact : x.act? e = some x') (hcancel : e ≠ .cancel)
    (hdrop : e ≠ .drop) : Booked cs said (h.setSession i x') := by
  rw [hb.setSession_eq hx hact hcancel hdrop]
  exact {
    regular := hb.regular
    said_eq := by
      rw [pending_set hx (Session.id_of_act? hact hcancel).1]
      exact hb.said_eq
    listed := hb.listed
    staffed := hb.staffed.acts hx hact hcancel hdrop
    token_eq := by rw [hb.token_eq, List.length_set]
    uncancelled := hb.uncancelled
    building := hb.building
    announcing := hb.announcing
    removing := hb.removing }

/-- **Whatever happens to a manager, it holds what the book says.** -/
theorem passes {cs' : List Change} {said' : List Announcement} (hb : Booked cs said h)
    (hpasses : Passes h cs' said' h') : Booked (cs ++ cs') (said ++ said') h' := by
  cases hpasses with
  | still =>
    rw [List.append_nil, List.append_nil]
    exact hb
  | begins hidle hnone =>
    rw [List.append_nil, List.append_nil]
    refine hb.serves (congrArg Service.hasCompleted hidle).symm ?_
      (fun _ _ _ hs => by cases hidle.symm.trans hs) ?_ (fun _ hs => by cases hs)
      fun _ _ hs => by cases hs
    · simp [Holdings.pending, hidle]
    · rintro job ⟨⟩
      have hlisted := hb.listed
      rw [hidle] at hlisted
      exact Option.map_eq_none_iff.mp ((hlisted.lookup_eq_map _).symm.trans hnone)
  | builds hbuilding hpid =>
    rw [List.append_nil, List.append_nil]
    refine hb.serves (congrArg Service.hasCompleted hbuilding).symm ?_
      (fun _ _ _ hs => by cases hbuilding.symm.trans hs) ?_ (fun _ hs => by cases hs)
      fun _ _ hs => by cases hs
    · simp [Holdings.pending, hbuilding]
    · rintro job ⟨⟩
      rw [hpid]
      exact hb.building _ hbuilding
  | fails hbuilding hservice =>
    have hrests := hb.rests hbuilding rfl (fun _ _ hs => by cases hs) hservice
    rw [Holdings.pending, hbuilding] at hrests
    rw [List.append_nil]
    exact hrests
  | registers hbuilding hid hcreated =>
    rw [List.append_nil]
    exact hb.registers hbuilding hid hcreated
  | announces hannouncing =>
    rw [List.append_nil]
    exact hb.rests hannouncing rfl (fun _ _ hs => by cases hs) (.inl rfl)
  | detaches hidle hlookup hmember =>
    rw [List.append_nil]
    exact hb.detaches hidle hlookup hmember
  | loses hidle hlookup hmember =>
    have hlisted := hb.listed
    rw [hidle] at hlisted
    obtain ⟨-, -, hsupervised⟩ := hlisted.of_lookup hlookup
    rw [hmember] at hsupervised
    cases hsupervised
  | released hremoving hover =>
    rw [List.append_nil, List.append_nil]
    refine hb.serves (congrArg Service.hasCompleted hremoving).symm ?_ ?_ (fun _ hs => by cases hs)
      (fun _ hs => by cases hs) fun _ _ hs => by cases hs
    · simp [Holdings.pending, hremoving]
    · intro pid i x hs hx
      cases hremoving.symm.trans hs
      exact .inl (hover x hx)
  | reports hreporting =>
    rw [List.append_nil]
    exact hb.rests hreporting rfl (fun _ _ hs => by cases hs) (.inl rfl)
  | completes hidle =>
    rw [List.append_nil, List.append_nil]
    exact hb.completes hidle
  | restarts hfailed =>
    have hrests := hb.rests hfailed rfl (fun _ _ hs => by cases hs) (.inl rfl)
    rw [Holdings.pending, hfailed] at hrests
    rw [List.append_nil]
    exact hrests
  | session hx hact hcancel hdrop =>
    rw [List.append_nil, List.append_nil]
    exact hb.session hx hact hcancel hdrop

end Booked

/-! ## Runs -/

/-- The book of a run. -/
def changesOf (s : State) (t : List Event) : List Change := history State.act? State.changes s t

/-- What is announced in the course of a run. -/
def announcedOf (s : State) (t : List Event) : List Announcement :=
  history State.act? State.announced s t

theorem booked_of_new? {config : Config} {events : ProcessEvents} {s : State}
    (h : new? config events = some s) : Booked [] [] s.holdings := by
  rw [(initial_of_new? h).holdings_eq]
  exact {
    regular := .nil
    said_eq := rfl
    listed := ⟨fun _ => rfl, .empty, fun _ _ => ⟨nofun, fun ⟨_, _, hbook⟩ => nomatch hbook⟩⟩
    staffed := ⟨rfl, fun _ _ => nofun, fun _ _ => nofun⟩
    token_eq := rfl
    uncancelled := rfl
    building := fun _ _ => rfl
    announcing := fun _ => nofun
    removing := fun _ _ _ => rfl }

/-- **A new manager holds what the book says after every run.** -/
theorem booked_of_run? {config : Config} {events : ProcessEvents} {s₀ s : State} {t : List Event}
    (hnew : new? config events = some s₀) (hrun : run? State.act? s₀ t = some s) :
    Booked (changesOf s₀ t) (announcedOf s₀ t) s.holdings := by
  refine run?_invariant
    (motive := fun t (s : State) => Booked (changesOf s₀ t) (announcedOf s₀ t) s.holdings)
    (booked_of_new? hnew) ?_ hrun
  intro past s e s' hpast hb hact
  rw [changesOf, announcedOf, history_concat past e hpast, history_concat past e hpast]
  exact hb.passes (passes_of_act? hact)

end Wiretap.Manager
