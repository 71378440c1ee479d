import Wiretap.Proofs.Manager.Booked

/-!
# What listeners hear

What the manager announces goes into the queues of those who listen, as long as they do.

Results:

* `Queue.Relays.next`: what goes into a queue comes out of it in the same order.
* `relays_of_act?`: what an event announces goes into the queues.
* `waits_or_announces`: a change is announced as soon as there is nothing to wait for.
* `relayed_of_run?`: what listeners have taken, and what is queued for them, is what was announced.
-/

namespace Wiretap

/-- In one step of a queue to which somebody listens, this is put into it, and that is taken out of
it. -/
def Queue.Relays {α : Type} (q q' : Queue α) (put got : List α) : Prop :=
  q.listening = true → q'.listening = true ∧ got ++ q'.items = q.items ++ put

/-- Somebody listens, and these are all the items that were put into the queue. -/
def Queue.Relayed {α : Type} (q : Queue α) (taken offered : List α) : Prop :=
  q.listening = true ∧ taken ++ q.items = offered

namespace Queue

variable {α : Type} {q q' : Queue α} {a : α}

theorem relays_self : q.Relays q [] [] := fun h => ⟨h, (List.append_nil _).symm⟩

theorem relays_of_take? (h : q.take? = some (a, q')) : q.Relays q' [] q.items.head?.toList := by
  obtain ⟨hitems, hq'⟩ := eq_of_take? h
  intro hlistening
  rw [hq', hitems]
  exact ⟨hlistening, (List.append_nil _).symm⟩

theorem relays_of_offer (h : q.offer a = .accepted q') : q.Relays q' [a] [] := by
  obtain ⟨hlistening, rfl⟩ := eq_of_offer h
  exact fun _ => ⟨hlistening, rfl⟩

theorem relays_of_refused (h : q.offer a = .refused) : q.Relays q [a] [] := by
  intro hlistening
  rw [not_listening_of_offer h] at hlistening
  cases hlistening

theorem Relays.next {put got taken offered : List α} (h : q.Relays q' put got)
    (hq : q.Relayed taken offered) : q'.Relayed (taken ++ got) (offered ++ put) := by
  obtain ⟨hlistening, rfl⟩ := hq
  obtain ⟨hlistening', hitems⟩ := h hlistening
  refine ⟨hlistening', ?_⟩
  rw [List.append_assoc, hitems, List.append_assoc]

end Queue

namespace Manager

/-! ## One event -/

/-- The session that is announced to be up. -/
def Announcement.up? : Announcement → Option Nat
  | .up _ i => some i
  | .down _ => none

/-- The process whose session is announced to be down. -/
def Announcement.down? : Announcement → Option UInt32
  | .up _ _ => none
  | .down pid => some pid

/-- What a listener takes. -/
def State.takenUp (s : State) : Event → List Nat
  | .takeUp => s.up.items.head?.toList
  | _ => []

def State.takenDown (s : State) : Event → List UInt32
  | .takeDown => s.down.items.head?.toList
  | _ => []

variable {s s' : State} {now : Nat} {cancelled : Bool}

theorem Steps.queues_eq {m : Move} (h : Steps now cancelled s m s') (hannounces : m ≠ .announces)
    (hreports : m ≠ .reports) : s'.up = s.up ∧ s'.down = s.down := by
  cases h with
  | announces => exact absurd rfl hannounces
  | reports => exact absurd rfl hreports
  | detaches _ _ hdetached => cases hdetached <;> exact ⟨rfl, rfl⟩
  | builds _ _ hbuilt => cases hbuilt <;> exact ⟨rfl, rfl⟩
  | _ => exact ⟨rfl, rfl⟩

theorem relays_of_announces (h : s.step? now cancelled .announces = some s') :
    ∃ i, s.service = .announcing i ∧ s.up.Relays s'.up [i] [] ∧ s'.down = s.down := by
  generalize hm : Move.announces = m at h
  unfold State.step? at h
  split at h
  case h_5 i hannouncing =>
    refine ⟨i, hannouncing, ?_⟩
    split at h <;> cases h
    next hoffer => exact ⟨Queue.relays_of_offer hoffer, rfl⟩
    next hoffer => exact ⟨Queue.relays_of_refused hoffer, rfl⟩
  case h_10 => cases h
  all_goals cases hm

theorem relays_of_reports (h : s.step? now cancelled .reports = some s') :
    ∃ pid, s.service = .reporting pid ∧ s.down.Relays s'.down [pid] [] ∧ s'.up = s.up := by
  generalize hm : Move.reports = m at h
  unfold State.step? at h
  split at h
  case h_7 pid hreporting =>
    refine ⟨pid, hreporting, ?_⟩
    split at h <;> cases h
    next hoffer => exact ⟨Queue.relays_of_offer hoffer, rfl⟩
    next hoffer => exact ⟨Queue.relays_of_refused hoffer, rfl⟩
  case h_10 => cases h
  all_goals cases hm

/-- What an event does to the queues of the listeners. -/
structure Relays (s s' : State) (e : Event) : Prop where
  up : e ≠ .closeUp →
    s.up.Relays s'.up ((s.announced e).filterMap Announcement.up?) (s.takenUp e)
  down : e ≠ .closeDown →
    s.down.Relays s'.down ((s.announced e).filterMap Announcement.down?) (s.takenDown e)

/-- The event has nothing to do with the queues. -/
theorem relays_of_eq {e : Event} (hup : s'.up = s.up) (hdown : s'.down = s.down)
    (hsaid : s.announced e = []) (htakenUp : s.takenUp e = []) (htakenDown : s.takenDown e = []) :
    Relays s s' e := by
  constructor
  · intro _
    rw [hup, hsaid, htakenUp]
    exact Queue.relays_self
  · intro _
    rw [hdown, hsaid, htakenDown]
    exact Queue.relays_self

/-- A session that is to be announced is one that was started. -/
theorem announced_announces {cs : List Change} {said : List Announcement}
    (hb : Booked cs said s.holdings) {i : Nat} (hservice : s.service = .announcing i) :
    ∃ pid, s.announced (.move now .announces) = [.up pid i] := by
  obtain ⟨pid, hbook⟩ := hb.announcing i hservice
  obtain ⟨x, hx, -⟩ := hb.staffed.session_of_book hbook
  refine ⟨x.id, ?_⟩
  have hx' : s.sessions[i]? = some x := hx
  simp only [State.announced, State.holdings, Holdings.pending, hservice, hx', Option.map_some,
    Option.toList_some]

theorem announced_reports {pid : UInt32} (hservice : s.service = .reporting pid) :
    s.announced (.move now .reports) = [.down pid] := by
  simp only [State.announced, State.holdings, Holdings.pending, hservice]

theorem relays_of_act? {cs : List Change} {said : List Announcement}
    (hb : Booked cs said s.holdings) {e : Event} (h : s.act? e = some s') : Relays s s' e := by
  cases acts_of_act? h with
  | @move now m _ hstep =>
    cases m with
    | announces =>
      obtain ⟨i, hservice, hup, hdown⟩ := relays_of_announces hstep
      obtain ⟨pid, hsaid⟩ := announced_announces hb hservice
      constructor
      · intro _
        rw [hsaid]
        exact hup
      · intro _
        rw [hsaid, hdown]
        exact Queue.relays_self
    | reports =>
      obtain ⟨pid, hservice, hdown, hup⟩ := relays_of_reports hstep
      constructor
      · intro _
        rw [announced_reports hservice, hup]
        exact Queue.relays_self
      · intro _
        rw [announced_reports hservice]
        exact hdown
    | _ =>
      obtain ⟨hup, hdown⟩ := (steps_of_step? hstep).queues_eq nofun nofun
      exact relays_of_eq hup hdown rfl rfl rfl
  | takeUp htake => exact ⟨fun _ => Queue.relays_of_take? htake, fun _ => Queue.relays_self⟩
  | takeDown htake => exact ⟨fun _ => Queue.relays_self, fun _ => Queue.relays_of_take? htake⟩
  | closeUp => exact ⟨fun he => absurd rfl he, fun _ => Queue.relays_self⟩
  | closeDown => exact ⟨fun _ => Queue.relays_self, fun he => absurd rfl he⟩
  | _ => exact relays_of_eq rfl rfl rfl rfl rfl

/-! ## Waiting -/

/-- The manager waits for room in a queue of the listeners, or for the end of the session that it
has taken out of the table. -/
inductive Waits (s : State) : Prop where
  | up {i : Nat} (hannouncing : s.service = .announcing i) (hfull : s.up.offer i = .full)
  | session {pid : UInt32} {i : Nat} (hremoving : s.service = .removing pid i)
      (hrunning : s.isSessionOver i = false)
  | down {pid : UInt32} (hreporting : s.service = .reporting pid)
      (hfull : s.down.offer pid = .full)

/-- **A change is announced at once**, as far as the manager need not wait for that. -/
theorem waits_or_announces (h : s.holdings.pending ≠ []) (now : Nat) :
    Waits s ∨ ∃ m ∈ [Move.announces, .released, .reports],
      (s.act? (.move now m)).isSome = true := by
  have hact : ∀ {m}, s.act? (.move now m) = s.step? now false m := rfl
  unfold Holdings.pending at h
  split at h
  next i hannouncing =>
    have hservice : s.service = .announcing i := hannouncing
    cases hoffer : s.up.offer i with
    | full => exact .inl (.up hservice hoffer)
    | _ => exact .inr ⟨.announces, by simp, by simp [hact, State.step?, hservice, hoffer]⟩
  next pid i hremoving =>
    have hservice : s.service = .removing pid i := hremoving
    cases hover : s.isSessionOver i with
    | false => exact .inl (.session hservice hover)
    | true => exact .inr ⟨.released, by simp, by simp [hact, State.step?, hservice, hover]⟩
  next pid hreporting =>
    have hservice : s.service = .reporting pid := hreporting
    cases hoffer : s.down.offer pid with
    | full => exact .inl (.down hservice hoffer)
    | _ => exact .inr ⟨.reports, by simp, by simp [hact, State.step?, hservice, hoffer]⟩
  next => exact absurd rfl h

/-! ## Runs -/

/-- What listeners have taken in the course of a run. -/
def takenUpOf (s : State) (t : List Event) : List Nat := history State.act? State.takenUp s t

def takenDownOf (s : State) (t : List Event) : List UInt32 := history State.act? State.takenDown s t

/-- **Listeners hear what was announced**, as long as they listen. -/
theorem relayed_of_run? {config : Config} {events : ProcessEvents} {s₀ s : State} {t : List Event}
    (hnew : new? config events = some s₀) (hrun : run? State.act? s₀ t = some s) :
    (Event.closeUp ∉ t → s.up.Relayed (takenUpOf s₀ t)
      ((announcedOf s₀ t).filterMap Announcement.up?)) ∧
    (Event.closeDown ∉ t → s.down.Relayed (takenDownOf s₀ t)
      ((announcedOf s₀ t).filterMap Announcement.down?)) := by
  refine run?_invariant (motive := fun t (s : State) =>
    (Event.closeUp ∉ t → s.up.Relayed (takenUpOf s₀ t)
      ((announcedOf s₀ t).filterMap Announcement.up?)) ∧
    (Event.closeDown ∉ t → s.down.Relayed (takenDownOf s₀ t)
      ((announcedOf s₀ t).filterMap Announcement.down?))) ?_ ?_ hrun
  · have hinitial := initial_of_new? hnew
    exact ⟨fun _ => hinitial.up_eq, fun _ => hinitial.down_eq⟩
  · intro past s e s' hpast ⟨hup, hdown⟩ hact
    have hrelays := relays_of_act? (booked_of_run? hnew hpast) hact
    rw [announcedOf, takenUpOf, takenDownOf, history_concat past e hpast,
      history_concat past e hpast, history_concat past e hpast, List.filterMap_append,
      List.filterMap_append]
    simp only [List.mem_append, List.mem_singleton, not_or]
    exact ⟨fun h => (hrelays.up (Ne.symm h.2)).next (hup h.1),
      fun h => (hrelays.down (Ne.symm h.2)).next (hdown h.1)⟩

end Manager
end Wiretap
