import Wiretap.Proofs.Session.Delivery
import Wiretap.Proofs.Session.Outgoing
import Wiretap.Proofs.Session.Parting

/-!
# The lifetime of a session

What is left of a session when it is over, whatever its agent, its clients and its owner did: no
service runs, the channel has been closed once, and nobody calls it any more.

Results:

* `calls_of_isOver`, `isSuffix_blocks_of_isOver`: a session that is over makes no calls, and its
  streams get no more blocks.
* `closes_once`: the connection of a session that is over was closed once, after the one farewell
  that an owner owes its agent.
-/

namespace Wiretap.Session

variable {s s' : State} {es : List Event}

/-! ## After the end -/

theorem calls_eq_nil_of_isOver (ho : Orderly s) (hover : s.isOver = true) {e : Event}
    (h : s.act? e = some s') : s.calls e = [] := by
  cases e with
  | move now m =>
    have hnone : s.step? now m = none := ho.step?_of_isOver hover m
    rw [State.act?, hnone] at h
    cases h
  | _ => rfl

/-- Clients only take blocks. -/
theorem isSuffix_blocks_of_serve? {c : ClientEvent} (h : s.serve? c = some s')
    (d : Block.Direction) : (s'.blocks d).items <:+ (s.blocks d).items := by
  cases c with
  | subscribe d' =>
    simp only [State.serve?, State.subscribe?] at h
    split at h <;> cases h
    exact List.suffix_rfl
  | receive d' b =>
    simp only [State.serve?] at h
    split at h
    next b' q htake =>
      obtain ⟨hitems, -⟩ := Queue.eq_of_take? htake
      split at h <;> cases h
      rw [State.blocks_setBlocks]
      split
      next hd =>
        rw [hd, hitems]
        exact List.suffix_cons b' q.items
      next => exact List.suffix_rfl
    next => cases h
  | unsubscribe d' =>
    simp only [State.serve?] at h
    split at h <;> cases h
    rw [State.blocks_setBlocks]
    split
    next => exact List.nil_suffix
    next => exact List.suffix_rfl
  | send m =>
    simp only [State.serve?] at h
    split at h <;> cases h
    exact List.suffix_rfl

theorem isSuffix_blocks_of_act? (ho : Orderly s) (hover : s.isOver = true) {e : Event}
    (h : s.act? e = some s') (d : Block.Direction) : (s'.blocks d).items <:+ (s.blocks d).items := by
  cases e with
  | move now m =>
    have hnone : s.step? now m = none := ho.step?_of_isOver hover m
    rw [State.act?, hnone] at h
    cases h
  | client c => exact isSuffix_blocks_of_serve? h d
  | cancel =>
    cases h
    exact List.suffix_rfl
  | drop =>
    simp only [State.act?] at h
    split at h <;> cases h
    next hstage =>
      rw [State.isOver, hstage] at hover
      cases hover

/-- **A session that is over stays as it is**, but for the blocks that its subscribers
still take. -/
theorem rests_of_isOver (ho : Orderly s) (hover : s.isOver = true)
    (hrun : run? State.act? s es = some s') :
    s'.isOver = true ∧ calls s es = [] ∧ ∀ d, (s'.blocks d).items <:+ (s.blocks d).items := by
  suffices hinv : Orderly s' ∧ s'.isOver = true ∧ calls s es = [] ∧
      ∀ d, (s'.blocks d).items <:+ (s.blocks d).items from hinv.2
  refine run?_invariant (motive := fun es s' => Orderly s' ∧ s'.isOver = true ∧ calls s es = [] ∧
      ∀ d, (s'.blocks d).items <:+ (s.blocks d).items)
    ⟨ho, hover, rfl, fun _ => List.suffix_rfl⟩ ?_ hrun
  intro past s₁ e s₂ hpast hinv hact
  obtain ⟨ho, hover, hcalls, hblocks⟩ := hinv
  refine ⟨ho.next hact, isOver_of_act? hact hover, ?_, fun d => ?_⟩
  · rw [calls_concat hpast, hcalls, calls_eq_nil_of_isOver ho hover hact, List.append_nil]
  · exact (isSuffix_blocks_of_act? ho hover hact d).trans (hblocks d)

/-- The streams of blocks of a session that is over end with the blocks that are queued. -/
theorem Accounted.ended_iff {r : Block.Registry} {t : List Event} (h : Accounted r t s)
    (hover : s.isOver = true) (hservices : s.servicesOver = true) (d : Block.Direction) :
    (s.blocks d).ended = true ↔ (s.blocks d).items = [] := by
  have hdropped : s.stage ≠ .dropped := by
    intro hdropped
    rw [State.isOver, hdropped] at hover
    cases hover
  obtain ⟨handled, hflow⟩ := h.flow hdropped
  have hdecoder : s.decoder.isOver = true := (State.servicesOver_iff.mp hservices).2.2.1
  have hfeeding : (s.blocks d).feeding = !s.decoder.isOver := (hflow.outlet d).feeding_eq
  rw [hdecoder] at hfeeding
  rw [Queue.ended_iff]
  exact ⟨fun hended => hended.1, fun hitems => ⟨hitems, hfeeding⟩⟩

/-! ## The last calls -/

/-- The calls that close a connection, in a run in which the end of the stream was not seen. -/
theorem Parted.last_of_isOver {owner : Bool} {cs : List Call} (h : Parted owner cs s)
    (hover : s.isOver = true) (hend : ∀ c ∈ cs, c.isEnd = false) :
    ∃ traffic parting, cs = traffic ++ parting ∧ (∀ c ∈ traffic, c.parting? = none) ∧
      parting.map Call.parting? = (partingPlan owner).map some := by
  obtain ⟨traffic, parting, rfl, htraffic, hparting, -⟩ := h.last hend
  refine ⟨traffic, parting, rfl, htraffic, ?_⟩
  have hplan : partings (traffic ++ parting) = partingPlan owner := h.partings_of_isOver hover
  rw [partings_append, partings_eq_nil htraffic, List.nil_append] at hplan
  have hsome : ∀ p ∈ parting.map Call.parting?, p.isSome = true := by
    intro p hp
    obtain ⟨c, hc, rfl⟩ := List.mem_map.mp hp
    exact hparting c hc
  rw [← hplan, partings, List.map_filterMap_some_eq_filter_map_isSome, List.filter_eq_self.mpr hsome]

/-- The farewell is the last frame that an owner offers to the channel. -/
theorem frames_of_parting {traffic parting : List Call}
    (h : parting.map Call.parting? = (partingPlan true).map some) :
    ((traffic ++ parting).filterMap Call.frame?).getLast? = some (Frame.bytes .exit) := by
  have hplan : (partingPlan true).map some = [some .farewell, some .hangUp] := rfl
  obtain ⟨c, rest, rfl, hc, hrest⟩ := List.map_eq_cons_iff.mp (h.trans hplan)
  obtain ⟨c', rest', rfl, hc', hrest'⟩ := List.map_eq_cons_iff.mp hrest
  have hframe : c.frame? = some (Frame.bytes .exit) := by
    cases c <;> first | rfl | cases hc
  have hnone : c'.frame? = none := by
    cases c' <;> first | rfl | cases hc'
  rw [List.map_eq_nil_iff.mp hrest', List.filterMap_append, List.filterMap_cons_some hframe,
    List.filterMap_cons_none hnone]
  exact List.getLast?_concat

/-- **A session closes its connection once.** Take any run of a new session to a state in which the
session is over. Then

* its sender, receiver, decoder and pinger are over;
* closing the connection took the one call that closes the channel, after the one write of the
  farewell that an owner owes its agent;
* where no read found the end of the stream, these were the last calls, and the last frame that an
  owner offered to the channel is the farewell;
* from then on there are no calls, no moves and no room for messages, and each stream of blocks has
  ended as soon as the blocks that are queued for it have been taken. -/
theorem closes_once {id : UInt32} {owner : Bool} {hook : HookConfig} {r : Block.Registry}
    {policy : RestartPolicy} {s₀ : State} {t : List Event}
    (hnew : new? id { owner } hook r policy = some s₀) (hrun : run? State.act? s₀ t = some s)
    (hover : s.isOver = true) :
    s.servicesOver = true ∧ partings (calls s₀ t) = partingPlan owner ∧
      ((∀ c ∈ calls s₀ t, c.isEnd = false) →
        (∃ traffic parting, calls s₀ t = traffic ++ parting ∧ (∀ c ∈ traffic, c.parting? = none) ∧
          parting.map Call.parting? = (partingPlan owner).map some) ∧
        (owner = true →
          ((calls s₀ t).filterMap Call.frame?).getLast? = some (Frame.bytes .exit))) ∧
      ∀ es s', run? State.act? s es = some s' →
        calls s es = [] ∧ (∀ now m, s'.step? now m = none) ∧ (∀ m, s'.send m = .refused) ∧
        ∀ d, (s'.blocks d).items <:+ (s.blocks d).items ∧
          ((s'.blocks d).ended = true ↔ (s'.blocks d).items = []) := by
  have hparted := parted_of_run? hnew hrun
  refine ⟨(hparted.orderly.hasEnded hover).services, hparted.partings_of_isOver hover, ?_, ?_⟩
  · intro hend
    obtain ⟨traffic, parting, hcalls, htraffic, hparting⟩ := hparted.last_of_isOver hover hend
    refine ⟨⟨traffic, parting, hcalls, htraffic, hparting⟩, fun howner => ?_⟩
    rw [howner] at hparting
    rw [hcalls]
    exact frames_of_parting hparting
  · intro es s' hlater
    obtain ⟨hover', hcalls, hblocks⟩ := rests_of_isOver hparted.orderly hover hlater
    have hall : run? State.act? s₀ (t ++ es) = some s' := by
      rw [run?_append, hrun]
      exact hlater
    have ho' := (parted_of_run? hnew hall).orderly
    have hservices := (ho'.hasEnded hover').services
    have hsender : s'.sender.isOver = true := (State.servicesOver_iff.mp hservices).1
    refine ⟨hcalls, fun now m => ho'.step?_of_isOver hover' m,
      (posted_of_run? hnew hall).send_eq_refused hsender, fun d => ⟨hblocks d, ?_⟩⟩
    exact (accounted_of_run? hnew hall).ended_iff hover' hservices d

/-- A session that owns its agent is cancelled while it reads and writes. -/
theorem closes_once_cancelled :
    let t : List Event :=
      [.client (.send .ping), .move 0 (.stage .start), .move 0 (.sender .takes),
        .move 0 (.receiver .decodes), .move 0 (.pinger .starts), .cancel, .move 0 (.stage .heed),
        .move 0 (.sender .stops), .move 0 (.receiver .stops), .move 0 (.decoder .stops),
        .move 0 (.pinger .stops), .move 0 (.stage .gather),
        .move 0 (.stage (.wroteFarewell (.ok 9))), .move 0 (.stage (.hungUp (.ok ())))]
    ∃ s₀ s, new? 7 { owner := true } {} {} {} = some s₀ ∧ run? State.act? s₀ t = some s ∧
      s.isOver = true ∧
      calls s₀ t = [.write .ping none, .read none, .farewell (.ok 9), .hangUp (.ok ())] ∧
      s.servicesOver = true ∧ partings (calls s₀ t) = [.farewell, .hangUp] ∧
      s.send .ping = .refused := by
  intro t
  obtain ⟨s₀, s, hnew, hrun, hover, hcalls⟩ : ∃ s₀ s, new? 7 { owner := true } {} {} {} = some s₀ ∧
      run? State.act? s₀ t = some s ∧ s.isOver = true ∧
      calls s₀ t = [.write .ping none, .read none, .farewell (.ok 9), .hangUp (.ok ())] :=
    ⟨_, _, rfl, rfl, rfl, rfl⟩
  obtain ⟨hservices, hpartings, -, hlater⟩ := closes_once hnew hrun hover
  exact ⟨s₀, s, hnew, hrun, hover, hcalls, hservices, hpartings, (hlater [] s rfl).2.2.1 .ping⟩

end Wiretap.Session
