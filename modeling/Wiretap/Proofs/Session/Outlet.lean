import Wiretap.Proofs.Session.Pipeline

/-!
# From the decoder to the subscribers

The second half of the pipeline: what the decoder forwarded, and what of it has come to the
subscribers.

Results:

* `Outlet.takes`, `Outlet.emits`, `Outlet.receives`: a block that is forwarded comes to the end of
  the queue, and the subscriber receives the first one of the queue.
* `Outlet.lets`: blocks of the other direction, and those without a subscriber, leave nothing
  behind.
-/

namespace Wiretap.Session

variable {d : Block.Direction}

/-- The blocks of one direction. -/
def select (d : Block.Direction) (out : List (Block.Direction × Block)) : List Block :=
  (out.filter (·.1 = d)).map (·.2)

@[simp] theorem select_append (d : Block.Direction) (out out' : List (Block.Direction × Block)) :
    select d (out ++ out') = select d out ++ select d out' := by
  simp [select]

/-- The block of one direction that the decoder holds. -/
def Decoder.pending (d : Block.Direction) : Decoder → List Block
  | .emitting d' b => if d' = d then [b] else []
  | _ => []

@[simp] theorem Decoder.pending_waiting (d : Block.Direction) :
    Decoder.waiting.pending d = [] := rfl

theorem Decoder.pending_of_isOver {decoder : Decoder} (h : decoder.isOver = true) :
    decoder.pending d = [] := by
  cases decoder <;> first | rfl | cases h

theorem select_emission (d : Block.Direction) (forwarded : Option (Block.Direction × Block)) :
    select d forwarded.toList = (Pipeline.emission forwarded).pending d := by
  cases forwarded with
  | none => rfl
  | some f =>
    obtain ⟨d', b⟩ := f
    by_cases h : d' = d <;> simp [select, Pipeline.emission, Decoder.pending, h]

/-- How the blocks of one direction that the decoder forwarded relate to those that the subscriber
received, with the queue between the two. -/
structure Outlet (d : Block.Direction) (xs : List Exchange) (out : List (Block.Direction × Block))
    (q : Queue Block) (decoder : Decoder) (halted : Bool) : Prop where
  queued_isPrefix : received d xs ++ q.items <+: select d out
  /-- As long as there is a subscriber, nothing is lost before the decoder is told to stop. -/
  whole : q.listening = true → decoder.isOver = false ∨ halted = false →
    received d xs ++ q.items ++ decoder.pending d = select d out
  feeding_eq : q.feeding = !decoder.isOver
  listening_iff : q.listening = true ↔ .unsubscribed d ∉ xs
  room : 0 < q.capacity

namespace Outlet

variable {xs : List Exchange} {out : List (Block.Direction × Block)}
  {q : Queue Block} {decoder : Decoder} {halted : Bool}

/-- Nothing is received and nobody leaves. -/
theorem passesBy (h : Outlet d xs out q decoder halted) {x : Exchange}
    (hreceived : received d [x] = []) (hstays : x ≠ .unsubscribed d) :
    Outlet d (xs ++ [x]) out q decoder halted := by
  have hgot : received d (xs ++ [x]) = received d xs := by
    rw [received_append, hreceived, List.append_nil]
  exact {
    queued_isPrefix := by rw [hgot]; exact h.queued_isPrefix
    whole := by rw [hgot]; exact h.whole
    feeding_eq := h.feeding_eq
    listening_iff := by
      rw [h.listening_iff, List.mem_append, List.mem_singleton]
      simp [Ne.symm hstays]
    room := h.room }

/-- The decoder has decoded a message and holds what is to be forwarded. -/
theorem takes (h : Outlet d xs out q .waiting halted)
    (forwarded : Option (Block.Direction × Block)) :
    Outlet d xs (out ++ forwarded.toList) q (Pipeline.emission forwarded) halted where
  queued_isPrefix := by
    rw [select_append]
    exact h.queued_isPrefix.trans (List.prefix_append _ _)
  whole hlistening _ := by
    have hwhole := h.whole hlistening (.inl rfl)
    rw [Decoder.pending_waiting, List.append_nil] at hwhole
    rw [select_append, select_emission, hwhole]
  feeding_eq := by
    rw [h.feeding_eq]
    cases forwarded <;> rfl
  listening_iff := h.listening_iff
  room := h.room

/-- The block that the decoder holds goes over into the queue. -/
theorem emits (h : Outlet d xs out q decoder halted) {b : Block} {q' : Queue Block}
    (hdecoder : decoder = .emitting d b) (hoffer : q.offer b = .accepted q') :
    Outlet d xs out q' .waiting halted := by
  subst hdecoder
  obtain ⟨hlistening, rfl⟩ := Queue.eq_of_offer hoffer
  have hwhole : received d xs ++ (q.items ++ [b]) = select d out := by
    have hwhole := h.whole hlistening (.inl rfl)
    simpa [Decoder.pending] using hwhole
  exact {
    queued_isPrefix := ⟨[], by rw [List.append_nil, hwhole]⟩
    whole := fun _ _ => by rw [hwhole, Decoder.pending_waiting, List.append_nil]
    feeding_eq := h.feeding_eq
    listening_iff := h.listening_iff
    room := h.room }

/-- The decoder does not hold a block for this subscriber any more. -/
theorem lets (h : Outlet d xs out q decoder halted) (hrunning : decoder.isOver = false)
    (hpending : q.listening = false ∨ decoder.pending d = []) :
    Outlet d xs out q .waiting halted where
  queued_isPrefix := h.queued_isPrefix
  whole hlistening _ := by
    have hnone : decoder.pending d = [] :=
      hpending.resolve_left (by rw [hlistening]; exact Bool.noConfusion)
    have hwhole := h.whole hlistening (.inl hrunning)
    rw [hnone] at hwhole
    exact hwhole
  feeding_eq := h.feeding_eq.trans (congrArg not hrunning)
  listening_iff := h.listening_iff
  room := h.room

theorem decoderEnds (h : Outlet d xs out q decoder halted) {exit : Exit}
    (hend : decoder = .waiting ∨ halted = true) :
    Outlet d xs out q.finish (.finished exit) halted where
  queued_isPrefix := h.queued_isPrefix
  whole hlistening hhalted := by
    have hhalted : halted = false := hhalted.resolve_left Bool.noConfusion
    have hdecoder := hend.resolve_right (by rw [hhalted]; exact Bool.noConfusion)
    have hwhole := h.whole hlistening (.inr hhalted)
    rw [hdecoder] at hwhole
    exact hwhole
  feeding_eq := rfl
  listening_iff := h.listening_iff
  room := h.room

/-- The subscriber receives the oldest block of the queue. -/
theorem receives (h : Outlet d xs out q decoder halted) {b : Block} {q' : Queue Block}
    (htake : q.take? = some (b, q')) :
    Outlet d (xs ++ [.received d b]) out q' decoder halted := by
  obtain ⟨hitems, hq⟩ := Queue.eq_of_take? htake
  have hmoved : received d (xs ++ [.received d b]) ++ q'.items = received d xs ++ q.items := by
    rw [hitems, received_append]
    simp [received]
  exact {
    queued_isPrefix := by rw [hmoved]; exact h.queued_isPrefix
    whole := by rw [hmoved, hq]; exact h.whole
    feeding_eq := by rw [hq]; exact h.feeding_eq
    listening_iff := by
      rw [hq, List.mem_append, List.mem_singleton]
      simpa using h.listening_iff
    room := by rw [hq]; exact h.room }

/-- The subscriber goes away. -/
theorem unsubscribes (h : Outlet d xs out q decoder halted) :
    Outlet d (xs ++ [.unsubscribed d]) out q.close decoder halted where
  queued_isPrefix := by
    have hclosed : q.close.items = [] := rfl
    have hgot : received d (xs ++ [.unsubscribed d]) = received d xs := by
      simp [received]
    rw [hclosed, hgot, List.append_nil]
    exact (List.prefix_append _ _).trans h.queued_isPrefix
  whole hlistening := nomatch hlistening
  feeding_eq := h.feeding_eq
  listening_iff := by simp [Queue.close]
  room := h.room

end Outlet
end Wiretap.Session
