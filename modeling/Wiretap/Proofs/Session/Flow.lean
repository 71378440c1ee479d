import Wiretap.Proofs.Block.Content
import Wiretap.Proofs.Session.Inlet
import Wiretap.Proofs.Session.Outlet

/-!
# The flow of traffic through a session

The two halves of the pipeline meet in the decoder: what it has handled came out of the first half,
and what it made of that went into the second.

Results:

* `Flow.passes`: whatever happens in the pipeline, the blocks of either direction come to their
  subscriber as a decoder forwards them that is given all messages at once.
-/

namespace Wiretap

namespace Session

/-- The blocks of one direction that a fresh decoder forwards for the messages in the bytes. -/
def blocksIn (r : Block.Registry) (d : Block.Direction) (bytes : Bytes) : List Block :=
  select d (Block.run r {} (messagesIn bytes)).2

/-- Where the traffic is, once the decoder has handled these messages. -/
structure Flow (r : Block.Registry) (xs : List Exchange) (handled : List Message) (p : Pipeline)
    (halted : Bool) : Prop where
  registry_eq : p.registry = r
  decoding_eq : (Block.run r {} handled).1 = p.decoding
  inlet : Inlet (bytesRead xs) handled p halted
  outlet : ∀ d, Outlet d xs (Block.run r {} handled).2 (p.blocks d) p.decoder halted

namespace Flow

variable {r : Block.Registry} {xs : List Exchange} {handled : List Message} {p p' : Pipeline}
  {halted : Bool}

theorem nothing (h : Flow r xs handled p halted) : Flow r (xs ++ [.nothing]) handled p halted where
  registry_eq := h.registry_eq
  decoding_eq := h.decoding_eq
  inlet := by
    rw [bytesRead_append, show bytesRead [.nothing] = [] from rfl, List.append_nil]
    exact h.inlet
  outlet d := (h.outlet d).passesBy rfl nofun

/-- The decoder takes a message. -/
theorem takes (h : Flow r xs handled p halted) {m : Message} {q : Queue Message}
    (hdecoder : p.decoder = .waiting) (htake : p.inbound.take? = some (m, q)) :
    Flow r xs (handled ++ [m])
      { p with
        inbound := q
        decoding := (p.decoding.step p.registry m).1
        decoder := Pipeline.emission (p.decoding.step p.registry m).2 } halted := by
  have hrun : Block.run r {} (handled ++ [m]) =
      ((p.decoding.step p.registry m).1,
        (Block.run r {} handled).2 ++ (p.decoding.step p.registry m).2.toList) := by
    rw [Block.run_append, Block.run_singleton, h.decoding_eq, h.registry_eq]
  have hover : (Pipeline.emission (p.decoding.step p.registry m).2).isOver = false := by
    cases (p.decoding.step p.registry m).2 <;> rfl
  exact {
    registry_eq := h.registry_eq
    decoding_eq := by rw [hrun]
    inlet := h.inlet.takes (congrArg Decoder.isOver hdecoder) hover htake
    outlet := by
      intro d
      have houtlet := h.outlet d
      rw [hdecoder] at houtlet
      rw [hrun]
      exact houtlet.takes _ }

/-- The decoder hands on a block. -/
theorem emits (h : Flow r xs handled p halted) {d : Block.Direction} {b : Block} {q : Queue Block}
    (hdecoder : p.decoder = .emitting d b) (hoffer : (p.blocks d).offer b = .accepted q) :
    Flow r xs handled { p.setBlocks d q with decoder := .waiting } halted where
  registry_eq := h.registry_eq
  decoding_eq := h.decoding_eq
  inlet := h.inlet.decoderGoesOn (congrArg Decoder.isOver hdecoder) rfl
  outlet d' := by
    rw [show ({ p.setBlocks d q with decoder := .waiting } : Pipeline).blocks d' =
      if d' = d then q else p.blocks d' from rfl]
    by_cases hd : d' = d
    · subst hd
      rw [if_pos rfl]
      exact (h.outlet d').emits hdecoder hoffer
    · rw [if_neg hd]
      refine (h.outlet d').lets (congrArg Decoder.isOver hdecoder) (.inr ?_)
      rw [hdecoder]
      exact if_neg (Ne.symm hd)

/-- The decoder finds no subscriber for a block. -/
theorem drops (h : Flow r xs handled p halted) {d : Block.Direction} {b : Block}
    (hdecoder : p.decoder = .emitting d b) (hgone : (p.blocks d).listening = false) :
    Flow r xs handled { p with decoder := .waiting } halted where
  registry_eq := h.registry_eq
  decoding_eq := h.decoding_eq
  inlet := h.inlet.decoderGoesOn (congrArg Decoder.isOver hdecoder) rfl
  outlet d' := by
    refine (h.outlet d').lets (congrArg Decoder.isOver hdecoder) ?_
    by_cases hd : d = d'
    · subst hd
      exact .inl hgone
    · rw [hdecoder]
      exact .inr (if_neg hd)

theorem decoderEnds (h : Flow r xs handled p halted) {exit : Exit}
    (hend : p.decoder = .waiting ∧ p.inbound.ended = true ∨ halted = true) :
    Flow r xs handled (p.endDecoder exit) halted where
  registry_eq := h.registry_eq
  decoding_eq := h.decoding_eq
  inlet := by
    refine h.inlet.decoderEnds fun hhalted => ?_
    obtain ⟨-, hended⟩ := hend.resolve_right (by rw [hhalted]; exact Bool.noConfusion)
    exact h.inlet.ended hended
  outlet d := (h.outlet d).decoderEnds (hend.imp_left And.left)

/-- Only one of the two queues of blocks changes. -/
theorem setBlocks (h : Flow r xs handled p halted) {x : Exchange} {d : Block.Direction}
    {q : Queue Block} (hread : bytesRead [x] = []) (hreceived : ∀ d', d' ≠ d → received d' [x] = [])
    (hstays : ∀ d', d' ≠ d → x ≠ .unsubscribed d')
    (houtlet : Outlet d (xs ++ [x]) (Block.run r {} handled).2 q p.decoder halted) :
    Flow r (xs ++ [x]) handled (p.setBlocks d q) halted where
  registry_eq := h.registry_eq
  decoding_eq := h.decoding_eq
  inlet := by
    rw [bytesRead_append, hread, List.append_nil]
    exact { h.inlet with }
  outlet d' := by
    rw [show (p.setBlocks d q).blocks d' = if d' = d then q else p.blocks d' from rfl]
    by_cases hd : d' = d
    · subst hd
      rw [if_pos rfl]
      exact houtlet
    · rw [if_neg hd]
      exact (h.outlet d').passesBy (hreceived d' hd) (hstays d' hd)

/-- **One step of the flow.** Whatever happens in the pipeline keeps the traffic in order. -/
theorem passes (h : Flow r xs handled p halted) {x : Exchange} (hpasses : Passes halted p x p') :
    ∃ handled', Flow r (xs ++ [x]) handled' p' halted := by
  cases hpasses with
  | still => exact ⟨handled, h.nothing⟩
  -- the receiver
  | decodes hreceiver hdecode =>
    exact ⟨handled, nothing { h with inlet := h.inlet.decodes hreceiver hdecode }⟩
  | discards hreceiver hdecode =>
    exact ⟨handled, nothing { h with inlet := h.inlet.discards hreceiver hdecode }⟩
  | runsDry hreceiver hdecode =>
    have hinlet : Inlet _ _ { p with receiver := .reading } halted :=
      h.inlet.rests (congrArg Receiver.isOver hreceiver) rfl
        (congrArg Receiver.pending hreceiver) rfl (messagesIn_of_incomplete hdecode)
    exact ⟨handled, nothing { h with inlet := hinlet }⟩
  | offers hreceiver hoffer =>
    exact ⟨handled, nothing { h with inlet := h.inlet.offers hreceiver hoffer }⟩
  | loses hreceiver hgone =>
    exact ⟨handled, nothing { h with inlet := h.inlet.loses hreceiver hgone }⟩
  | @reads data hreceiver =>
    have hdata : bytesRead (xs ++ [.read data]) = bytesRead xs ++ data := by
      rw [bytesRead_append]
      simp [bytesRead]
    refine ⟨handled, h.registry_eq, h.decoding_eq, ?_, fun d => (h.outlet d).passesBy rfl nofun⟩
    rw [hdata]
    exact h.inlet.reads hreceiver
  | repeats hreceiver =>
    have hrunning := congrArg Receiver.isOver hreceiver
    have hdrained := congrArg Receiver.hasDrained hreceiver
    have hinlet : Inlet _ _ { p with receiver := .draining } halted :=
      h.inlet.rests hrunning rfl (congrArg Receiver.pending hreceiver) rfl
        (h.inlet.drained hdrained hrunning)
    exact ⟨handled, nothing { h with inlet := hinlet }⟩
  | @closes stage hdrained hrunning =>
    have hinlet : Inlet _ _ { p with receiver := .closing stage } halted :=
      h.inlet.rests hrunning rfl (Receiver.pending_of_hasDrained hdrained) rfl
        (h.inlet.drained hdrained hrunning)
    exact ⟨handled, nothing { h with inlet := hinlet }⟩
  | receiverEnds hrunning hend =>
    exact ⟨handled, nothing { h with inlet := h.inlet.receiverEnds hrunning hend }⟩
  -- the decoder
  | @takes m q hdecoder htake => exact ⟨handled ++ [m], (h.takes hdecoder htake).nothing⟩
  | emits hdecoder hoffer => exact ⟨handled, (h.emits hdecoder hoffer).nothing⟩
  | drops hdecoder hgone => exact ⟨handled, (h.drops hdecoder hgone).nothing⟩
  | decoderEnds _ hend => exact ⟨handled, (h.decoderEnds hend).nothing⟩
  -- the subscribers
  | @receives d b q htake =>
    refine ⟨handled, h.setBlocks rfl ?_ nofun ((h.outlet d).receives htake)⟩
    intro d' hd
    simp [received, Ne.symm hd]
  | @unsubscribes d =>
    refine ⟨handled, h.setBlocks rfl (fun _ _ => rfl) ?_ (h.outlet d).unsubscribes⟩
    rintro d' hd hx
    cases hx
    exact hd rfl

/-- The services are told to stop. -/
theorem halts (h : Flow r xs handled p false) (halted' : Bool) : Flow r xs handled p halted' where
  registry_eq := h.registry_eq
  decoding_eq := h.decoding_eq
  inlet := { h.inlet with
    whole_over := fun _ => h.inlet.whole_over rfl
    spent := fun _ => h.inlet.spent rfl }
  outlet d := { h.outlet d with whole := fun hlistening _ => (h.outlet d).whole hlistening (.inr rfl) }

end Flow
end Session
end Wiretap
