import Mathlib.Data.List.Forall2
import Wiretap.Proofs.Frame.Pieces
import Wiretap.Proofs.Session.Outgoing

/-!
# What the agent reads

The sender offers each frame to the channel once, and does not offer again what the channel did not
take of it. The agent reads its frames off the bytes that were taken.

Results:

* `message_of_takes`: the frames of which the channel takes pieces are those of the messages that
  the sender writes.
* `reads_intact`: up to the first frame of which it gets a part only, the agent reads messages that
  were queued, in the order in which they were. It takes later bytes for the rest of that frame.
* `reads_other_of_short_write`: so behind that frame it may read a message that nobody queued.
-/

namespace Wiretap.Session

def Call.isWrite : Call → Bool
  | .write _ _ => true
  | _ => false

/-- The channel has taken this piece of a frame in that call: as many bytes as it answered, and
nobody knows how many where the write failed or was given up. -/
def Call.takes : Call → Frame.Piece → Prop
  | .write m (some (.ok n)), p => p = ⟨m, n⟩
  | .write m _, p => p.message = m
  | _, _ => False

variable {s₀ s : State} {t : List Event} {ps : List Frame.Piece}

theorem message_of_takes {cs : List Call}
    (h : List.Forall₂ Call.takes (cs.filter Call.isWrite) ps) :
    ps.map Frame.Piece.message = written cs := by
  induction cs generalizing ps with
  | nil =>
    cases h
    rfl
  | cons c cs ih =>
    cases c with
    | write m r =>
      rw [List.filter_cons_of_pos rfl] at h
      cases h with
      | @cons _ p _ ps hp hps =>
        have hm : p.message = m := by
          cases r with
          | none => exact hp
          | some r =>
            cases r with
            | error f => exact hp
            | ok n => rw [show p = ⟨m, n⟩ from hp]
        rw [List.map_cons, hm, ih hps]
        rfl
    | read r => exact ih h
    | farewell r => exact ih h
    | hangUp r => exact ih h

/-- **The agent reads what was queued**, as far as its frames are whole. Take any run of a new
session, and any pieces of frames that the channel took in it.

* The messages whose frames were taken as a whole, before the first frame of which only a part was
  taken, are some of those that were queued, in the same order.
* The agent reads these messages first, and then whatever the bytes from that frame on come to. A
  message arrives as it was queued, unless its kind is the unnamed stand-in for a named one.
* If no frame was taken in part, it reads nothing else.
* Behind a frame that was taken in part, it reads nothing else as long as fewer bytes were taken
  than it waits for: those of the length at first, and then those of the whole frame.
* If the length was taken, and as many later bytes as the rest of the frame has, it reads these as
  the rest: a message with the bytes of both, and then whatever the bytes behind it come to.
* If the length was cut too, then it takes later bytes for the rest of the length. In any case it
  waits for the end of a span, or what it reads first starts with the part of the frame that was
  taken and ends among the later bytes. -/
theorem reads_intact {id : UInt32} {conn : Connection} {hook : HookConfig} {r : Block.Registry}
    {policy : RestartPolicy} (hnew : new? id conn hook r policy = some s₀)
    (hrun : run? State.act? s₀ t = some s)
    (htaken : List.Forall₂ Call.takes ((calls s₀ t).filter Call.isWrite) ps) :
    let items := (Frame.intact ps).map fun m => Frame.Item.message m.received
    let rest := Frame.drain (Frame.taken (Frame.fromCut ps))
    (Frame.intact ps).Sublist (queued s₀ t) ∧
      Frame.drain (Frame.taken ps) = (items ++ rest.1, rest.2) ∧
      (∀ m ∈ Frame.intact ps, (∀ code, m.kind = .other code → 5 < code) → m.received = m) ∧
      (Frame.fromCut ps = [] → Frame.drain (Frame.taken ps) = (items, [])) ∧
      (∀ p later, Frame.fromCut ps = p :: later →
        p.taken + (Frame.taken later).length < p.awaited →
        Frame.drain (Frame.taken ps) = (items, Frame.taken (p :: later))) ∧
      (∀ p later, Frame.fromCut ps = p :: later → Frame.lengthWidth ≤ p.taken →
        p.missing ≤ (Frame.taken later).length →
        Frame.drain (Frame.taken ps) =
          (items ++ .message (Frame.payload (p.bytes ++ (Frame.taken later).take p.missing)) ::
            (Frame.drain ((Frame.taken later).drop p.missing)).1,
            (Frame.drain ((Frame.taken later).drop p.missing)).2)) ∧
      ∀ p later, Frame.fromCut ps = p :: later →
        (Frame.Unfinished (Frame.taken (p :: later)) ∧
          Frame.drain (Frame.taken ps) = (items, Frame.taken (p :: later))) ∨
        ∃ item more left, more ≠ [] ∧ Frame.taken later = more ++ left ∧
          Frame.Item.ReadFrom item (p.bytes ++ more) ∧
          Frame.drain (Frame.taken ps) =
            (items ++ item :: (Frame.drain left).1, (Frame.drain left).2) := by
  intro items rest
  have hposted := posted_of_run? hnew hrun
  have hmessages : ps.map Frame.Piece.message = written (calls s₀ t) := message_of_takes htaken
  have hfits : ∀ p ∈ ps, Frame.wireLength p.message ≤ Frame.maxLength := by
    intro p hp
    refine hposted.fits p.message (List.mem_append_left _ ?_)
    rw [← hmessages]
    exact List.mem_map_of_mem hp
  have hdrain := Frame.drain_taken hfits
  refine ⟨?_, hdrain, fun m _ hm => Message.received_eq_self hm, ?_, ?_, ?_, ?_⟩
  · have hwritten : (Frame.intact ps).Sublist (written (calls s₀ t)) := by
      rw [← hmessages]
      exact Frame.intact_sublist ps
    have hqueued : (written (calls s₀ t)).Sublist (queued s₀ t) := by
      refine List.Sublist.trans ?_ hposted.sublist
      rw [List.append_assoc]
      exact List.sublist_append_left _ _
    exact hwritten.trans hqueued
  · intro hnone
    rw [hdrain, Frame.drain_of_fromCut_nil hnone, List.append_nil]
  · intro p later hcut hlen
    obtain ⟨hpcut, hp⟩ := Frame.isCut_of_fromCut hcut
    rw [hdrain, hcut, Frame.drain_of_cut hpcut (hfits p hp) hlen, List.append_nil]
  · intro p later hcut hlength hlen
    obtain ⟨hpcut, hp⟩ := Frame.isCut_of_fromCut hcut
    rw [hdrain, hcut, Frame.drain_of_joined hpcut (hfits p hp) hlength hlen]
  · intro p later hcut
    obtain ⟨hpcut, hp⟩ := Frame.isCut_of_fromCut hcut
    have hbehind := Frame.drain_behind_cut hpcut (hfits p hp) later
    rw [hdrain, hcut]
    rcases hbehind with ⟨hwaits, hnone⟩ | ⟨item, more, left, hmore, hlater, hitem, hread⟩
    · refine .inl ⟨hwaits, ?_⟩
      rw [hnone, List.append_nil]
    · refine .inr ⟨item, more, left, hmore, hlater, hitem, ?_⟩
      rw [hread]

/-- Nine bytes of a frame of eighteen are taken in one write, and a ping of nine bytes in the next.
The agent, which still waits for the payload, reads the frame of the ping as the payload. -/
theorem reads_other_of_short_write :
    let m : Message := ⟨.send, 7, List.replicate 9 0⟩
    let t : List Event :=
      [.move 0 (.stage .start), .client (.send m), .move 0 (.sender .takes),
        .move 0 (.sender (.wrote (.ok 9))), .client (.send .ping), .move 0 (.sender .takes),
        .move 0 (.sender (.wrote (.ok 9)))]
    let ps : List Frame.Piece := [⟨m, 9⟩, ⟨.ping, 9⟩]
    ∃ s₀ s, new? 7 { owner := false } {} {} {} = some s₀ ∧ run? State.act? s₀ t = some s ∧
      queued s₀ t = [m, .ping] ∧
      List.Forall₂ Call.takes ((calls s₀ t).filter Call.isWrite) ps ∧
      (Frame.drain (Frame.taken ps)).1 = [.message ⟨.send, 7, Frame.bytes .ping⟩] ∧
      ⟨.send, 7, Frame.bytes .ping⟩ ∉ queued s₀ t := by
  intro m t ps
  have hdecode : Frame.decode (Frame.taken ps) =
      ((Frame.Item.message ⟨.send, 7, Frame.bytes .ping⟩).answer, []) := by decide
  obtain ⟨s₀, s, hnew, hrun, hqueued, hcalls⟩ : ∃ s₀ s, new? 7 { owner := false } {} {} {} = some s₀ ∧
      run? State.act? s₀ t = some s ∧ queued s₀ t = [m, .ping] ∧
      (calls s₀ t).filter Call.isWrite = [.write m (some (.ok 9)), .write .ping (some (.ok 9))] :=
    ⟨_, _, rfl, rfl, rfl, rfl⟩
  refine ⟨s₀, s, hnew, hrun, hqueued, ?_, ?_, ?_⟩
  · rw [hcalls]
    exact .cons rfl (.cons rfl .nil)
  · rw [Frame.drain_of_answer hdecode, Frame.drain_of_incomplete rfl]
  · rw [hqueued]
    decide

/-- Of three messages the first is lost in a write that fails, and the last one is cut. -/
theorem reads_intact_between :
    let t : List Event :=
      [.move 0 (.stage .start), .client (.send .exit), .client (.send .ping),
        .client (.send (.enableOption 1)), .move 0 (.sender .takes),
        .move 0 (.sender (.wrote (.error ⟨.timedOut, "too slow"⟩))), .move 0 (.sender .takes),
        .move 0 (.sender (.wrote (.ok 9))), .move 0 (.sender .takes),
        .move 0 (.sender (.wrote (.ok 3)))]
    let ps : List Frame.Piece := [⟨.exit, 0⟩, ⟨.ping, 9⟩, ⟨.enableOption 1, 3⟩]
    ∃ s₀ s, new? 7 { owner := false } {} {} {} = some s₀ ∧ run? State.act? s₀ t = some s ∧
      queued s₀ t = [.exit, .ping, .enableOption 1] ∧
      List.Forall₂ Call.takes ((calls s₀ t).filter Call.isWrite) ps ∧
      Frame.drain (Frame.taken ps) = ([.message .ping], [10, 0, 0]) := by
  intro t ps
  obtain ⟨s₀, s, hnew, hrun, hqueued, hcalls⟩ : ∃ s₀ s, new? 7 { owner := false } {} {} {} = some s₀ ∧
      run? State.act? s₀ t = some s ∧ queued s₀ t = [.exit, .ping, .enableOption 1] ∧
      (calls s₀ t).filter Call.isWrite =
        [.write .exit (some (.error ⟨.timedOut, "too slow"⟩)), .write .ping (some (.ok 9)),
          .write (.enableOption 1) (some (.ok 3))] :=
    ⟨_, _, rfl, rfl, rfl, rfl⟩
  have htaken : List.Forall₂ Call.takes ((calls s₀ t).filter Call.isWrite) ps := by
    rw [hcalls]
    exact .cons rfl (.cons rfl (.cons rfl .nil))
  obtain ⟨-, -, -, -, hcut, -, -⟩ := reads_intact hnew hrun htaken
  exact ⟨s₀, s, hnew, hrun, hqueued, htaken, hcut ⟨.enableOption 1, 3⟩ [] rfl (by decide)⟩

end Wiretap.Session
