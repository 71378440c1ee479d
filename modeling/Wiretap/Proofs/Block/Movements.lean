import Mathlib.Data.List.Induction
import Wiretap.Proofs.Block.Decoding

/-!
# Repeated movements

The client repeats its movements. Of those that carry the same stamp in a row one goes on: the
decoder compares each with the last one that it let go on, and that is as good as comparing it with
the last one that was sent.

Results:

* `step_of_moves`, `lastMove_step_of_not`, `isSome_step_of_not`: what one message does.
* `lastMove_run_of_none`, `lastSeen_run`: the stamp after a run is that of the last movement.
* `movements_deduplicated`: which messages of a run are forwarded.
-/

namespace Wiretap.Block

/-- The message is a movement that the client sent, in the open or in an instance. -/
def Moves (r : Registry) (m : Message) : Prop :=
  m.kind = .send ∧ ((∃ b, Carries r m (.egressMovement b)) ∨
    ∃ b, Carries r m (.egressInstanceMovement b))

/-- The stamp of the last movement among the messages; zero before the first one. -/
inductive LastSeen (r : Registry) : List Message → UInt64 → Prop where
  | nothing {ms : List Message} (h : ∀ m ∈ ms, ¬ Moves r m) : LastSeen r ms 0
  | move {before after : List Message} {m : Message} (hm : Moves r m)
      (hafter : ∀ m' ∈ after, ¬ Moves r m') :
      LastSeen r (before ++ m :: after) (Bytes.u64At 8 m.data)

variable {r : Registry} {s : State} {m : Message} {ms : List Message} {direction : Direction}
  {b : Block} {t : UInt64}

/-! ## One message -/

theorem isEgressMove_iff {body : Body} : body.isEgressMove = true ↔
    (∃ x, body = .egressMovement x) ∨ ∃ x, body = .egressInstanceMovement x := by
  cases body <;> simp [Body.isEgressMove]

theorem moves_iff : Moves r m ↔ ∃ b, parse r m = some (.egress, b) ∧ b.body.isEgressMove = true := by
  constructor
  · rintro ⟨hsend, hcarries⟩
    obtain ⟨body, hbody, hmove⟩ : ∃ body, Carries r m body ∧ body.isEgressMove = true := by
      rcases hcarries with ⟨x, hx⟩ | ⟨x, hx⟩
      · exact ⟨_, hx, rfl⟩
      · exact ⟨_, hx, rfl⟩
    obtain ⟨direction, b, hparse, rfl⟩ := parse_of_carries hbody
    obtain ⟨⟨hrecv, -⟩ | ⟨-, rfl⟩, -⟩ := parse_eq_some_iff.mp hparse
    · cases hsend.symm.trans hrecv
    · exact ⟨b, hparse, hmove⟩
  · rintro ⟨b, hparse, hmove⟩
    have hcarries : Carries r m b.body := by
      refine carries_of_parse hparse ?_
      intro data hraw
      rw [hraw] at hmove
      cases hmove
    obtain ⟨⟨-, ⟨⟩⟩ | ⟨hsend, -⟩, -⟩ := parse_eq_some_iff.mp hparse
    refine ⟨hsend, ?_⟩
    rcases isEgressMove_iff.mp hmove with ⟨x, hx⟩ | ⟨x, hx⟩
    · exact .inl ⟨x, hx ▸ hcarries⟩
    · exact .inr ⟨x, hx ▸ hcarries⟩

/-- **A movement** goes on unless it is stamped like the one that is remembered, and
is remembered. -/
theorem step_of_moves (h : Moves r m) (s : State) :
    (s.step r m).1.lastMove = Bytes.u64At 8 m.data ∧
      ((s.step r m).2.isSome = true ↔ Bytes.u64At 8 m.data ≠ s.lastMove) := by
  obtain ⟨b, hparse, hmove⟩ := moves_iff.mp h
  obtain ⟨-, -, hb⟩ := parse_eq_some_iff.mp hparse
  have hstamp : b.timestamp = Bytes.u64At 8 m.data := by rw [hb]
  obtain ⟨hforwarded, hlast⟩ := step_of_parse hparse s
  rw [hforwarded, hlast, hmove, hstamp]
  simp

/-- **Any other message** leaves the movement that is remembered alone. -/
theorem lastMove_step_of_not (h : ¬ Moves r m) (s : State) :
    (s.step r m).1.lastMove = s.lastMove := by
  cases hparse : parse r m with
  | none => rw [State.step_of_parse_none hparse]
  | some sent =>
    obtain ⟨direction, b⟩ := sent
    rw [(step_of_parse hparse s).2, if_neg]
    rintro ⟨rfl, hmove⟩
    exact h (moves_iff.mpr ⟨b, hparse, hmove⟩)

theorem isSome_step_of_not (h : ¬ Moves r m) (hkind : m.kind = .recv ∨ m.kind = .send)
    (hlength : 48 ≤ m.data.length) (s : State) : (s.step r m).2.isSome = true := by
  obtain ⟨direction, hm⟩ : ∃ direction, Travels m direction := by
    rcases hkind with hrecv | hsend
    · exact ⟨.ingress, .inl ⟨hrecv, rfl⟩⟩
    · exact ⟨.egress, .inr ⟨hsend, rfl⟩⟩
  obtain ⟨sent, hparse, -⟩ := parse_of_traffic r hm hlength
  rw [(step_of_parse hparse s).1, if_neg]
  · rfl
  rintro ⟨rfl, hmove, -⟩
  exact h (moves_iff.mpr ⟨sent, hparse, hmove⟩)

/-! ## Runs -/

theorem lastMove_run_of_none (h : ∀ m ∈ ms, ¬ Moves r m) (s : State) :
    (run r s ms).1.lastMove = s.lastMove := by
  induction ms generalizing s with
  | nil => rfl
  | cons m ms ih =>
    obtain ⟨hm, hms⟩ := List.forall_mem_cons.mp h
    rw [← lastMove_step_of_not hm s]
    exact ih hms _

theorem LastSeen.stays (h : LastSeen r ms t) (hm : ¬ Moves r m) : LastSeen r (ms ++ [m]) t := by
  cases h with
  | nothing h => exact .nothing (List.forall_mem_append.mpr ⟨h, List.forall_mem_singleton.mpr hm⟩)
  | @move before after m₀ hm₀ hafter =>
    rw [List.append_assoc, List.cons_append]
    exact .move hm₀ (List.forall_mem_append.mpr ⟨hafter, List.forall_mem_singleton.mpr hm⟩)

/-- **The decoder remembers the last movement**, whether or not it was forwarded. -/
theorem lastSeen_run (r : Registry) (ms : List Message) : LastSeen r ms (run r {} ms).1.lastMove := by
  induction ms using List.reverseRecOn with
  | nil => exact .nothing nofun
  | append_singleton ms m ih =>
    rw [run_append, run_singleton]
    by_cases hm : Moves r m
    · rw [(step_of_moves hm _).1]
      exact .move hm nofun
    · rw [lastMove_step_of_not hm]
      exact ih.stays hm

theorem LastSeen.lastMove_run (h : LastSeen r ms t) : (run r {} ms).1.lastMove = t := by
  cases h with
  | nothing h => exact lastMove_run_of_none h {}
  | @move before after m hm hafter =>
    rw [run_append]
    show (run r ((run r {} before).1.step r m).1 after).1.lastMove = _
    rw [lastMove_run_of_none hafter, (step_of_moves hm _).1]

theorem lastSeen_iff : LastSeen r ms t ↔ (run r {} ms).1.lastMove = t := by
  constructor
  · exact LastSeen.lastMove_run
  · rintro rfl
    exact lastSeen_run r ms

/-- **Of movements with one stamp, one in a row goes on.** After any run the stamp that is
remembered is that of the last movement the client sent. A movement is forwarded exactly if its
stamp is not that of the movement before it, of either kind and forwarded or not, or not zero if it
is the first; any other block is forwarded, and changes nothing about that. -/
theorem movements_deduplicated (r : Registry) :
    (∀ ms t, (run r {} ms).1.lastMove = t ↔ LastSeen r ms t) ∧
      ∀ before m after,
        let s := (run r {} before).1
        (run r {} (before ++ m :: after)).2 =
            (run r {} before).2 ++ (s.step r m).2.toList ++ (run r (s.step r m).1 after).2 ∧
          (Moves r m →
            ((s.step r m).2.isSome = true ↔ ¬ LastSeen r before (Bytes.u64At 8 m.data))) ∧
          (¬ Moves r m → m.kind = .recv ∨ m.kind = .send → 48 ≤ m.data.length →
            (s.step r m).2.isSome = true ∧ (s.step r m).1.lastMove = s.lastMove) := by
  refine ⟨fun ms t => lastSeen_iff.symm, ?_⟩
  intro before m after s
  refine ⟨?_, ?_, ?_⟩
  · rw [run_append, List.append_assoc]
    rfl
  · intro hm
    rw [(step_of_moves hm s).2, lastSeen_iff, ne_comm]
  · intro hm hkind hlength
    exact ⟨isSome_step_of_not hm hkind hlength s, lastMove_step_of_not hm s⟩

/-- A movement of one kind is held back after one of the other kind with its stamp; what was sent
between them goes on. -/
theorem movements_deduplicated_kinds :
    let r : Registry := .ofOpcodes {}
    let sends (stamp opcode : Nat) : Message :=
      ⟨.send, 1, List.replicate 8 0 ++ Bytes.leBytes 8 stamp ++ [0, 0] ++ Bytes.leBytes 2 opcode ++
        List.replicate 44 0⟩
    let moved := [sends 4 0x02d0, sends 5 0x02d0]
    let other := sends 5 0x0066
    let m := sends 5 0x01a4
    (Moves r m ∧ LastSeen r (moved ++ [other]) (Bytes.u64At 8 m.data) ∧
        ((run r {} (moved ++ [other])).1.step r m).2.isSome = false) ∧
      (¬ Moves r other ∧ 48 ≤ other.data.length ∧
        ((run r {} moved).1.step r other).2.isSome = true) := by
  intro r sends moved other m
  have hm : Moves r m := moves_iff.mpr ⟨_, rfl, rfl⟩
  have hother : ¬ Moves r other := by
    intro h
    obtain ⟨b, hparse, hmove⟩ := moves_iff.mp h
    have hstays : (parse r other).map (·.2.body.isEgressMove) = some false := by decide +kernel
    rw [hparse, Option.map_some, hmove] at hstays
    cases hstays
  obtain ⟨hlast, hstep⟩ := movements_deduplicated r
  have hseen : LastSeen r (moved ++ [other]) (Bytes.u64At 8 m.data) :=
    (hlast (moved ++ [other]) _).mp (by decide +kernel)
  have hheld := (hstep (moved ++ [other]) m []).2.1 hm
  have hlength : 48 ≤ other.data.length := by decide
  refine ⟨⟨hm, hseen, ?_⟩, hother, hlength, ?_⟩
  · exact Bool.eq_false_iff.mpr fun hforwarded => hheld.mp hforwarded hseen
  · exact ((hstep moved other [m]).2.2 hother (.inr rfl) hlength).1

end Wiretap.Block
