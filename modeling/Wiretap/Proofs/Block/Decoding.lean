import Wiretap.Proofs.Block.Directions
import Wiretap.Proofs.Words

/-!
# One message, one block

What a decoder makes of one message, whatever it remembers: where the numbers of the block stand in
the bytes, what its body is, the one thing that is ever changed in it, and which blocks are held
back.

Results:

* `parse_of_not_traffic`, `parse_of_traffic`: the block in a message, as it was sent.
* `corrected_unveil`: what the obfuscation has to do with a body.
* `step_of_parse`: the block that goes on, and the last movement.
* `decodes_message`: all this of one message.
-/

namespace Wiretap.Block

open Bytes (Word word16 word32 word64)

/-- The numbers of the header, each in its place. -/
def headerWords (b : Block) : List Word :=
  [word32 0 b.subjectId, word32 4 b.currentId, word64 8 b.timestamp, word16 18 b.opcode,
    word16 22 b.serverId]

/-- The message is traffic of the direction. -/
def Travels (m : Message) (direction : Direction) : Prop :=
  m.kind = .recv ∧ direction = .ingress ∨ m.kind = .send ∧ direction = .egress

/-- How the bytes of a body are read: by the decoder that is looked up, or else as they are. -/
inductive ReadAs (r : Registry) (key : RegistryKey) (data : Bytes) : Body → Prop where
  | decoded {decoder : BodyDecoder} {body : Body} (hlookup : r.lookup key = some decoder)
      (hdecode : decoder.decode data = .ok body) : ReadAs r key data body
  | failed {decoder : BodyDecoder} {e : DecodeError} (hlookup : r.lookup key = some decoder)
      (hdecode : decoder.decode data = .error e) : ReadAs r key data (.raw data)
  | unknown (hlookup : r.lookup key = none) : ReadAs r key data (.raw data)

/-- The decoder knows how the first parameter of this control block was obfuscated. -/
def Obfuscates (s : State) (c : Control) (key : UInt8) : Prop :=
  c.kind = 0x22 ∧ s.obfuscated = true ∧ s.key = some key ∧ key ≠ 0

/-- A body as it was sent, and as it is handed on. Only the first parameter of a control block is
ever changed, and only where it was obfuscated. -/
inductive Corrected (s : State) : Body → Body → Prop where
  | undone {c : Control} {key : UInt8} {p1 : UInt32} (hkey : Obfuscates s c key)
      (hp1 : p1.toNat = (c.p1.toNat + (2 ^ 32 - key.toNat)) % 2 ^ 32) :
      Corrected s (.control c) (.control { c with p1 })
  | kept {body : Body} (h : ∀ c key, body = .control c → ¬ Obfuscates s c key) :
      Corrected s body body

variable {r : Registry} {s : State} {m : Message} {direction : Direction} {sent b : Block}
  {body : Body}

/-! ## The block as it was sent -/

theorem readAs_readBody (r : Registry) (key : RegistryKey) (data : Bytes) :
    ReadAs r key data (readBody r key data) := by
  unfold readBody
  split
  next hlookup => exact .unknown hlookup
  next decoder hlookup =>
    split
    next body hdecode => exact .decoded hlookup hdecode
    next e hdecode => exact .failed hlookup hdecode

theorem parse_of_not_traffic (h : ¬ ((m.kind = .recv ∨ m.kind = .send) ∧ 48 ≤ m.data.length)) :
    parse r m = none := by
  cases hparse : parse r m with
  | none => rfl
  | some sent =>
    obtain ⟨hm, hlength, -⟩ := parse_eq_some_iff.mp hparse
    exact absurd ⟨hm.imp And.left And.left, hlength⟩ h

theorem parse_of_traffic (r : Registry) (hm : Travels m direction) (hlength : 48 ≤ m.data.length) :
    ∃ sent, parse r m = some (direction, sent) ∧ (∀ w ∈ sent.headerWords, w.In m.data) ∧
      ReadAs r ⟨m.subchannel, sent.opcode, direction⟩ (m.data.drop 32) sent.body := by
  refine ⟨_, parse_eq_some_iff.mpr ⟨hm, hlength, rfl⟩, ?_, readAs_readBody _ _ _⟩
  simp only [headerWords, List.forall_mem_cons]
  exact ⟨Bytes.in_u32At (by omega), Bytes.in_u32At (by omega), Bytes.in_u64At (by omega),
    Bytes.in_u16At (by omega), Bytes.in_u16At (by omega), nofun⟩

/-! ## The block as it is handed on -/

theorem toNat_sub_key (x : UInt32) (key : UInt8) :
    (x - key.toUInt32).toNat = (x.toNat + (2 ^ 32 - key.toNat)) % 2 ^ 32 := by
  rw [UInt32.toNat_sub, UInt8.toNat_toUInt32, Nat.add_comm]

theorem corrected_unveil (s : State) (body : Body) : Corrected s body (s.unveil body).2 := by
  cases body with
  | control c =>
    unfold State.unveil
    simp only
    split
    next key hkey =>
      split
      next h => exact .undone ⟨h.1, h.2.1, hkey, h.2.2⟩ (toNat_sub_key c.p1 key)
      next h =>
        refine .kept ?_
        rintro _ key' ⟨⟩ ⟨hkind, hobfuscated, hkey', hne⟩
        cases hkey.symm.trans hkey'
        exact h ⟨hkind, hobfuscated, hne⟩
    next hkey =>
      refine .kept ?_
      rintro _ key' ⟨⟩ ⟨-, -, hkey', -⟩
      cases hkey.symm.trans hkey'
  | casting c =>
    unfold State.unveil
    simp only
    split <;> exact .kept nofun
  | _ => exact .kept nofun

theorem Corrected.isEgressMove {body' : Body} (h : Corrected s body body') :
    body'.isEgressMove = body.isEgressMove := by
  cases h <;> rfl

/-- What comes of the block in a message: it goes on unless it is a movement of the client that is
stamped like the last one, and of such a movement the stamp is kept. -/
theorem step_of_parse (h : parse r m = some (direction, sent)) (s : State) :
    (s.step r m).2 = (if direction = .egress ∧ sent.body.isEgressMove = true ∧
      sent.timestamp = s.lastMove then none
      else some (direction, { sent with body := (s.unveil sent.body).2 })) ∧
    (s.step r m).1.lastMove =
      if direction = .egress ∧ sent.body.isEgressMove = true then sent.timestamp
      else s.lastMove := by
  have hmove := (corrected_unveil s sent.body).isEgressMove
  unfold State.step
  simp only [h, State.lets, hmove, lastMove_unveil]
  by_cases hegress : direction = .egress ∧ sent.body.isEgressMove = true
  · by_cases htime : sent.timestamp = s.lastMove
    · simp only [hegress, htime, and_self, if_true, lastMove_unveil, Bool.false_eq_true, if_false]
    · simp only [hegress, htime, and_self, if_true, if_false, and_false]
  · have hon : ¬ (direction = .egress ∧ sent.body.isEgressMove = true ∧
        sent.timestamp = s.lastMove) := fun hheld => hegress ⟨hheld.1, hheld.2.1⟩
    simp only [if_neg hegress, if_neg hon, if_true, lastMove_unveil, and_self]

/-- **One message, one block.** A message that is no traffic, or too short for a block, is passed
over and leaves no trace. Of any other the numbers of the block are those that stand in its header,
in full; its body is what the decoder that is looked up makes of the rest, or the rest itself;
nothing but the first parameter of an obfuscated control block is changed in it; and it goes on,
unless it is a movement of the client that is stamped like the last one. -/
theorem decodes_message (r : Registry) (s : State) (m : Message) :
    (¬ ((m.kind = .recv ∨ m.kind = .send) ∧ 48 ≤ m.data.length) → s.step r m = (s, none)) ∧
      ∀ direction, Travels m direction → 48 ≤ m.data.length →
        ∃ (b : Block) (body : Body), (∀ w ∈ b.headerWords, w.In m.data) ∧
          ReadAs r ⟨m.subchannel, b.opcode, direction⟩ (m.data.drop 32) body ∧
          Corrected s body b.body ∧
          (s.step r m).2 = if direction = .egress ∧ b.body.isEgressMove = true ∧
            b.timestamp = s.lastMove then none else some (direction, b) := by
  refine ⟨fun h => State.step_of_parse_none (parse_of_not_traffic h), ?_⟩
  intro direction hm hlength
  obtain ⟨sent, hparse, hwords, hread⟩ := parse_of_traffic r hm hlength
  have hcorrected := corrected_unveil s sent.body
  refine ⟨{ sent with body := (s.unveil sent.body).2 }, sent.body, hwords, hread, hcorrected, ?_⟩
  rw [hcorrected.isEgressMove]
  exact (step_of_parse hparse s).1

/-- The first parameter was 5, and is obfuscated with a greater byte. -/
theorem decodes_message_lockOn :
    let m : Message := ⟨.recv, 1, Bytes.leBytes 4 10 ++ Bytes.leBytes 4 20 ++ Bytes.leBytes 8 3000 ++
      [1, 1] ++ Bytes.leBytes 2 0x0245 ++ [1, 1] ++ Bytes.leBytes 2 77 ++ List.replicate 8 1 ++
      Bytes.leBytes 2 0x22 ++ [1, 1] ++ Bytes.leBytes 4 5 ++ Bytes.leBytes 4 6 ++
      Bytes.leBytes 4 7 ++ Bytes.leBytes 4 8 ++ List.replicate 4 1⟩
    let s : State := ⟨true, some 9, 3000⟩
    let b : Block := ⟨10, 20, 3000, 77, 0x0245, .control ⟨0x22, 0xFFFFFFFC, 6, 7, 8⟩⟩
    (Travels m .ingress ∧ 48 ≤ m.data.length) ∧ (s.step (.ofOpcodes {}) m).2 = some (.ingress, b) ∧
      (∀ w ∈ b.headerWords, w.In m.data) ∧ ∃ body,
        ReadAs (.ofOpcodes {}) ⟨1, 0x0245, .ingress⟩ (m.data.drop 32) body ∧
          Corrected s body b.body := by
  intro m s b
  have hm : Travels m .ingress := .inl ⟨rfl, rfl⟩
  have hlength : 48 ≤ m.data.length := by decide
  have hb : (s.step (.ofOpcodes {}) m).2 = some (.ingress, b) := by decide +kernel
  obtain ⟨b', body, hwords, hread, hcorrected, hstep⟩ :=
    (decodes_message (.ofOpcodes {}) s m).2 .ingress hm hlength
  rw [hb, if_neg fun hegress => nomatch hegress.1] at hstep
  cases hstep
  exact ⟨⟨hm, hlength⟩, hb, hwords, body, hread, hcorrected⟩

end Wiretap.Block
