import Wiretap.Block.Decoder

/-!
# What messages carry

A message carries a body if it is traffic, holds a whole block, and the decoder that is registered
for the block makes that body of it. A message that is dropped carries nothing, and neither does one
whose block is handed on as bytes because no decoder is registered for it or the registered one
fails.

Results:

* `run_append`, `run_singleton`: decoding in two parts is decoding at once.
* `parse_eq_some_iff`: which block is read from a message.
* `carries_of_parse`, `parse_of_carries`: a message carries the body of the block that is read from
  it, unless that body stands in for one that could not be decoded.
* `Carries.unique`: it carries one body at most.
-/

namespace Wiretap.Block

/-! ## Decoding in parts -/

theorem run_append (r : Registry) (s : State) (ms ms' : List Message) :
    run r s (ms ++ ms') =
      ((run r (run r s ms).1 ms').1, (run r s ms).2 ++ (run r (run r s ms).1 ms').2) := by
  induction ms generalizing s with
  | nil => rfl
  | cons m ms ih => simp only [List.cons_append, run, ih, List.append_assoc]

theorem run_singleton (r : Registry) (s : State) (m : Message) :
    run r s [m] = ((s.step r m).1, (s.step r m).2.toList) := by
  simp only [run, List.append_nil]

/-! ## Carried bodies -/

/-- The registered decoder reads the body of the block in the message as this one. -/
def Carries (r : Registry) (m : Message) (body : Body) : Prop :=
  ∃ direction decoder,
    (m.kind = .recv ∧ direction = .ingress ∨ m.kind = .send ∧ direction = .egress) ∧
      48 ≤ m.data.length ∧
      r.lookup ⟨m.subchannel, Bytes.u16At 18 m.data, direction⟩ = some decoder ∧
      decoder.decode (m.data.drop 32) = .ok body

variable {r : Registry} {m : Message} {direction : Direction} {b : Block} {body body' : Body}

theorem direction?_eq_some_iff {k : MessageKind} : direction? k = some direction ↔
    k = .recv ∧ direction = .ingress ∨ k = .send ∧ direction = .egress := by
  cases k <;> simp [direction?, eq_comm]

theorem readBody_eq_raw_or (r : Registry) (key : RegistryKey) (data : Bytes) :
    readBody r key data = .raw data ∨ ∃ decoder, r.lookup key = some decoder ∧
      decoder.decode data = .ok (readBody r key data) := by
  unfold readBody
  split
  next => exact .inl rfl
  next decoder hlookup =>
    split
    next body hdecode => exact .inr ⟨decoder, hlookup, hdecode⟩
    next => exact .inl rfl

/-- A block is read from traffic that is long enough for one, and from nothing else. -/
theorem parse_eq_some_iff : parse r m = some (direction, b) ↔
    (m.kind = .recv ∧ direction = .ingress ∨ m.kind = .send ∧ direction = .egress) ∧
      48 ≤ m.data.length ∧
      b = ⟨Bytes.u32At 0 m.data, Bytes.u32At 4 m.data, Bytes.u64At 8 m.data, Bytes.u16At 22 m.data,
        Bytes.u16At 18 m.data,
        readBody r ⟨m.subchannel, Bytes.u16At 18 m.data, direction⟩ (m.data.drop 32)⟩ := by
  unfold parse
  split
  next hnone =>
    simp only [reduceCtorEq, false_iff]
    rintro ⟨hkind, -⟩
    cases hnone.symm.trans (direction?_eq_some_iff.mpr hkind)
  next d hd =>
    split
    next hshort =>
      simp only [reduceCtorEq, false_iff]
      rintro ⟨-, hlength, -⟩
      exact Nat.not_lt_of_le hlength hshort
    next hlength =>
      constructor
      · rintro ⟨⟩
        exact ⟨direction?_eq_some_iff.mp hd, Nat.le_of_not_lt hlength, rfl⟩
      · rintro ⟨hkind, -, rfl⟩
        cases hd.symm.trans (direction?_eq_some_iff.mpr hkind)
        rfl

theorem carries_of_parse (h : parse r m = some (direction, b)) (hbody : ∀ data, b.body ≠ .raw data) :
    Carries r m b.body := by
  obtain ⟨hkind, hlength, rfl⟩ := parse_eq_some_iff.mp h
  rcases readBody_eq_raw_or r ⟨m.subchannel, Bytes.u16At 18 m.data, direction⟩
    (m.data.drop 32) with hraw | ⟨decoder, hlookup, hdecode⟩
  · exact absurd hraw (hbody _)
  · exact ⟨direction, decoder, hkind, hlength, hlookup, hdecode⟩

theorem parse_of_carries (h : Carries r m body) :
    ∃ direction b, parse r m = some (direction, b) ∧ b.body = body := by
  obtain ⟨direction, decoder, hkind, hlength, hlookup, hdecode⟩ := h
  refine ⟨direction, _, parse_eq_some_iff.mpr ⟨hkind, hlength, rfl⟩, ?_⟩
  show readBody r ⟨m.subchannel, Bytes.u16At 18 m.data, direction⟩ (m.data.drop 32) = body
  unfold readBody
  simp only [hlookup, hdecode]

theorem Carries.unique (h : Carries r m body) (h' : Carries r m body') : body = body' := by
  obtain ⟨direction, b, hparse, rfl⟩ := parse_of_carries h
  obtain ⟨direction', b', hparse', rfl⟩ := parse_of_carries h'
  rw [hparse] at hparse'
  cases hparse'
  rfl

end Wiretap.Block
