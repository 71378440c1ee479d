import Wiretap.Proofs.Block.Obfuscation

/-!
# The two directions of the traffic

One decoder serves the traffic from the server and the traffic to it. What it remembers for the sake
of one direction is out of reach of the other: zones, casts and control blocks come from the server
only, as long as the registry is that of a table of opcodes, and repeated movements are dropped on
the way to the server only.

Results:

* `mem_of_find?_registerAll`: a decoder is found only for a key that it was registered for.
* `origin?_of_default`: a decoder of a table of opcodes reads the variant that it is there for.
* `separates_ofOpcodes`: the registry of a table of opcodes reads nothing that the client sends as a
  zone, a cast or a control block.
* `step_alike`, `alike_step`: what one message of a direction, or of the other one, does to what is
  remembered for that direction.
* `directions_independent`: the blocks of a direction are those of a decoder that is given nothing
  but the messages of that direction.
-/

namespace Wiretap.Block

/-- Bodies that have to do with the obfuscation: it is learned from them, or undone in them. -/
def Body.concernsVeil : Body → Bool
  | .initZone _ | .casting _ | .control _ => true
  | _ => false

/-- The kind of the messages that travel in this direction. -/
def Direction.kind : Direction → MessageKind
  | .ingress => .recv
  | .egress => .send

/-- The messages that a body of this variant can come from: their kind, their subchannel, and the
opcode of their block. -/
def Body.origin? (o : Opcodes) : Body → Option (MessageKind × UInt32 × UInt16)
  | .initZone _ => some (.recv, 1, o.initZone)
  | .casting _ => some (.recv, 1, o.casting)
  | .control _ => some (.recv, 1, o.control)
  | .movement _ => some (.recv, 1, o.movement)
  | .egressMovement _ => some (.send, 1, o.egressMovement)
  | .egressInstanceMovement _ => some (.send, 1, o.egressInstanceMovement)
  | .chatMessage _ => some (.recv, 2, o.chat)
  | .egressChat _ => some (.send, 2, o.egressChat)
  | .raw _ => none

namespace Registry

theorem mem_of_find?_registerAll {l : List (RegistryKey × BodyDecoder)} {r : Registry}
    {key : RegistryKey} {d : BodyDecoder} (h : (r.registerAll l).find? key = some d) :
    (key, d) ∈ l ∨ r.find? key = some d := by
  induction l generalizing r with
  | nil => exact .inr h
  | cons e l ih =>
    rcases ih h with hmem | hfind
    · exact .inl (List.mem_cons_of_mem e hmem)
    · rw [find?_register] at hfind
      split at hfind
      next hkey =>
        cases hfind
        rw [hkey]
        exact .inl List.mem_cons_self
      next => exact .inr hfind

/-- Nothing that the client sends is read as a body that has to do with the obfuscation. -/
def Separates (r : Registry) : Prop :=
  ∀ key data, key.direction = .egress → (readBody r key data).concernsVeil = false

theorem exists_of_map_eq_ok {ε α β : Type} {f : α → β} {x : Except ε α} {b : β}
    (h : x.map f = .ok b) : ∃ a, b = f a := by
  cases x with
  | error e => cases h
  | ok a =>
    cases h
    exact ⟨a, rfl⟩

/-- What one of the default decoders makes of a body is the variant that it was registered for. -/
theorem origin?_of_default {o : Opcodes} {key : RegistryKey} {d : BodyDecoder}
    (hmem : (key, d) ∈ defaults o) {data : Bytes} {body : Body} (hdecode : d.decode data = .ok body) :
    body.origin? o = some (key.direction.kind, key.subchannel, key.opcode) := by
  simp only [defaults, List.mem_cons, List.not_mem_nil, or_false, Prod.mk.injEq] at hmem
  rcases hmem with ⟨rfl, rfl⟩ | ⟨rfl, rfl⟩ | ⟨rfl, rfl⟩ | ⟨rfl, rfl⟩ | ⟨rfl, rfl⟩ | ⟨rfl, rfl⟩ |
    ⟨rfl, rfl⟩ | ⟨rfl, rfl⟩
  all_goals
    obtain ⟨x, rfl⟩ := exists_of_map_eq_ok hdecode
    rfl

/-- A decoder of something that the client sends never gives a body that has to do with the
obfuscation. -/
theorem concernsVeil_of_default {o : Opcodes} {key : RegistryKey} {d : BodyDecoder}
    (hmem : (key, d) ∈ defaults o) (hegress : key.direction = .egress) {data : Bytes} {body : Body}
    (hdecode : d.decode data = .ok body) : body.concernsVeil = false := by
  have horigin := origin?_of_default hmem hdecode
  rw [hegress] at horigin
  cases body with
  | initZone | casting | control => cases horigin
  | _ => rfl

theorem separates_ofOpcodes (o : Opcodes) : Separates (.ofOpcodes o) := by
  intro key data hegress
  rcases readBody_eq_raw_or (.ofOpcodes o) key data with hraw | ⟨d, hlookup, hdecode⟩
  · rw [hraw]
    rfl
  · have hfind : (Registry.ofOpcodes o).find? key = some d := by
      unfold lookup at hlookup
      split at hlookup
      next => exact hlookup
      next => cases hlookup
    rcases mem_of_find?_registerAll hfind with hmem | hempty
    · exact concernsVeil_of_default hmem hegress hdecode
    · cases hempty

end Registry

variable {r : Registry} {s s' : State} {m : Message} {d : Direction}

/-! ## What is remembered for a direction -/

/-- The decoders remember the same for the sake of a direction: the obfuscation for what comes from
the server, and the last movement for what goes to it. -/
def State.Alike : Direction → State → State → Prop
  | .ingress, s, s' => s.veil = s'.veil
  | .egress, s, s' => s.lastMove = s'.lastMove

theorem State.Alike.rfl : State.Alike d s s := by
  cases d <;> exact Eq.refl _

theorem State.Alike.symm (h : State.Alike d s s') : State.Alike d s' s := by
  cases d <;> exact Eq.symm h

theorem State.Alike.trans {s'' : State} (h : State.Alike d s s') (h' : State.Alike d s' s'') :
    State.Alike d s s'' := by
  cases d <;> exact Eq.trans h h'

theorem unveil_of_not_concerned {body : Body} (h : body.concernsVeil = false) (s : State) :
    s.unveil body = (s, body) := by
  cases body with
  | initZone | casting | control => cases h
  | _ => rfl

theorem lastMove_unveil (s : State) (body : Body) : (s.unveil body).1.lastMove = s.lastMove := by
  unfold State.unveil
  split
  next => rfl
  next => split <;> rfl
  next =>
    split
    next => split <;> rfl
    next => rfl
  next => rfl

/-- What is made of a body depends on the obfuscation only. -/
theorem unveil_congr (h : s.veil = s'.veil) (body : Body) :
    (s.unveil body).1.veil = (s'.unveil body).1.veil ∧ (s.unveil body).2 = (s'.unveil body).2 := by
  obtain ⟨hobfuscated, hkey⟩ := Prod.mk.inj h
  cases body with
  | casting c =>
    simp only [State.unveil, hobfuscated, hkey]
    split
    next => exact ⟨rfl, rfl⟩
    next => exact ⟨h, rfl⟩
  | control c =>
    simp only [State.unveil, hobfuscated, hkey]
    split
    next =>
      split
      next => exact ⟨h, rfl⟩
      next => exact ⟨h, rfl⟩
    next => exact ⟨h, rfl⟩
  | initZone z => exact ⟨rfl, rfl⟩
  | _ => exact ⟨h, rfl⟩

theorem lets_ingress (s : State) (b : Block) : s.lets .ingress b = (s, true) := rfl

/-- Whether a block goes on depends on the last movement only. -/
theorem lets_congr (h : s.lastMove = s'.lastMove) (b : Block) :
    (s.lets d b).1.lastMove = (s'.lets d b).1.lastMove ∧ (s.lets d b).2 = (s'.lets d b).2 := by
  unfold State.lets
  rw [h]
  split
  next =>
    split
    next => exact ⟨h, rfl⟩
    next => exact ⟨rfl, rfl⟩
  next => exact ⟨h, rfl⟩

/-! ## One message -/

/-- What a client sends is not read as something that concerns the obfuscation. -/
theorem concernsVeil_of_parse (hr : r.Separates) {b : Block} (h : parse r m = some (.egress, b)) :
    b.body.concernsVeil = false := by
  obtain ⟨-, -, rfl⟩ := parse_eq_some_iff.mp h
  exact hr _ _ rfl

theorem direction?_of_parse {b : Block} (h : parse r m = some (d, b)) :
    direction? m.kind = some d := by
  obtain ⟨hkind, -⟩ := parse_eq_some_iff.mp h
  exact direction?_eq_some_iff.mpr hkind

theorem direction_of_step {sent : Direction × Block} (h : (s.step r m).2 = some sent) :
    direction? m.kind = some sent.1 := by
  cases hparse : parse r m with
  | none =>
    rw [State.step_of_parse_none hparse] at h
    cases h
  | some b =>
    unfold State.step at h
    simp only [hparse] at h
    split at h <;> cases h
    exact direction?_of_parse hparse

/-- **A message of the direction** is dealt with in the same way by decoders that remember the same
for it. -/
theorem step_alike (hr : r.Separates) (h : State.Alike d s s') (hm : direction? m.kind = some d) :
    (s.step r m).2 = (s'.step r m).2 ∧ State.Alike d (s.step r m).1 (s'.step r m).1 := by
  cases hparse : parse r m with
  | none =>
    rw [State.step_of_parse_none hparse, State.step_of_parse_none hparse]
    exact ⟨rfl, h⟩
  | some sent =>
    obtain ⟨direction, b⟩ := sent
    cases (direction?_of_parse hparse).symm.trans hm
    unfold State.step
    simp only [hparse]
    cases d with
    | ingress =>
      obtain ⟨hveil, hbody⟩ := unveil_congr h b.body
      simp only [lets_ingress, hbody, true_and]
      exact hveil
    | egress =>
      -- the body is as it was sent
      have hbody := concernsVeil_of_parse hr hparse
      rw [unveil_of_not_concerned hbody s, unveil_of_not_concerned hbody s']
      obtain ⟨hmove, hlets⟩ := lets_congr (d := .egress) h b
      simp only [hlets, true_and]
      exact hmove

/-- **A message of the other direction**, or of none, changes nothing for this one, and no block of
this one comes of it. -/
theorem alike_step (hr : r.Separates) (hm : direction? m.kind ≠ some d) :
    State.Alike d s (s.step r m).1 ∧ ∀ sent, (s.step r m).2 = some sent → sent.1 ≠ d := by
  refine ⟨?_, fun sent hsent hd => hm (hd ▸ direction_of_step hsent)⟩
  cases hparse : parse r m with
  | none =>
    rw [State.step_of_parse_none hparse]
    exact .rfl
  | some sent =>
    obtain ⟨direction, b⟩ := sent
    have hdirection : direction ≠ d := fun hd => hm (hd ▸ direction?_of_parse hparse)
    unfold State.step
    simp only [hparse]
    cases d with
    | ingress =>
      cases direction with
      | ingress => exact absurd rfl hdirection
      | egress =>
        rw [unveil_of_not_concerned (concernsVeil_of_parse hr hparse)]
        exact (veil_lets _ _ _).symm
    | egress =>
      cases direction with
      | ingress => exact (lastMove_unveil s b.body).symm
      | egress => exact absurd rfl hdirection

/-! ## Runs -/

/-- Decoders that remember the same for a direction forward the same blocks of it, whether or not
they are given the other messages too. -/
theorem run_alike (hr : r.Separates) (ms : List Message) (h : State.Alike d s s') :
    (run r s ms).2.filter (·.1 = d) =
      (run r s' (ms.filter fun m => direction? m.kind = some d)).2 := by
  induction ms generalizing s s' with
  | nil => rfl
  | cons m ms ih =>
    by_cases hm : direction? m.kind = some d
    · obtain ⟨hforwarded, hafter⟩ := step_alike hr h hm
      have hown : (s.step r m).2.toList.filter (·.1 = d) = (s'.step r m).2.toList := by
        rw [← hforwarded]
        refine List.filter_eq_self.mpr fun sent hsent => ?_
        have hkind := direction_of_step (Option.mem_toList.mp hsent)
        exact decide_eq_true (Option.some.inj (hkind.symm.trans hm))
      rw [List.filter_cons_of_pos (by simpa using hm)]
      simp only [run, List.filter_append]
      rw [hown, ih hafter]
    · obtain ⟨hsame, hother⟩ := alike_step (s := s) hr hm
      have hnone : (s.step r m).2.toList.filter (·.1 = d) = [] := by
        refine List.filter_eq_nil_iff.mpr fun sent hsent => ?_
        simpa using hother sent (Option.mem_toList.mp hsent)
      rw [List.filter_cons_of_neg (by simpa using hm)]
      simp only [run, List.filter_append]
      rw [hnone, List.nil_append]
      exact ih (hsame.symm.trans h)

/-- **The directions do not mix.** Whatever the opcodes, and in whatever order messages of all kinds
arrive, the blocks from the server that are forwarded are those that a new decoder forwards when it
is given only what comes from the server, and the blocks to the server are those that a new decoder
forwards when it is given only what goes there. -/
theorem directions_independent (o : Opcodes) (ms : List Message) :
    (run (.ofOpcodes o) {} ms).2.filter (·.1 = .ingress) =
        (run (.ofOpcodes o) {} (ms.filter (·.kind = .recv))).2 ∧
      (run (.ofOpcodes o) {} ms).2.filter (·.1 = .egress) =
        (run (.ofOpcodes o) {} (ms.filter (·.kind = .send))).2 := by
  have hr := Registry.separates_ofOpcodes o
  have hingress : ∀ k : MessageKind, direction? k = some .ingress ↔ k = .recv := by
    intro k
    rw [direction?_eq_some_iff]
    simp
  have hegress : ∀ k : MessageKind, direction? k = some .egress ↔ k = .send := by
    intro k
    rw [direction?_eq_some_iff]
    simp
  constructor
  · rw [run_alike hr ms .rfl]
    simp only [hingress]
  · rw [run_alike hr ms .rfl]
    simp only [hegress]

end Wiretap.Block
