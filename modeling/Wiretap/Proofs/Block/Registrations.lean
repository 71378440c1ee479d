import Mathlib.Data.Finset.Card
import Mathlib.Data.List.Induction
import Wiretap.Proofs.Block.Decoding

/-!
# What a registry holds

A registry that is built by registrations holds the last one for each key, and nothing else. That of
a table of opcodes is built so: where opcodes collide, a later variant takes the place of an earlier
one of the same subchannel and direction. No variant is ever read from a message on another
subchannel, or of the other direction.

Results:

* `find?_registerAll_iff`: a key has the decoder that was registered last for it.
* `size_registerAll`: there is one entry for each key.
* `origin?_of_readAs`: a body that is not raw has the variant of the subchannel, the opcode and the
  direction that it was read for.
* `last_registration_decides`: both for any registrations after those of a table of opcodes, and for
  all blocks that come of such a table.
-/

namespace Wiretap.Block

/-- Of these registrations the last one for the key is that of this decoder. -/
def LastFor (key : RegistryKey) (l : List (RegistryKey × BodyDecoder)) (d : BodyDecoder) : Prop :=
  ∃ before after, l = before ++ (key, d) :: after ∧ ∀ e ∈ after, e.1 ≠ key

/-- The registry holds what these registrations, in their order, come to. -/
structure Registry.Holds (r : Registry) (l : List (RegistryKey × BodyDecoder)) : Prop where
  lookup_iff : ∀ key d, r.lookup key = some d ↔
    (key.subchannel = 1 ∨ key.subchannel = 2) ∧ LastFor key l d
  size_eq : r.size = (l.map Prod.fst).toFinset.card

variable {key : RegistryKey} {l : List (RegistryKey × BodyDecoder)} {d : BodyDecoder}

/-! ## The last registration -/

theorem not_lastFor_nil : ¬ LastFor key [] d := by
  rintro ⟨before, after, h, -⟩
  simp at h

theorem lastFor_concat_iff {e : RegistryKey × BodyDecoder} :
    LastFor key (l ++ [e]) d ↔ if key = e.1 then e.2 = d else LastFor key l d := by
  constructor
  · rintro ⟨before, after, h, hafter⟩
    cases after using List.reverseRecOn with
    | nil =>
      obtain ⟨-, he⟩ := List.append_inj' h rfl
      cases he
      rw [if_pos rfl]
    | append_singleton after last =>
      rw [← List.cons_append, ← List.append_assoc] at h
      obtain ⟨hl, he⟩ := List.append_inj' h rfl
      cases he
      rw [if_neg (hafter e (by simp)).symm]
      exact ⟨before, after, hl, fun e' he' => hafter e' (List.mem_append_left _ he')⟩
  · intro h
    split at h
    next hkey =>
      subst hkey h
      exact ⟨l, [], rfl, nofun⟩
    next hkey =>
      obtain ⟨before, after, rfl, hafter⟩ := h
      refine ⟨before, after ++ [e], by simp, fun e' he' => ?_⟩
      rcases List.mem_append.mp he' with hold | hnew
      · exact hafter e' hold
      · rw [List.mem_singleton.mp hnew]
        exact Ne.symm hkey

/-! ## The entries of a registry -/

namespace Registry

variable {r : Registry}

/-- The keys that have a decoder. -/
def keys (r : Registry) : List RegistryKey := r.entries.map Prod.fst

theorem registerAll_concat (r : Registry) (l : List (RegistryKey × BodyDecoder))
    (e : RegistryKey × BodyDecoder) :
    r.registerAll (l ++ [e]) = (r.registerAll l).register e.1 e.2 :=
  List.foldl_concat ..

theorem registerAll_append (r : Registry) (l l' : List (RegistryKey × BodyDecoder)) :
    (r.registerAll l).registerAll l' = r.registerAll (l ++ l') :=
  List.foldl_append.symm

theorem keys_register (r : Registry) (key : RegistryKey) (d : BodyDecoder) :
    (r.register key d).keys = key :: r.keys.filter (· != key) := by
  unfold register keys
  rw [List.map_cons, List.filter_map]
  rfl

theorem nodup_keys_registerAll (l : List (RegistryKey × BodyDecoder)) :
    (registerAll {} l).keys.Nodup := by
  induction l using List.reverseRecOn with
  | nil => exact List.nodup_nil
  | append_singleton l e ih =>
    rw [registerAll_concat, keys_register]
    exact List.nodup_cons.mpr ⟨by simp, ih.filter _⟩

theorem mem_keys_registerAll : key ∈ (registerAll {} l).keys ↔ key ∈ l.map Prod.fst := by
  induction l using List.reverseRecOn with
  | nil => rfl
  | append_singleton l e ih =>
    rw [registerAll_concat, keys_register, List.mem_cons, List.mem_filter, ih, List.map_append,
      List.mem_append, List.map_singleton, List.mem_singleton]
    by_cases hkey : key = e.1 <;> simp [hkey]

/-- There is one entry for each key that was registered. -/
theorem size_registerAll (l : List (RegistryKey × BodyDecoder)) :
    (registerAll {} l).size = (l.map Prod.fst).toFinset.card := by
  have hkeys : (registerAll {} l).keys.toFinset = (l.map Prod.fst).toFinset := by
    ext key
    rw [List.mem_toFinset, List.mem_toFinset, mem_keys_registerAll]
  rw [← hkeys, List.toFinset_card_of_nodup (nodup_keys_registerAll l)]
  exact (List.length_map _).symm

/-- A key has the decoder that was registered last for it. -/
theorem find?_registerAll_iff : (registerAll {} l).find? key = some d ↔ LastFor key l d := by
  induction l using List.reverseRecOn with
  | nil => exact ⟨nofun, fun h => absurd h not_lastFor_nil⟩
  | append_singleton l e ih =>
    rw [registerAll_concat, find?_register, lastFor_concat_iff]
    split
    next => exact Option.some_inj
    next => exact ih

theorem lookup_eq_some_iff : r.lookup key = some d ↔
    (key.subchannel = 1 ∨ key.subchannel = 2) ∧ r.find? key = some d := by
  unfold lookup
  split
  next hsub => exact ⟨fun h => ⟨hsub, h⟩, And.right⟩
  next hsub => exact ⟨nofun, fun h => absurd h.1 hsub⟩

theorem holds_registerAll (l : List (RegistryKey × BodyDecoder)) : (registerAll {} l).Holds l where
  lookup_iff key d := by rw [lookup_eq_some_iff, find?_registerAll_iff]
  size_eq := size_registerAll l

/-! ## The registry of a table of opcodes -/

variable {o : Opcodes}

theorem holds_ofOpcodes (o : Opcodes) (l : List (RegistryKey × BodyDecoder)) :
    ((ofOpcodes o).registerAll l).Holds (defaults o ++ l) := by
  rw [ofOpcodes, registerAll_append]
  exact holds_registerAll _

end Registry

variable {o : Opcodes} {data : Bytes} {body : Body}

/-- A body that was decoded has the variant of the key that it was decoded for. -/
theorem origin?_of_readAs (h : ReadAs (.ofOpcodes o) key data body) :
    body = .raw data ∨
      body.origin? o = some (key.direction.kind, key.subchannel, key.opcode) := by
  cases h with
  | decoded hlookup hdecode =>
    obtain ⟨before, after, hl, -⟩ :=
      (((Registry.holds_registerAll (Registry.defaults o)).lookup_iff key _).mp hlookup).2
    have hmem := hl ▸ List.mem_append_right before List.mem_cons_self
    exact .inr (Registry.origin?_of_default hmem hdecode)
  | failed => exact .inl rfl
  | unknown => exact .inl rfl

theorem Travels.kind_eq {m : Message} {direction : Direction} (h : Travels m direction) :
    m.kind = direction.kind := by
  rcases h with ⟨hkind, rfl⟩ | ⟨hkind, rfl⟩
  · exact hkind
  · exact hkind

/-- Undoing the obfuscation changes no variant. -/
theorem Corrected.origin?_eq {s : State} {body' : Body} (h : Corrected s body body') :
    body'.origin? o = body.origin? o := by
  cases h <;> rfl

theorem Corrected.eq_raw {s : State} {body' : Body} (h : Corrected s body body')
    (hraw : body = .raw data) : body' = .raw data := by
  subst hraw
  cases h
  rfl

/-- A block that is forwarded was read from its message, and all that was done to it since is to
undo the obfuscation. -/
theorem readAs_of_step {r : Registry} {s : State} {m : Message} {direction : Direction} {b : Block}
    (h : (s.step r m).2 = some (direction, b)) :
    Travels m direction ∧ ∃ body,
      ReadAs r ⟨m.subchannel, b.opcode, direction⟩ (m.data.drop 32) body ∧
        Corrected s body b.body := by
  cases hparse : parse r m with
  | none =>
    rw [State.step_of_parse_none hparse] at h
    cases h
  | some sent =>
    obtain ⟨direction', sent⟩ := sent
    rw [(step_of_parse hparse s).1] at h
    split at h <;> cases h
    obtain ⟨hm, -, rfl⟩ := parse_eq_some_iff.mp hparse
    exact ⟨hm, _, readAs_readBody .., corrected_unveil s _⟩

/-- **The last registration decides.** Whatever is registered on top of the eight decoders of a
table of opcodes, or in an empty registry, a look-up on the subchannels 1 and 2 finds the decoder
that was registered last for exactly its key, on other subchannels it finds nothing, and the
registry has as many entries as different keys were registered. With the decoders of a table of
opcodes alone, and however its opcodes collide, each block that a decoder forwards is raw, with the
bytes that were sent, or its variant belongs to the kind, the subchannel and the opcode of its
message. -/
theorem last_registration_decides (o : Opcodes) :
    let first : List (RegistryKey × BodyDecoder) :=
      [(⟨1, o.initZone, .ingress⟩, .initZone), (⟨1, o.casting, .ingress⟩, .casting),
        (⟨1, o.control, .ingress⟩, .control), (⟨1, o.movement, .ingress⟩, .movement),
        (⟨1, o.egressMovement, .egress⟩, .egressMovement),
        (⟨1, o.egressInstanceMovement, .egress⟩, .egressInstanceMovement),
        (⟨2, o.chat, .ingress⟩, .chatMessage), (⟨2, o.egressChat, .egress⟩, .egressChat)]
    (∀ l : List (RegistryKey × BodyDecoder),
      (Registry.registerAll {} l).Holds l ∧
        ((Registry.ofOpcodes o).registerAll l).Holds (first ++ l)) ∧
    ∀ (s : State) (m : Message) (direction : Direction) (b : Block),
      (s.step (.ofOpcodes o) m).2 = some (direction, b) →
        b.body = .raw (m.data.drop 32) ∨
          b.body.origin? o = some (m.kind, m.subchannel, b.opcode) := by
  intro first
  refine ⟨fun l => ⟨Registry.holds_registerAll l, Registry.holds_ofOpcodes o l⟩, ?_⟩
  intro s m direction b hstep
  obtain ⟨hm, body, hread, hcorrected⟩ := readAs_of_step hstep
  rcases origin?_of_readAs hread with hraw | horigin
  · exact .inl (hcorrected.eq_raw hraw)
  · rw [hcorrected.origin?_eq, horigin, hm.kind_eq]
    exact .inr rfl

/-- All variants share one opcode. What comes from the server on the subchannel of the zone is then
read as the last variant that is registered for it. -/
theorem last_registration_decides_collided :
    let o : Opcodes := ⟨7, 7, 7, 7, 7, 7, 7, 7⟩
    let m : Message :=
      ⟨.recv, 1, List.replicate 18 0 ++ Bytes.leBytes 2 7 ++ List.replicate 12 0 ++
        [1, 2, 3, 4, 5, 6, 7, 8, 9, 0, 10, 0, 11, 0, 12, 0]⟩
    let b : Block := ⟨0, 0, 0, 0, 7, .movement ⟨1, 2, 3, 4, 5, 6, ⟨0x0807, 9, 10⟩, 0x000c000b⟩⟩
    let s : State := {}
    (s.step (.ofOpcodes o) m).2 = some (.ingress, b) ∧
      b.body.origin? o = some (m.kind, m.subchannel, b.opcode) := by
  intro o m b s
  have hstep : (s.step (.ofOpcodes o) m).2 = some (.ingress, b) := by decide +kernel
  refine ⟨hstep, ?_⟩
  rcases (last_registration_decides o).2 s m .ingress b hstep with hraw | horigin
  · cases hraw
  · exact horigin

end Wiretap.Block
