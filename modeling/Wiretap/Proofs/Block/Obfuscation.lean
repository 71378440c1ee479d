import Mathlib.Algebra.Group.Nat.Defs
import Mathlib.Data.List.Induction
import Wiretap.Proofs.Block.Content

/-!
# The obfuscation of a zone

Whether control blocks are obfuscated, and with which byte, is a matter of two messages of all that
a decoder has been given: the last one by which the client entered a zone, and the first cast after
that.

Results:

* `veil_step_zone`, `veil_step_cast`, `veil_step_other`: what one message does to it.
* `Remembers.next`: the decoder keeps in mind what the messages so far have told.
* `obfuscation_of_run`: the obfuscation after a run, said of the messages alone.
-/

namespace Wiretap.Block

/-- What a decoder knows of the obfuscation: whether the zone uses it, and the byte. -/
def State.veil (s : State) : Bool × Option UInt8 := (s.obfuscated, s.key)

/-- Bodies from which something can be learned about the obfuscation. -/
def Body.unveils : Body → Bool
  | .initZone _ | .casting _ => true
  | _ => false

variable {r : Registry} {s : State} {ms : List Message} {m : Message} {z : InitZone} {c : Casting}

/-! ## One message -/

theorem veil_lets (s : State) (direction : Direction) (b : Block) :
    (s.lets direction b).1.veil = s.veil := by
  unfold State.lets
  split
  next => split <;> rfl
  next => rfl

theorem veil_unveil_of_not {body : Body} (h : body.unveils = false) (s : State) :
    (s.unveil body).1.veil = s.veil := by
  cases body with
  | initZone z => cases h
  | casting c => cases h
  | control c =>
    simp only [State.unveil]
    split
    next => split <;> rfl
    next => rfl
  | _ => rfl

theorem veil_step_of_parse {direction : Direction} {b : Block}
    (h : parse r m = some (direction, b)) (s : State) :
    (s.step r m).1.veil = (s.unveil b.body).1.veil := by
  unfold State.step
  rw [h]
  exact veil_lets _ _ _

/-- A new zone lifts the old obfuscation. -/
theorem veil_step_zone (h : Carries r m (.initZone z)) (s : State) :
    (s.step r m).1.veil = (decide (z.territoryTypeId ∈ obfuscatedTerritories), none) := by
  obtain ⟨direction, b, hparse, hbody⟩ := parse_of_carries h
  rw [veil_step_of_parse hparse s, hbody]
  rfl

/-- In a zone that uses the obfuscation, the first cast gives the byte away. -/
theorem veil_step_cast (h : Carries r m (.casting c)) (s : State) :
    (s.step r m).1.veil =
      (s.obfuscated, if s.obfuscated = true ∧ s.key = none then some c.key else s.key) := by
  obtain ⟨direction, b, hparse, hbody⟩ := parse_of_carries h
  rw [veil_step_of_parse hparse s, hbody]
  simp only [State.unveil]
  split <;> rfl

theorem veil_step_other (h : ∀ body, Carries r m body → body.unveils = false) (s : State) :
    (s.step r m).1.veil = s.veil := by
  cases hparse : parse r m with
  | none => rw [State.step_of_parse_none hparse]
  | some sent =>
    obtain ⟨direction, b⟩ := sent
    rw [veil_step_of_parse hparse s]
    apply veil_unveil_of_not
    by_cases hraw : ∃ data, b.body = .raw data
    · obtain ⟨data, hdata⟩ := hraw
      rw [hdata]
      rfl
    · exact h b.body (carries_of_parse hparse (not_exists.mp hraw))

/-! ## The zone and the cast -/

/-- Among the messages, the last one that enters a zone enters this one, and these follow it. -/
def LastZone (r : Registry) (ms : List Message) (z : InitZone) (later : List Message) : Prop :=
  ∃ before m, ms = before ++ m :: later ∧ Carries r m (.initZone z) ∧
    ∀ m' ∈ later, ∀ z', ¬Carries r m' (.initZone z')

/-- Among the messages, the first one that carries a cast carries this one. -/
def FirstCast (r : Registry) (ms : List Message) (c : Casting) : Prop :=
  ∃ before m later, ms = before ++ m :: later ∧ Carries r m (.casting c) ∧
    ∀ m' ∈ before, ∀ c', ¬Carries r m' (.casting c')

theorem LastZone.here (h : Carries r m (.initZone z)) (ms : List Message) :
    LastZone r (ms ++ [m]) z [] := ⟨ms, m, rfl, h, nofun⟩

theorem LastZone.stays {later : List Message} (h : LastZone r ms z later)
    (hm : ∀ z', ¬Carries r m (.initZone z')) : LastZone r (ms ++ [m]) z (later ++ [m]) := by
  obtain ⟨before, m₀, rfl, hm₀, hlater⟩ := h
  refine ⟨before, m₀, by simp, hm₀, ?_⟩
  intro m' hm'
  rcases List.mem_append.mp hm' with hold | hnew
  · exact hlater m' hold
  · cases List.mem_singleton.mp hnew
    exact hm

theorem lastZone_concat_iff {later : List Message} : LastZone r (ms ++ [m]) z later ↔
    Carries r m (.initZone z) ∧ later = [] ∨
      (∀ z', ¬Carries r m (.initZone z')) ∧ ∃ later', later = later' ++ [m] ∧
        LastZone r ms z later' := by
  constructor
  · rintro ⟨before, m₀, hms, hm₀, hlater⟩
    rcases List.eq_nil_or_concat later with rfl | ⟨later', m', rfl⟩
    · obtain ⟨-, hlast⟩ := List.append_inj' hms rfl
      cases hlast
      exact .inl ⟨hm₀, rfl⟩
    · have hsplit : ms ++ [m] = (before ++ m₀ :: later') ++ [m'] := by simpa using hms
      obtain ⟨rfl, hlast⟩ := List.append_inj' hsplit rfl
      cases hlast
      refine .inr ⟨hlater m (by simp), later', by simp, before, m₀, rfl, hm₀, ?_⟩
      intro m' hm'
      exact hlater m' (by simp [hm'])
  · rintro (⟨hm, rfl⟩ | ⟨hm, later', rfl, hlast⟩)
    · exact .here hm ms
    · exact hlast.stays hm

/-- Messages have one last zone at most. -/
theorem LastZone.unique {later later' : List Message} {z' : InitZone} (h : LastZone r ms z later)
    (h' : LastZone r ms z' later') : z = z' ∧ later = later' := by
  induction ms using List.reverseRecOn generalizing later later' with
  | nil =>
    obtain ⟨before, m, hms, -⟩ := h
    simp at hms
  | append_singleton ms m ih =>
    rcases lastZone_concat_iff.mp h with ⟨hm, rfl⟩ | ⟨hm, l, rfl, hlast⟩
    · rcases lastZone_concat_iff.mp h' with ⟨hm', rfl⟩ | ⟨hm', -⟩
      · cases hm.unique hm'
        exact ⟨rfl, rfl⟩
      · exact absurd hm (hm' z)
    · rcases lastZone_concat_iff.mp h' with ⟨hm', rfl⟩ | ⟨-, l', rfl, hlast'⟩
      · exact absurd hm' (hm z')
      · obtain ⟨rfl, rfl⟩ := ih hlast hlast'
        exact ⟨rfl, rfl⟩

theorem FirstCast.stays (h : FirstCast r ms c) (m : Message) : FirstCast r (ms ++ [m]) c := by
  obtain ⟨before, m₀, later, rfl, hcast⟩ := h
  exact ⟨before, m₀, later ++ [m], by simp, hcast⟩

theorem FirstCast.here (h : Carries r m (.casting c))
    (hms : ∀ m' ∈ ms, ∀ c', ¬Carries r m' (.casting c')) : FirstCast r (ms ++ [m]) c :=
  ⟨ms, m, [], rfl, h, hms⟩

/-- Messages have one first cast at most. -/
theorem FirstCast.unique {c' : Casting} (h : FirstCast r ms c) (h' : FirstCast r ms c') :
    c = c' := by
  obtain ⟨before, m, later, rfl, hcast, hbefore⟩ := h
  obtain ⟨before', m', later', hms, hcast', hbefore'⟩ := h'
  rcases List.append_eq_append_iff.mp hms with ⟨l, rfl, hl⟩ | ⟨l, rfl, hl⟩
  · cases l with
    | nil =>
      cases hl
      cases hcast.unique hcast'
      rfl
    | cons m₀ l =>
      cases hl
      exact absurd hcast (hbefore' m (by simp) c)
  · cases l with
    | nil =>
      cases hl
      cases hcast.unique hcast'
      rfl
    | cons m₀ l =>
      cases hl
      exact absurd hcast' (hbefore m' (by simp) c')

/-! ## What the decoder keeps in mind -/

/-- The byte that the first cast among these messages gives away. -/
def KeyAfter (r : Registry) (ms : List Message) : Option UInt8 → Prop
  | none => ∀ m ∈ ms, ∀ c, ¬Carries r m (.casting c)
  | some key => ∃ c, FirstCast r ms c ∧ key = c.key

/-- The decoder knows of the obfuscation what these messages tell. -/
inductive Remembers (r : Registry) (ms : List Message) : Bool × Option UInt8 → Prop where
  | nowhere (hzone : ∀ z later, ¬LastZone r ms z later) : Remembers r ms (false, none)
  | plain {z : InitZone} {later : List Message} (hzone : LastZone r ms z later)
      (hterritory : z.territoryTypeId ∉ obfuscatedTerritories) : Remembers r ms (false, none)
  | veiled {z : InitZone} {later : List Message} {key : Option UInt8}
      (hzone : LastZone r ms z later) (hterritory : z.territoryTypeId ∈ obfuscatedTerritories)
      (hkey : KeyAfter r later key) : Remembers r ms (true, key)

theorem KeyAfter.cast {key : Option UInt8} (h : KeyAfter r ms key) (hm : Carries r m (.casting c)) :
    KeyAfter r (ms ++ [m]) (if key = none then some c.key else key) := by
  cases key with
  | none => exact ⟨c, .here hm h, rfl⟩
  | some key =>
    obtain ⟨c', hfirst, hkey⟩ := h
    exact ⟨c', hfirst.stays m, hkey⟩

theorem KeyAfter.other {key : Option UInt8} (h : KeyAfter r ms key)
    (hm : ∀ c, ¬Carries r m (.casting c)) : KeyAfter r (ms ++ [m]) key := by
  cases key with
  | none =>
    intro m' hm'
    rcases List.mem_append.mp hm' with hold | hnew
    · exact h m' hold
    · cases List.mem_singleton.mp hnew
      exact hm
  | some key =>
    obtain ⟨c, hfirst, hkey⟩ := h
    exact ⟨c, hfirst.stays m, hkey⟩

namespace Remembers

theorem zone (hm : Carries r m (.initZone z)) :
    Remembers r (ms ++ [m]) (decide (z.territoryTypeId ∈ obfuscatedTerritories), none) := by
  have hlast := LastZone.here hm ms
  by_cases hterritory : z.territoryTypeId ∈ obfuscatedTerritories
  · rw [decide_eq_true hterritory]
    exact .veiled hlast hterritory nofun
  · rw [decide_eq_false hterritory]
    exact .plain hlast hterritory

/-- Nothing but the byte changes within a zone. -/
theorem within {veiled : Bool} {key key' : Option UInt8} (h : Remembers r ms (veiled, key))
    (hm : ∀ z, ¬Carries r m (.initZone z)) (hplain : veiled = false → key' = none)
    (hveiled : veiled = true → ∀ later, KeyAfter r later key → KeyAfter r (later ++ [m]) key') :
    Remembers r (ms ++ [m]) (veiled, key') := by
  cases h with
  | nowhere hzone =>
    rw [hplain rfl]
    refine .nowhere ?_
    intro z later hlast
    rcases lastZone_concat_iff.mp hlast with ⟨hcarries, -⟩ | ⟨-, later', -, hlast'⟩
    · exact hm z hcarries
    · exact hzone z later' hlast'
  | plain hzone hterritory =>
    rw [hplain rfl]
    exact .plain (hzone.stays hm) hterritory
  | veiled hzone hterritory hkey =>
    exact .veiled (hzone.stays hm) hterritory (hveiled rfl _ hkey)

theorem key_eq_none {key : Option UInt8} (h : Remembers r ms (false, key)) : key = none := by
  cases h <;> rfl

/-- **One message.** The decoder goes on to know what the messages tell. -/
theorem next (h : Remembers r ms s.veil) (m : Message) :
    Remembers r (ms ++ [m]) (s.step r m).1.veil := by
  have hplain : s.obfuscated = false → s.key = none := by
    intro hobfuscated
    rw [State.veil, hobfuscated] at h
    exact h.key_eq_none
  by_cases hzone : ∃ z, Carries r m (.initZone z)
  · obtain ⟨z, hz⟩ := hzone
    rw [veil_step_zone hz s]
    exact zone hz
  have hzone := not_exists.mp hzone
  by_cases hcast : ∃ c, Carries r m (.casting c)
  · obtain ⟨c, hc⟩ := hcast
    rw [veil_step_cast hc s]
    apply h.within hzone
    · intro hobfuscated
      simp [hobfuscated, hplain]
    · intro hobfuscated later hkey
      simpa [hobfuscated] using hkey.cast hc
  · have hcast := not_exists.mp hcast
    have hother : ∀ body, Carries r m body → body.unveils = false := by
      intro body hbody
      cases body with
      | initZone z => exact absurd hbody (hzone z)
      | casting c => exact absurd hbody (hcast c)
      | _ => rfl
    rw [veil_step_other hother s]
    exact h.within hzone hplain fun _ _ hkey => hkey.other hcast

end Remembers

theorem remembers_run (r : Registry) (ms : List Message) :
    Remembers r ms (run r {} ms).1.veil := by
  induction ms using List.reverseRecOn with
  | nil =>
    refine .nowhere ?_
    rintro z later ⟨before, m, hms, -⟩
    simp at hms
  | append_singleton ms m ih =>
    rw [run_append, run_singleton]
    exact ih.next m

/-! ## The whole run -/

theorem toNat_key (c : Casting) : c.key.toNat =
    (c.actionId.toNat + (2 ^ 32 - c.actionIdName.toNat)) % 2 ^ 32 % 256 := by
  rw [Casting.key, UInt32.toNat_toUInt8, UInt32.toNat_sub, UInt16.toNat_toUInt32, Nat.add_comm]

theorem Remembers.obfuscated_iff {veil : Bool × Option UInt8} (h : Remembers r ms veil) :
    veil.1 = true ↔ ∃ z later, LastZone r ms z later ∧
      z.territoryTypeId ∈ obfuscatedTerritories := by
  cases h with
  | nowhere hzone => simpa using fun z later hlast => absurd hlast (hzone z later)
  | plain hzone hterritory =>
    refine ⟨nofun, ?_⟩
    rintro ⟨z', later', hlast, hterritory'⟩
    obtain ⟨rfl, -⟩ := hzone.unique hlast
    exact absurd hterritory' hterritory
  | veiled hzone hterritory => exact ⟨fun _ => ⟨_, _, hzone, hterritory⟩, fun _ => rfl⟩

theorem Remembers.key_iff {veil : Bool × Option UInt8} (h : Remembers r ms veil) (key : UInt8) :
    veil.2 = some key ↔ veil.1 = true ∧ ∃ z later c, LastZone r ms z later ∧
      FirstCast r later c ∧ key = c.key := by
  cases h with
  | nowhere hzone => simp
  | plain hzone hterritory => simp
  | @veiled z later key₀ hzone hterritory hkey =>
    simp only [true_and]
    constructor
    · rintro rfl
      obtain ⟨c, hfirst, rfl⟩ := hkey
      exact ⟨z, later, c, hzone, hfirst, rfl⟩
    · rintro ⟨z', later', c, hlast, hfirst, rfl⟩
      obtain ⟨rfl, rfl⟩ := hzone.unique hlast
      cases key₀ with
      | none =>
        obtain ⟨before, m, after, rfl, hcast, -⟩ := hfirst
        exact absurd hcast (hkey m (by simp) c)
      | some key =>
        obtain ⟨c', hfirst', rfl⟩ := hkey
        rw [hfirst.unique hfirst']

/-- **The obfuscation is what the messages say.** After any run a decoder takes the zone to be
obfuscated exactly if the last zone that was entered is one of the four that are. It has a byte
exactly if, on top of that, there was a cast after the zone was entered, and then it is the byte of
the first such cast. A message that carries neither a zone nor a cast, because it was dropped,
because its block could not be decoded, or because it is about other things, leaves both as they
are. -/
theorem obfuscation_of_run (r : Registry) (ms : List Message) :
    let s := (run r {} ms).1
    (s.obfuscated = true ↔ ∃ z later, LastZone r ms z later ∧
      z.territoryTypeId ∈ [946, 947, 948, 949]) ∧
    (∀ key, s.key = some key ↔ s.obfuscated = true ∧ ∃ z later c, LastZone r ms z later ∧
      FirstCast r later c ∧
      key.toNat = (c.actionId.toNat + (2 ^ 32 - c.actionIdName.toNat)) % 2 ^ 32 % 256) ∧
    (s.key.isSome = true → s.obfuscated = true) ∧
    ∀ m, (∀ body, Carries r m body → body.unveils = false) → ∀ s₁ : State,
      (s₁.step r m).1.obfuscated = s₁.obfuscated ∧ (s₁.step r m).1.key = s₁.key := by
  intro s
  have h : Remembers r ms s.veil := remembers_run r ms
  refine ⟨h.obfuscated_iff, ?_, ?_, ?_⟩
  · intro key
    rw [show s.key = s.veil.2 from rfl, h.key_iff key]
    simp only [← toNat_key, UInt8.toNat_inj]
    rfl
  · intro hkey
    obtain ⟨key, hkey⟩ := Option.isSome_iff_exists.mp hkey
    exact ((h.key_iff key).mp hkey).1
  · intro m hm s₁
    exact Prod.mk.inj (veil_step_other hm s₁)

/-- The second of two casts and a zone that is cut short tell nothing. -/
theorem obfuscation_of_two_casts :
    let block (opcode : Nat) (body : Bytes) : Message :=
      ⟨.recv, 1, List.replicate 18 0 ++ Bytes.leBytes 2 opcode ++ List.replicate 12 0 ++ body⟩
    let zone := block 0x0311 ([0, 0] ++ Bytes.leBytes 2 947 ++ List.replicate 100 0)
    let cast (name action : Nat) :=
      block 0x01b6 (Bytes.leBytes 4 name ++ Bytes.leBytes 4 action ++ List.replicate 24 0)
    let cutShort := block 0x0311 (List.replicate 103 0)
    let r : Registry := .ofOpcodes {}
    let s := (run r {} [zone, cast 0x1000 0x1012, cast 1 0]).1
    s.obfuscated = true ∧ s.key = some 0x12 ∧ (s.step r cutShort).1.key = some 0x12 := by
  intro block zone cast cutShort r s
  have hsilent : ∀ body, Carries r cutShort body → body.unveils = false := by
    intro body hbody
    obtain ⟨direction, b, hparse, rfl⟩ := parse_of_carries hbody
    have hraw : (parse r cutShort).map (·.2.body.unveils) = some false := by decide +kernel
    rw [hparse] at hraw
    exact Option.some.inj hraw
  have hkey : s.key = some 0x12 := by decide +kernel
  obtain ⟨-, hbyte, -, hother⟩ := obfuscation_of_run r [zone, cast 0x1000 0x1012, cast 1 0]
  refine ⟨((hbyte 0x12).mp hkey).1, hkey, ?_⟩
  rw [(hother cutShort hsilent s).2]
  exact hkey

end Wiretap.Block
