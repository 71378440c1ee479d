import Wiretap.Proofs.Config.Loaded
import Wiretap.Proofs.Config.Written
import Wiretap.Proofs.Text.Utf8

/-!
# Saved configurations

A configuration that is saved and loaded again is the same, but for the counts that are never zero.

Results:

* `writable_iff`: a configuration can be saved if the format holds each of its integers.
* `ofDocument?_documentOf`: the document of a configuration is read as the configuration.
* `load_saved`: what the saving of a configuration and the loading of its file come to.
-/

namespace Wiretap.Config

open Toml (Node Entries)

/-- The integers of a configuration. -/
def integers (c : Config) : List Nat :=
  [c.hook.dialRetryInterval.toNat, c.hook.dialAttempts.toNat, c.hook.dialTimeout.toNat,
    c.hook.pingInterval.toNat, c.hook.handshakeDelay.toNat, c.hook.scanInterval.toNat,
    c.hook.eventBuffer.toNat, c.hook.blockBuffer.toNat, c.supervisor.failureThreshold.toNat,
    c.supervisor.failureBackoff.toNat, c.opcodes.initZone.toNat, c.opcodes.casting.toNat,
    c.opcodes.control.toNat, c.opcodes.movement.toNat, c.opcodes.egressMovement.toNat,
    c.opcodes.egressInstanceMovement.toNat, c.opcodes.chat.toNat, c.opcodes.egressChat.toNat]

theorem writable_iff (c : Config) : c.writable = true ↔ ∀ n ∈ c.integers, n ≤ maxInteger := by
  cases hcommand : c.platform.injectorCommand <;>
    simp [writable, sections, integers, Scalar.fits, hcommand, and_assoc]

/-! ## Fields -/

theorem word?_natCast {bits n : Nat} (h : n < Nat.pow 2 bits) :
    word? bits (.integer n) = some n := by
  rw [word?, if_pos ⟨Int.natCast_nonneg n, Int.ofNat_lt.mpr h⟩]
  rfl

@[simp] theorem word16?_toNat (a : UInt16) : word16? (.integer a.toNat) = some a := by
  rw [word16?, word?_natCast a.toNat_lt, Option.map_some, UInt16.ofNat_toNat]

@[simp] theorem word32?_toNat (a : UInt32) : word32? (.integer a.toNat) = some a := by
  rw [word32?, word?_natCast a.toNat_lt, Option.map_some, UInt32.ofNat_toNat]

@[simp] theorem word64?_toNat (a : UInt64) : word64? (.integer a.toNat) = some a := by
  rw [word64?, word?_natCast a.toNat_lt, Option.map_some, UInt64.ofNat_toNat]

/-- **The document of a configuration** is read as the configuration. -/
theorem ofDocument?_documentOf (tempDir : String) (c : Config) :
    ofDocument? tempDir (documentOf c.sections) = some c.raised := by
  have hhook : sectionOr? hookFields {} ((documentOf c.sections).lookup "hook") = some c.hook := by
    simp [sectionOr?, section?, hookFields, documentOf, sections, nodes, Scalar.node,
      List.lookup_cons, text?, bool?]
  have hplatform : sectionOr? platformFields (defaults tempDir).platform
      ((documentOf c.sections).lookup "platform") = some c.platform := by
    obtain ⟨hook, ⟨socketDir, injectorCommand⟩, supervisor, opcodes⟩ := c
    cases injectorCommand <;>
      simp [sectionOr?, section?, platformFields, defaults, documentOf, sections, nodes,
        Scalar.node, List.lookup_cons, text?]
  have hsupervisor : sectionOr? supervisorFields {}
      ((documentOf c.sections).lookup "supervisor") = some c.supervisor := by
    simp [sectionOr?, section?, supervisorFields, documentOf, sections, nodes, Scalar.node,
      List.lookup_cons]
  have hopcodes : sectionOr? opcodeFields {} ((documentOf c.sections).lookup "opcodes") =
      some c.opcodes := by
    simp [sectionOr?, section?, opcodeFields, documentOf, sections, nodes, Scalar.node,
      List.lookup_cons]
  rw [ofDocument?_eq, hhook, hplatform, hsupervisor, hopcodes]
  rfl

/-! ## Files -/

/-- A section has its known keys, or those of them that have a value. -/
theorem keys_of_mem_sections {c : Config} {s : String × List (String × Scalar)}
    (h : s ∈ c.sections) : ∃ keys ∈ knownKeys.map Prod.snd, (s.2.map Prod.fst).Sublist keys := by
  simp only [sections, List.mem_cons, List.not_mem_nil, or_false] at h
  rcases h with rfl | rfl | rfl | rfl
  · exact ⟨hookFields.map Prod.fst, .head _, .refl _⟩
  · refine ⟨platformFields.map Prod.fst, .tail _ (.head _), ?_⟩
    cases c.platform.injectorCommand with
    | none => exact List.Sublist.cons_cons _ (List.nil_sublist _)
    | some command => exact .refl _
  · exact ⟨supervisorFields.map Prod.fst, .tail _ (.tail _ (.head _)), .refl _⟩
  · exact ⟨opcodeFields.map Prod.fst, .tail _ (.tail _ (.tail _ (.head _))), .refl _⟩

theorem knownKeys_bare :
    ∀ keys ∈ knownKeys.map Prod.snd, keys.Nodup ∧ ∀ key ∈ keys, Toml.isBare key = true := by
  decide

theorem writable_of_mem_sections {c : Config} (h : c.writable = true)
    {s : String × List (String × Scalar)} (hs : s ∈ c.sections) : Writable s.2 := by
  obtain ⟨keys, hkeys, hsub⟩ := keys_of_mem_sections hs
  obtain ⟨hnodup, hbare⟩ := knownKeys_bare keys hkeys
  exact {
    keys := hsub.nodup hnodup
    bare := fun e he => hbare e.1 (hsub.mem (List.mem_map_of_mem he))
    fits := List.all_eq_true.mp (List.all_eq_true.mp h s hs) }

theorem textOf_sections (c : Config) : textOf c.sections = c.written := rfl

/-- **What is written** is loaded as the configuration. -/
theorem load_written {c : Config} (h : c.writable = true) (tempDir : String) :
    load (some (Text.Utf8.encode (String.ofList c.written))) tempDir = .ok c.raised := by
  have hnames : c.sections.map Prod.fst = ["hook", "platform", "supervisor", "opcodes"] := rfl
  have hbare : ∀ s ∈ c.sections, Toml.isBare s.1 = true := by
    have hall : ∀ name ∈ c.sections.map Prod.fst, Toml.isBare name = true := by
      rw [hnames]
      decide
    exact fun s hs => hall s.1 (List.mem_map_of_mem hs)
  have hparse : Toml.parse? c.written = some (documentOf c.sections) := by
    rw [← textOf_sections]
    exact parse?_textOf (by rw [hnames]; decide) hbare fun _ => writable_of_mem_sections h
  have hdoc : document? (Text.Utf8.encode (String.ofList c.written)) =
      some (documentOf c.sections) := by
    rw [document?, Text.Utf8.decode?_encode, String.toList_ofList, Option.bind_some, hparse]
  rw [load_of_document? hdoc, ofDocument?_documentOf]

/-! ## Counts -/

theorem attempts_eq_max (a : UInt32) : attempts a = max a 1 := by
  rw [← UInt32.toNat_inj, toNat_attempts]
  show _ = (if a ≤ 1 then 1 else a).toNat
  split
  next h => exact Nat.max_eq_right (UInt32.le_iff_toNat_le.mp h)
  next h => exact Nat.max_eq_left (Nat.le_of_not_le fun hle => h (UInt32.le_iff_toNat_le.mpr hle))

theorem capacity_eq_max (a : UInt64) : capacity a = max a 1 := by
  rw [← UInt64.toNat_inj, toNat_capacity]
  show _ = (if a ≤ 1 then 1 else a).toNat
  split
  next h => exact Nat.max_eq_right (UInt64.le_iff_toNat_le.mp h)
  next h => exact Nat.max_eq_left (Nat.le_of_not_le fun hle => h (UInt64.le_iff_toNat_le.mpr hle))

/-- **Saving and loading.** The saving of a configuration fails, as one that cannot be written,
exactly when one of its integers is above the largest one of the format. Else the file that it
writes is loaded, in any environment and whatever the texts of the configuration hold, and comes to
the same configuration with the counts that are never zero raised to one. The durations are among
the integers: they are below `2 ^ 64` milliseconds. -/
theorem load_saved (c : Config) (tempDir : String) :
    (∀ e, c.save = .error e ↔ e = .unwritable ∧ ∃ n ∈ c.integers, Nat.pow 2 63 - 1 < n) ∧
      ((∃ n ∈ c.integers, Nat.pow 2 63 - 1 < n) ∨
        ∃ text, c.save = .ok text ∧ load (some (Text.Utf8.encode (String.ofList text))) tempDir =
          .ok { c with hook := { c.hook with
            dialAttempts := max c.hook.dialAttempts 1
            eventBuffer := max c.hook.eventBuffer 1
            blockBuffer := max c.hook.blockBuffer 1 } }) := by
  have hlarge : c.writable = false ↔ ∃ n ∈ c.integers, maxInteger < n := by
    rw [← Bool.not_eq_true, writable_iff]
    simp
  refine ⟨fun e => ?_, ?_⟩
  · rw [save_eq_error_iff, hlarge, and_comm]
    rfl
  · cases hwritable : c.writable with
    | false => exact .inl (hlarge.mp hwritable)
    | true =>
      refine .inr ⟨c.written, by rw [save, if_pos hwritable], ?_⟩
      rw [load_written hwritable, raised, attempts_eq_max, capacity_eq_max, capacity_eq_max]

end Wiretap.Config
