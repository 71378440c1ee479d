import Mathlib.Data.List.TakeWhile
import Wiretap.Block.Body
import Wiretap.Proofs.Text.Utf8

/-!
# The texts of the chat lines

A text stands in a field of its own and is ended by a zero or by the end of the field. It is read
back as it was written, whatever stands behind the zero, and no field is beyond reading: bytes that
are no text are read lossily.

Results:

* `fieldText_of_holds`, `holds_takeWhile`: the bytes that a field is read from.
* `chat_texts`: the name and the message of a chat line, and the message of one's own.
-/

namespace Wiretap.Block

open Text.Utf8 (encode Lossily)

variable {field p : Bytes} {s : String}

/-- A field holds these bytes: they end with the field, or a zero with anything behind it
ends them. -/
def Holds (field p : Bytes) : Prop := field = p ∨ ∃ behind, field = p ++ 0 :: behind

theorem takeWhile_of_holds (h : Holds field p) (hzero : 0 ∉ p) : field.takeWhile (· != 0) = p := by
  have hp : ∀ b ∈ p, (b != 0) = true := fun b hb => bne_iff_ne.mpr (fun heq => hzero (heq ▸ hb))
  rcases h with rfl | ⟨behind, rfl⟩
  · exact List.takeWhile_eq_self_iff.mpr hp
  · rw [List.takeWhile_append_of_pos hp, List.takeWhile_cons_of_neg (by decide), List.append_nil]

theorem holds_takeWhile (field : Bytes) : Holds field (field.takeWhile (· != 0)) := by
  induction field with
  | nil => exact .inl rfl
  | cons b field ih =>
    by_cases hb : b = 0
    · subst hb
      exact .inr ⟨field, rfl⟩
    · rw [List.takeWhile_cons_of_pos (p := (· != 0)) (bne_iff_ne.mpr hb)]
      rcases ih with hend | ⟨behind, hzero⟩
      · exact .inl (congrArg (b :: ·) hend)
      · exact .inr ⟨behind, congrArg (b :: ·) hzero⟩

theorem zero_notMem_takeWhile (field : Bytes) : 0 ∉ field.takeWhile (· != 0) :=
  fun h => bne_iff_ne.mp (List.mem_takeWhile_imp (p := (· != 0)) h) rfl

theorem fieldText_of_holds (h : Holds field p) (hzero : 0 ∉ p) :
    fieldText field = Text.Utf8.lossy p := by
  rw [fieldText, takeWhile_of_holds h hzero]

/-- The text that stands in a field: the lossy reading of the bytes before its first zero, in which
no null character occurs. -/
def TextOf (field : Bytes) (s : String) : Prop :=
  (∃ p, Holds field p ∧ 0 ∉ p ∧ Lossily p s.toList) ∧ '\x00' ∉ s.toList

theorem textOf_fieldText (field : Bytes) : TextOf field (fieldText field) := by
  have hread := Text.Utf8.lossily_lossy (field.takeWhile (· != 0))
  have hzero := zero_notMem_takeWhile field
  exact ⟨⟨_, holds_takeWhile field, hzero, hread⟩, hread.nul_notMem hzero⟩

/-- Of all bodies of a least size a decoder reads the text in one field. -/
structure ReadsText {α : Type} (decode : Bytes → Except DecodeError α) (size : Nat)
    (field : Bytes → Bytes) (text : α → String) : Prop where
  /-- A text without null characters that was written into the field is read back. -/
  written : ∀ data s, size ≤ data.length → '\x00' ∉ s.toList → Holds (field data) (encode s) →
    ∃ a, decode data = .ok a ∧ text a = s
  /-- Whatever stands in the field is read as its text. -/
  lossy : ∀ data, size ≤ data.length → ∃ a, decode data = .ok a ∧ TextOf (field data) (text a)
  /-- Nothing but the bytes before the first zero of the field matters. -/
  alike : ∀ data data' p a a', Holds (field data) p → Holds (field data') p → 0 ∉ p →
    decode data = .ok a → decode data' = .ok a' → text a = text a'

theorem readsText_sized {α : Type} {size : Nat} {read : Bytes → α} {part : Bytes → Bytes}
    {text : α → String} (h : ∀ data, text (read data) = fieldText (part data)) :
    ReadsText (sized size read) size part text where
  written data s hlength hnul hwritten := by
    have hzero := Text.Utf8.zero_notMem_encode hnul
    refine ⟨read data, sized_eq_ok_iff.mpr ⟨hlength, rfl⟩, ?_⟩
    rw [h, fieldText_of_holds hwritten hzero, Text.Utf8.lossy_encode]
  lossy data hlength := by
    refine ⟨read data, sized_eq_ok_iff.mpr ⟨hlength, rfl⟩, ?_⟩
    rw [h]
    exact textOf_fieldText (part data)
  alike data data' p a a' hp hp' hzero ha ha' := by
    obtain ⟨-, rfl⟩ := sized_eq_ok_iff.mp ha
    obtain ⟨-, rfl⟩ := sized_eq_ok_iff.mp ha'
    rw [h, h, fieldText_of_holds hp hzero, fieldText_of_holds hp' hzero]

/-- **The texts of chat lines are read back as they were written, and any other bytes lossily.** The
name of a line stands in the 32 bytes at offset 16, its message in all bytes from offset 48 on; the
message of a line of one's own in all bytes from offset 4 on. -/
theorem chat_texts :
    ReadsText ChatMessage.decode 48 (fun data => (data.drop 16).take 32) ChatMessage.senderName ∧
      ReadsText ChatMessage.decode 48 (fun data => data.drop 48) ChatMessage.message ∧
      ReadsText EgressChat.decode 4 (fun data => data.drop 4) EgressChat.message :=
  ⟨readsText_sized (fun _ => rfl), readsText_sized (fun _ => rfl), readsText_sized (fun _ => rfl)⟩

/-- A character that is cut short, a surrogate and an overlong form, with text between them. -/
example : fieldText [0x41, 0xE2, 0x82, 0x42, 0xED, 0xA0, 0xF0, 0x9F, 0x99, 0x82, 0xC0, 0, 0x43] =
    "A\ufffdB\ufffd\ufffd🙂\ufffd" := by cbv

end Wiretap.Block
