import Wiretap.Block.Body
import Wiretap.Proofs.Words

/-!
# The layouts of the bodies

Where the fields of fixed width stand in each of the eight structured bodies, and that a body is
read from exactly these places. The texts of a chat line are no part of this; what a decoder makes
of them is left to it.

Results:

* `Tabulates.sound`, `Tabulates.soundWhole`: a reader that goes by a table of words is a decoder for
  its layout.
* `layouts_sound`: the eight decoders are those of their layouts.
-/

namespace Wiretap.Block

open Bytes (Word word8 word16 word32 word64)

/-! ## Tables -/

def Single.word (offset : Nat) (x : Single) : Word := word32 offset x.bits

def PackedPosition.words (offset : Nat) (p : PackedPosition) : List Word :=
  [word16 offset p.x, word16 (offset + 2) p.y, word16 (offset + 4) p.z]

def InitZone.words (z : InitZone) : List Word :=
  [word16 0 z.serverId, word16 2 z.territoryTypeId, word8 16 z.weatherId, word8 17 z.bitmask,
    z.x.word 68, z.y.word 72, z.z.word 76]

def Casting.words (c : Casting) : List Word :=
  [word16 0 c.actionIdName, word32 4 c.actionId, c.castTime.word 8, word32 12 c.targetId,
    word16 16 c.direction, word32 20 c.unkId1] ++ c.position.words 24

def Control.words (c : Control) : List Word :=
  [word16 0 c.kind, word32 4 c.p1, word32 8 c.p2, word32 12 c.p3, word32 16 c.p4]

def Movement.words (m : Movement) : List Word :=
  [word8 0 m.headRotation, word8 1 m.direction, word8 2 m.animationType, word8 3 m.animationState,
    word8 4 m.animationSpeed, word8 5 m.unknownRotation] ++ m.position.words 6 ++ [word32 12 m.u3]

def EgressMovement.words (m : EgressMovement) : List Word :=
  [m.direction.word 0, word32 4 m.u1, m.x.word 8, m.y.word 12, m.z.word 16, word32 20 m.u2]

def EgressInstanceMovement.words (m : EgressInstanceMovement) : List Word :=
  [m.direction.word 0, m.directionBeforeSlip.word 4, word32 8 m.u1, word32 12 m.u2, m.x.word 16,
    m.y.word 20, m.z.word 24, word32 28 m.u3]

def ChatMessage.words (c : ChatMessage) : List Word :=
  [word64 0 c.contentId, word32 8 c.entityId, word16 12 c.worldId, word8 14 c.chatType]

def EgressChat.words (c : EgressChat) : List Word := [word16 0 c.chatType]

/-- The chat line with the texts of these bytes: the name in 32 bytes, the message in all others. -/
def ChatMessage.withTexts (c : ChatMessage) (data : Bytes) : ChatMessage :=
  { c with senderName := fieldText ((data.drop 16).take 32), message := fieldText (data.drop 48) }

def EgressChat.withTexts (c : EgressChat) (data : Bytes) : EgressChat :=
  { c with message := fieldText (data.drop 4) }

/-! ## Decoders of a layout -/

section

variable {α : Type} {size : Nat} {read : Bytes → α} {decode : Bytes → Except DecodeError α}
  {words : α → List Word} {complete : α → Bytes → α}

/-- A decoder for a layout of a least size, with a table of words and with whatever is not in the
table completed from the bytes. -/
structure Sound (size : Nat) (words : α → List Word) (complete : α → Bytes → α)
    (decode : Bytes → Except DecodeError α) : Prop where
  /-- Bytes below the least size are refused, with both lengths. -/
  refuses : ∀ data, data.length < size → decode data = .error (.tooShort size data.length)
  /-- All other bytes are read, and each word of what is read stands in them in full length. -/
  reads : ∀ data, size ≤ data.length → ∃ a, decode data = .ok a ∧ ∀ w ∈ words a, w.In data
  /-- Words that were written over any bytes are read back. -/
  readsBack : ∀ a data, size ≤ data.length →
    decode (Bytes.write (words a) data) = .ok (complete a data)

/-- A decoder for a layout that has nothing but its table of words. -/
structure SoundWhole (size : Nat) (words : α → List Word) (decode : Bytes → Except DecodeError α) :
    Prop extends Sound size words (fun a _ => a) decode where
  /-- Bytes past the least size are of no account. -/
  past : ∀ data, size ≤ data.length → decode data = decode (data.take size)

/-- What a reader has to do with a table of words: the words lie apart and within the least size,
are there in all bytes of that size, are all that the reader goes by, and leave alone what is
completed from the bytes. -/
structure Tabulates (size : Nat) (words : α → List Word) (complete : α → Bytes → α)
    (read : Bytes → α) : Prop where
  fits : ∀ a, ∀ w ∈ words a, w.offset + w.width ≤ size
  apart : ∀ a, (words a).Pairwise Word.Apart
  stands : ∀ data, size ≤ data.length → ∀ w ∈ words (read data), w.In data
  determines : ∀ a data, (∀ w ∈ words a, w.In data) → read data = complete a data
  spares : ∀ a data, size ≤ data.length → complete a (Bytes.write (words a) data) = complete a data

theorem Tabulates.sound (h : Tabulates size words complete read) :
    Sound size words complete (sized size read) where
  refuses data hshort := sized_eq_error_iff.mpr ⟨hshort, rfl⟩
  reads data hlength := ⟨read data, sized_eq_ok_iff.mpr ⟨hlength, rfl⟩, h.stands data hlength⟩
  readsBack a data hlength := by
    have hfits : ∀ w ∈ words a, w.offset + w.width ≤ data.length :=
      fun w hw => Nat.le_trans (h.fits a w hw) hlength
    have hread := h.determines a _ (Bytes.in_write hfits (h.apart a))
    rw [sized_eq_ok_iff, Bytes.length_write hfits, hread, h.spares a data hlength]
    exact ⟨hlength, rfl⟩

theorem Tabulates.soundWhole (h : Tabulates size words (fun a _ => a) read) :
    SoundWhole size words (sized size read) where
  toSound := h.sound
  past data hlength := by
    -- what is read from the bytes still stands in their first part, and so is read from it
    have hstands : ∀ w ∈ words (read data), w.In (data.take size) :=
      fun w hw => (h.stands data hlength w hw).take (h.fits _ w hw)
    have hsame : read (data.take size) = read data := h.determines _ _ hstands
    rw [sized_eq_ok_iff.mpr ⟨hlength, rfl⟩, eq_comm, sized_eq_ok_iff, List.length_take]
    exact ⟨by omega, hsame.symm⟩

end

/-! ## The eight bodies -/

theorem Single.at_eq {offset : Nat} {x : Single} {data : Bytes} (h : (x.word offset).In data) :
    Single.at offset data = x := by
  rw [Single.at, Word.In.u32At_eq h]

theorem PackedPosition.at_eq {offset : Nat} {p : PackedPosition} {data : Bytes}
    (h : ∀ w ∈ p.words offset, w.In data) : PackedPosition.at offset data = p := by
  simp only [words, List.forall_mem_cons] at h
  obtain ⟨hx, hy, hz, -⟩ := h
  rw [PackedPosition.at, hx.u16At_eq, hy.u16At_eq, hz.u16At_eq]

theorem InitZone.tabulates : Tabulates size words (fun a _ => a) read where
  fits a := by simp [words, size, Single.word, word8, word16, word32]
  apart a := by simp [words, Word.Apart, Single.word, word8, word16, word32]
  stands data h := by
    unfold size at h
    simp (disch := omega) [words, read, Single.word, Single.at, Bytes.in_u8At, Bytes.in_u16At,
      Bytes.in_u32At]
  determines a data h := by
    simp only [words, List.forall_mem_cons] at h
    obtain ⟨hserver, hterritory, hweather, hbitmask, hx, hy, hz, -⟩ := h
    rw [read, hserver.u16At_eq, hterritory.u16At_eq, hweather.u8At_eq, hbitmask.u8At_eq,
      Single.at_eq hx, Single.at_eq hy, Single.at_eq hz]
  spares _ _ _ := rfl

theorem Casting.tabulates : Tabulates size words (fun a _ => a) read where
  fits a := by simp [words, size, PackedPosition.words, Single.word, word16, word32]
  apart a := by simp [words, Word.Apart, PackedPosition.words, Single.word, word16, word32]
  stands data h := by
    unfold size at h
    simp (disch := omega) [words, read, PackedPosition.words, PackedPosition.at, Single.word,
      Single.at, Bytes.in_u16At, Bytes.in_u32At]
  determines a data h := by
    simp only [words, List.forall_mem_append, List.forall_mem_cons] at h
    obtain ⟨⟨hname, haction, htime, htarget, hdirection, hunk, -⟩, hposition⟩ := h
    rw [read, hname.u16At_eq, haction.u32At_eq, Single.at_eq htime, htarget.u32At_eq,
      hdirection.u16At_eq, hunk.u32At_eq, PackedPosition.at_eq hposition]
  spares _ _ _ := rfl

theorem Control.tabulates : Tabulates size words (fun a _ => a) read where
  fits a := by simp [words, size, word16, word32]
  apart a := by simp [words, Word.Apart, word16, word32]
  stands data h := by
    unfold size at h
    simp (disch := omega) [words, read, Bytes.in_u16At, Bytes.in_u32At]
  determines a data h := by
    simp only [words, List.forall_mem_cons] at h
    obtain ⟨hkind, h1, h2, h3, h4, -⟩ := h
    rw [read, hkind.u16At_eq, h1.u32At_eq, h2.u32At_eq, h3.u32At_eq, h4.u32At_eq]
  spares _ _ _ := rfl

theorem Movement.tabulates : Tabulates size words (fun a _ => a) read where
  fits a := by simp [words, size, PackedPosition.words, word8, word16, word32]
  apart a := by simp [words, Word.Apart, PackedPosition.words, word8, word16, word32]
  stands data h := by
    unfold size at h
    simp (disch := omega) [words, read, PackedPosition.words, PackedPosition.at, Bytes.in_u8At,
      Bytes.in_u16At, Bytes.in_u32At]
  determines a data h := by
    simp only [words, List.forall_mem_append, List.forall_mem_cons] at h
    obtain ⟨⟨⟨hhead, hdirection, htype, hstate, hspeed, hunknown, -⟩, hposition⟩, hu3, -⟩ := h
    rw [read, hhead.u8At_eq, hdirection.u8At_eq, htype.u8At_eq, hstate.u8At_eq, hspeed.u8At_eq,
      hunknown.u8At_eq, PackedPosition.at_eq hposition, hu3.u32At_eq]
  spares _ _ _ := rfl

theorem EgressMovement.tabulates : Tabulates size words (fun a _ => a) read where
  fits a := by simp [words, size, Single.word, word32]
  apart a := by simp [words, Word.Apart, Single.word, word32]
  stands data h := by
    unfold size at h
    simp (disch := omega) [words, read, Single.word, Single.at, Bytes.in_u32At]
  determines a data h := by
    simp only [words, List.forall_mem_cons] at h
    obtain ⟨hdirection, hu1, hx, hy, hz, hu2, -⟩ := h
    rw [read, Single.at_eq hdirection, hu1.u32At_eq, Single.at_eq hx, Single.at_eq hy,
      Single.at_eq hz, hu2.u32At_eq]
  spares _ _ _ := rfl

theorem EgressInstanceMovement.tabulates : Tabulates size words (fun a _ => a) read where
  fits a := by simp [words, size, Single.word, word32]
  apart a := by simp [words, Word.Apart, Single.word, word32]
  stands data h := by
    unfold size at h
    simp (disch := omega) [words, read, Single.word, Single.at, Bytes.in_u32At]
  determines a data h := by
    simp only [words, List.forall_mem_cons] at h
    obtain ⟨hdirection, hslip, hu1, hu2, hx, hy, hz, hu3, -⟩ := h
    rw [read, Single.at_eq hdirection, Single.at_eq hslip, hu1.u32At_eq, hu2.u32At_eq,
      Single.at_eq hx, Single.at_eq hy, Single.at_eq hz, hu3.u32At_eq]
  spares _ _ _ := rfl

theorem ChatMessage.tabulates : Tabulates size words withTexts read where
  fits a := by simp [words, size, word8, word16, word32, word64]
  apart a := by simp [words, Word.Apart, word8, word16, word32, word64]
  stands data h := by
    unfold size at h
    simp (disch := omega) [words, read, Bytes.in_u8At, Bytes.in_u16At, Bytes.in_u32At,
      Bytes.in_u64At]
  determines a data h := by
    simp only [words, List.forall_mem_cons] at h
    obtain ⟨hcontent, hentity, hworld, htype, -⟩ := h
    rw [read, hcontent.u64At_eq, hentity.u32At_eq, hworld.u16At_eq, htype.u8At_eq]
    rfl
  spares a data h := by
    unfold size at h
    have hwords : ∀ w ∈ a.words, w.offset + w.width ≤ 16 := by
      simp [words, word8, word16, word32, word64]
    have hbehind : ∀ w ∈ a.words, w.offset + w.width ≤ 48 :=
      fun w hw => Nat.le_trans (hwords w hw) (by decide)
    have hname := Bytes.drop_write hwords (Nat.le_trans (by decide) h)
    have hmessage := Bytes.drop_write hbehind h
    rw [withTexts, withTexts, hname, hmessage]

theorem EgressChat.tabulates : Tabulates size words withTexts read where
  fits a := by simp [words, size, word16]
  apart a := by simp [words]
  stands data h := by
    unfold size at h
    simp (disch := omega) [words, read, Bytes.in_u16At]
  determines a data h := by
    simp only [words, List.forall_mem_cons] at h
    obtain ⟨htype, -⟩ := h
    rw [read, htype.u16At_eq]
    rfl
  spares a data h := by
    have hwords : ∀ w ∈ a.words, w.offset + w.width ≤ 4 := by simp [words, word16]
    have hmessage := Bytes.drop_write hwords h
    rw [withTexts, withTexts, hmessage]

/-- **The layouts of the bodies.** Each of the eight decoders refuses exactly the bytes that are
shorter than its layout, saying both lengths. From all others it reads fields that stand in the
bytes in full, each at its own place. Whatever the fields are, and whatever bytes they are written
over, they are read back as they were written: numbers in single precision with all their bits.
Bytes between the fields are of no account, and bytes behind the layout are not either, but for the
texts of the chat lines. -/
theorem layouts_sound :
    SoundWhole 104 InitZone.words InitZone.decode ∧
    SoundWhole 32 Casting.words Casting.decode ∧
    SoundWhole 24 Control.words Control.decode ∧
    SoundWhole 16 Movement.words Movement.decode ∧
    SoundWhole 24 EgressMovement.words EgressMovement.decode ∧
    SoundWhole 32 EgressInstanceMovement.words EgressInstanceMovement.decode ∧
    Sound 48 ChatMessage.words ChatMessage.withTexts ChatMessage.decode ∧
    Sound 4 EgressChat.words EgressChat.withTexts EgressChat.decode :=
  ⟨InitZone.tabulates.soundWhole, Casting.tabulates.soundWhole, Control.tabulates.soundWhole,
    Movement.tabulates.soundWhole, EgressMovement.tabulates.soundWhole,
    EgressInstanceMovement.tabulates.soundWhole, ChatMessage.tabulates.sound,
    EgressChat.tabulates.sound⟩

end Wiretap.Block
