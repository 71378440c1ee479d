import Mathlib.Data.List.DropRight
import Wiretap.Proofs.Text.Base64
import Wiretap.Proofs.Text.Json
import Wiretap.Request

/-!
# Spellings of requests

A request may be written in many ways: its entries come in any order, with space wherever JSON has
it, and its texts in any spelling. An empty payload may be null, or left out.

Results:

* `entry?_of_value`: the value of a key is read as that of the field.
* `entries?_of_entries`: entries without repetition are read one after the other.
* `decode_of_object`: every spelling of a request is read as the message that it asks for.
-/

namespace Wiretap.Request

open Text (Stops digits)
open Text.Json (Space Spells EndsNumber dropSpace dropSpace_append dropSpace_of_space)

/-! ## What a request may look like -/

/-- A part of a request. -/
inductive Part where
  | op
  | channel
  | data
  deriving DecidableEq

def Part.key : Part → String
  | op => "op"
  | channel => "channel"
  | data => "data"

section Grammar

variable (op : UInt8) (channel : UInt32) (data : Bytes)

/-- The value of a part. -/
inductive Value : Part → List Char → Prop where
  | op : Value .op (digits op.toNat)
  | channel : Value .channel (digits channel.toNat)
  | data {w : List Char} (h : Spells w (Text.Base64.encode data)) : Value .data ('"' :: w ++ ['"'])
  | null (hempty : data = []) : Value .data ['n', 'u', 'l', 'l']

/-- An entry: a key, a colon and a value. -/
inductive Entry (p : Part) : List Char → Prop where
  | mk {s₁ k s₂ s₃ v s₄ : List Char} (h₁ : Space s₁) (hkey : Spells k p.key.toList) (h₂ : Space s₂)
      (h₃ : Space s₃) (hvalue : Value op channel data p v) (h₄ : Space s₄) :
      Entry p (s₁ ++ '"' :: (k ++ '"' :: (s₂ ++ ':' :: (s₃ ++ (v ++ s₄)))))

/-- Entries with a comma between them, and the parts that they give. -/
inductive Entries : List Part → List Char → Prop where
  | last {p : Part} {w : List Char} (h : Entry op channel data p w) : Entries [p] w
  | more {p : Part} {w : List Char} {ps : List Part} {ws : List Char}
      (h : Entry op channel data p w) (hs : Entries ps ws) : Entries (p :: ps) (w ++ ',' :: ws)

/-- An object with each of the parts, where an empty payload may be left out. -/
inductive Object : List Char → Prop where
  | mk {s₁ w s₂ : List Char} {ps : List Part} (h₁ : Space s₁)
      (hentries : Entries op channel data ps w) (h₂ : Space s₂) (hnodup : ps.Nodup)
      (hop : .op ∈ ps) (hchannel : .channel ∈ ps) (hdata : .data ∈ ps ∨ data = []) :
      Object (s₁ ++ '\x7b' :: (w ++ '\x7d' :: s₂))

end Grammar

variable {op : UInt8} {channel : UInt32} {data : Bytes} {p : Part} {ps : List Part} {f : Fields}
  {v w rest : List Char}

/-! ## Values -/

/-- What is read of a payload. -/
def Payload (data : Bytes) (d : Option Bytes) : Prop :=
  d = none ∧ data = [] ∨ d = some (Text.Json.toBytes (Text.Base64.encode data))

/-- The fields hold these parts of the request, and no others. -/
structure Holds (op : UInt8) (channel : UInt32) (data : Bytes) (ps : List Part) (f : Fields) :
    Prop where
  op_eq : f.op = if .op ∈ ps then some op else none
  channel_eq : f.channel = if .channel ∈ ps then some channel else none
  data_of_mem : .data ∈ ps → ∃ d, f.data = some d ∧ Payload data d
  data_of_not_mem : .data ∉ ps → f.data = none

theorem holds_nil : Holds op channel data [] {} where
  op_eq := rfl
  channel_eq := rfl
  data_of_mem h := nomatch h
  data_of_not_mem _ := rfl

theorem isSpace_of_isDigit {c : Char} (h : c.isDigit = true) : Text.Json.isSpace c = false := by
  cases hspace : Text.Json.isSpace c with
  | false => rfl
  | true =>
    simp only [Text.Json.isSpace, Bool.or_eq_true, decide_eq_true_eq] at hspace
    rcases hspace with ((rfl | rfl) | rfl) | rfl <;> exact absurd h (by decide)

theorem dropSpace_digits {s : List Char} (h : Space s) (n : Nat) (rest : List Char) :
    dropSpace (s ++ (digits n ++ rest)) = digits n ++ rest := by
  obtain ⟨c, cs, hdigits⟩ := List.exists_cons_of_ne_nil (Text.digits_ne_nil n)
  have hc : c.isDigit = true := Text.isDigit_of_mem_digits (n := n) (by simp [hdigits])
  rw [hdigits, List.cons_append]
  exact dropSpace_of_space h (isSpace_of_isDigit hc) _

theorem op?_digits {s : List Char} (hs : Space s) (hrest : EndsNumber rest) :
    op? (s ++ (digits op.toNat ++ rest)) = some (op, rest) := by
  have hle : op.toNat ≤ 255 := Nat.le_of_lt_succ op.toNat_lt
  rw [op?, dropSpace_digits hs, Text.Json.natural?_digits hle hrest]
  simp

theorem channel?_digits {s : List Char} (hs : Space s) (hrest : EndsNumber rest) :
    channel? (s ++ (digits channel.toNat ++ rest)) = some (channel, rest) := by
  have hle : channel.toNat ≤ 4294967295 := Nat.le_of_lt_succ channel.toNat_lt
  rw [channel?, dropSpace_digits hs, Text.Json.natural?_digits hle hrest]
  simp

theorem text?_of_spells {t : List Char} (h : Spells w t) (hascii : ∀ c ∈ t, c.toNat < 0x80)
    (rest : List Char) : text? (w ++ '"' :: rest) = some (Text.Json.toBytes t, rest) := by
  unfold text?
  rw [Text.Json.string?_of_spells h]
  simp [Text.Json.decode?_toBytes hascii]

theorem ascii_of_base64 (data : Bytes) : ∀ c ∈ Text.Base64.encode data, c.toNat < 0x80 := by
  intro c hc
  have hword := List.all_eq_true.mp (Text.Base64.all_isWord_encode data) c hc
  exact (Text.Base64.toNat_of_isWord hword).2.1

theorem data?_of_spells (h : Spells w (Text.Base64.encode data)) {s : List Char} (hs : Space s)
    (rest : List Char) : data? (s ++ '"' :: (w ++ '"' :: rest)) =
      some (some (Text.Json.toBytes (Text.Base64.encode data)), rest) := by
  rw [data?, dropSpace_of_space hs rfl]
  simp [text?_of_spells h (ascii_of_base64 data)]

theorem data?_null {s : List Char} (hs : Space s) (rest : List Char) :
    data? (s ++ 'n' :: 'u' :: 'l' :: 'l' :: rest) = some (none, rest) := by
  rw [data?, dropSpace_of_space hs rfl]
  rfl

/-! ## Entries -/

/-- The value of a key is read as that of its field. -/
theorem entry?_of_value (h : Value op channel data p v) (hf : Holds op channel data ps f)
    (hp : p ∉ ps) {s : List Char} (hs : Space s) (hrest : EndsNumber rest) :
    ∃ f', f.entry? (Text.Utf8.encode p.key) (s ++ (v ++ rest)) = some (f', rest) ∧
      Holds op channel data (p :: ps) f' := by
  unfold Fields.entry?
  simp only [Text.Utf8.encode_inj]
  cases h with
  | op =>
    have hnone : f.op = none := by rw [hf.op_eq, if_neg hp]
    refine ⟨{ f with op := some op }, by simp [Part.key, hnone, op?_digits hs hrest], ?_⟩
    exact ⟨by simp, by simp [hf.channel_eq], fun h => hf.data_of_mem (by simpa using h),
      fun h => hf.data_of_not_mem (by simpa using h)⟩
  | channel =>
    have hnone : f.channel = none := by rw [hf.channel_eq, if_neg hp]
    refine ⟨{ f with channel := some channel }, by simp [Part.key, hnone, channel?_digits hs hrest],
      ?_⟩
    exact ⟨by simp [hf.op_eq], by simp, fun h => hf.data_of_mem (by simpa using h),
      fun h => hf.data_of_not_mem (by simpa using h)⟩
  | data h =>
    have hnone : f.data = none := hf.data_of_not_mem hp
    refine ⟨{ f with data := some (some (Text.Json.toBytes (Text.Base64.encode data))) },
      by simp [Part.key, hnone, data?_of_spells h hs], ?_⟩
    exact ⟨by simp [hf.op_eq], by simp [hf.channel_eq], fun _ => ⟨_, rfl, .inr rfl⟩,
      fun h => absurd List.mem_cons_self h⟩
  | null hempty =>
    have hnone : f.data = none := hf.data_of_not_mem hp
    refine ⟨{ f with data := some none }, by simp [Part.key, hnone, data?_null hs], ?_⟩
    exact ⟨by simp [hf.op_eq], by simp [hf.channel_eq], fun _ => ⟨_, rfl, .inl ⟨rfl, hempty⟩⟩,
      fun h => absurd List.mem_cons_self h⟩

theorem ascii_of_key (p : Part) : ∀ c ∈ p.key.toList, c.toNat < 0x80 := by
  have hall : p.key.toList.all (·.toNat < 0x80) = true := by cases p <;> decide
  simpa using hall

theorem toBytes_key (p : Part) : Text.Json.toBytes p.key.toList = Text.Utf8.encode p.key := by
  rw [Text.Utf8.encode_eq_flatMap, Text.Utf8.flatMap_of_ascii (ascii_of_key p)]
  rfl

/-- A character that may follow an entry. -/
def EndsEntry (c : Char) : Prop := c = ',' ∨ c = '\x7d'

theorem endsNumber_of_space {s : List Char} (hs : Space s) {c : Char} (hc : EndsEntry c)
    (cs : List Char) : EndsNumber (s ++ c :: cs) := by
  cases s with
  | nil => exact Text.stops_cons (by rcases hc with rfl | rfl <;> rfl) cs
  | cons d s =>
    have hd : Text.Json.isSpace d = true := hs d List.mem_cons_self
    apply Text.stops_cons
    simp only [Text.Json.isSpace, Bool.or_eq_true, decide_eq_true_eq] at hd
    rcases hd with ((rfl | rfl) | rfl) | rfl <;> rfl

/-- What the reader of entries does with the one that comes first. -/
theorem entries?_of_entry (h : Entry op channel data p w) (hf : Holds op channel data ps f)
    (hp : p ∉ ps) {c : Char} (hc : EndsEntry c) (fuel : Nat) (cs : List Char) :
    ∃ f', Holds op channel data (p :: ps) f' ∧ entries? (fuel + 1) f (w ++ c :: cs) =
      if c = ',' then entries? fuel f' cs else some (f', cs) := by
  cases h with
  | @mk s₁ k s₂ s₃ v s₄ h₁ hkey h₂ h₃ hvalue h₄ =>
    obtain ⟨f', hentry, hf'⟩ := entry?_of_value hvalue hf hp h₃ (endsNumber_of_space h₄ hc cs)
    refine ⟨f', hf', ?_⟩
    have hspace : Text.Json.isSpace c = false := by rcases hc with rfl | rfl <;> rfl
    have htext := text?_of_spells hkey (ascii_of_key p)
      (s₂ ++ ':' :: (s₃ ++ (v ++ (s₄ ++ c :: cs))))
    rw [toBytes_key] at htext
    simp only [List.append_assoc, List.cons_append]
    rw [entries?, dropSpace_of_space h₁ rfl]
    simp only [htext, Option.bind_eq_bind, Option.bind_some]
    rw [dropSpace_of_space h₂ rfl]
    simp only [hentry, Option.bind_some, dropSpace_of_space h₄ hspace]
    rcases hc with rfl | rfl <;> rfl

/-- Entries without repetition are read one after the other. -/
theorem entries?_of_entries (h : Entries op channel data ps w) {qs : List Part}
    (hf : Holds op channel data qs f) (hnodup : (ps.reverse ++ qs).Nodup) {fuel : Nat}
    (hfuel : ps.length ≤ fuel) (rest : List Char) :
    ∃ f', entries? fuel f (w ++ '\x7d' :: rest) = some (f', rest) ∧
      Holds op channel data (ps.reverse ++ qs) f' := by
  induction h generalizing qs f fuel with
  | @last p w h =>
    obtain ⟨fuel, rfl⟩ : ∃ n, fuel = n + 1 := ⟨fuel - 1, (Nat.sub_add_cancel hfuel).symm⟩
    have hp : p ∉ qs := (List.nodup_cons.mp hnodup).1
    obtain ⟨f', hf', hread⟩ := entries?_of_entry h hf hp (.inr rfl) fuel rest
    exact ⟨f', by simpa using hread, hf'⟩
  | @more p w ps ws h _ ih =>
    obtain ⟨fuel, rfl⟩ : ∃ n, fuel = n + 1 := ⟨fuel - 1, by simp at hfuel; omega⟩
    simp only [List.reverse_cons, List.append_assoc, List.singleton_append] at hnodup ⊢
    have hp : p ∉ qs := (List.nodup_cons.mp (List.nodup_append.mp hnodup).2.1).1
    obtain ⟨f', hf', hread⟩ := entries?_of_entry h hf hp (.inl rfl) fuel (ws ++ '\x7d' :: rest)
    obtain ⟨f'', hread', hf''⟩ := ih hf' hnodup (by simpa using hfuel)
    refine ⟨f'', ?_, hf''⟩
    rw [List.cons_append, hread, if_pos rfl, hread']

/-! ## Whole requests -/

theorem length_le_of_entries (h : Entries op channel data ps w) : ps.length ≤ w.length := by
  induction h with
  | last h =>
    cases h with
    | mk =>
      simp only [List.length_append, List.length_cons, List.length_nil]
      omega
  | more h _ ih =>
    simp only [List.length_append, List.length_cons]
    omega

/-- Entries begin with the quote of the first key, behind space. -/
theorem dropSpace_entries (h : Entries op channel data ps w) (rest : List Char) :
    ∃ cs, dropSpace (w ++ rest) = '"' :: cs ∧ ps.length ≤ cs.length := by
  cases h with
  | last h =>
    cases h with
    | mk h₁ =>
      simp only [List.append_assoc, List.cons_append]
      refine ⟨_, dropSpace_of_space h₁ rfl _, ?_⟩
      simp only [List.length_append, List.length_cons, List.length_nil]
      omega
  | more h hs =>
    have hlength := length_le_of_entries hs
    cases h with
    | mk h₁ =>
      simp only [List.append_assoc, List.cons_append]
      refine ⟨_, dropSpace_of_space h₁ rfl _, ?_⟩
      simp only [List.length_append, List.length_cons]
      omega

theorem entries?_dropSpace (fuel : Nat) (f : Fields) (cs : List Char) :
    entries? fuel f (dropSpace cs) = entries? fuel f cs := by
  cases fuel with
  | zero => rfl
  | succ fuel => rw [entries?, entries?, dropSpace, dropSpace, List.dropWhile_idempotent]

theorem request?_of_holds (h : Holds op channel data ps f) (hop : .op ∈ ps)
    (hchannel : .channel ∈ ps) (hdata : .data ∈ ps ∨ data = []) :
    ∃ d, f.request? = some ⟨op, channel, d⟩ ∧ Payload data d := by
  have hop : f.op = some op := by rw [h.op_eq, if_pos hop]
  have hchannel : f.channel = some channel := by rw [h.channel_eq, if_pos hchannel]
  refine ⟨f.data.join, by rw [Fields.request?, hop, hchannel], ?_⟩
  by_cases hmem : .data ∈ ps
  · obtain ⟨d, hd, hpayload⟩ := h.data_of_mem hmem
    rw [hd]
    exact hpayload
  · rw [h.data_of_not_mem hmem]
    exact .inl ⟨rfl, hdata.resolve_left hmem⟩

theorem parse?_of_object {bytes : Bytes} (h : Object op channel data (Text.Json.ofBytes bytes)) :
    ∃ d, parse? bytes = some ⟨op, channel, d⟩ ∧ Payload data d := by
  unfold parse?
  generalize Text.Json.ofBytes bytes = text at h
  cases h with
  | @mk s₁ w s₂ ps h₁ hentries h₂ hnodup hop hchannel hdata =>
    obtain ⟨cs, hquote, hlength⟩ := dropSpace_entries hentries ('\x7d' :: s₂)
    have hps : (ps.reverse ++ []).Nodup := by
      rw [List.append_nil]
      exact (List.reverse_perm ps).nodup_iff.mpr hnodup
    have hfuel : ps.length ≤ cs.length + 1 + 1 := by omega
    obtain ⟨f, hread, hf⟩ := entries?_of_entries hentries holds_nil hps hfuel s₂
    rw [← entries?_dropSpace, hquote] at hread
    obtain ⟨d, hrequest, hpayload⟩ := request?_of_holds hf (by simpa using hop)
      (by simpa using hchannel) (by simpa using hdata)
    refine ⟨d, ?_, hpayload⟩
    have hend : dropSpace s₂ = [] := by
      simpa [dropSpace] using dropSpace_append h₂ []
    simp only [dropSpace_of_space h₁ (show Text.Json.isSpace '\x7b' = false from rfl)]
    rw [hquote]
    simp [hread, hrequest, hend]

/-- **Every spelling of a request** is read as the message that it asks for. -/
theorem decode_of_object {bytes : Bytes} (h : Object op channel data (Text.Json.ofBytes bytes)) :
    decode bytes = .ok ⟨.ofByte op, channel, data⟩ := by
  obtain ⟨d, hparse, ⟨rfl, rfl⟩ | rfl⟩ := parse?_of_object h
  · rw [decode, hparse]
    exact message_data rfl
  · rw [decode, hparse]
    simp [message, Text.Json.ofBytes_toBytes (ascii_of_base64 data), Text.Base64.decode?_encode]

end Wiretap.Request
