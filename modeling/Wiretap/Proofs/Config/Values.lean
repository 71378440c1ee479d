import Wiretap.Config.Save

/-!
# The values of a configuration

A configuration has a value under each key of each of its sections, or none where it may be absent.
A field of a section reads a node and puts its value under its own key.

Results:

* `hookFields_lawful`, `platformFields_lawful`, `supervisorFields_lawful`, `opcodeFields_lawful`:
  the fields of every section write their own key and no other.
* `section?_eq_readFields`: a section is read by finding a node for each of its fields, however it
  is written.
* `isSome_readFields_iff`: the fields are read exactly when each of them accepts its node.
* `lookup_of_readFields`: what a section holds after its fields have been read.
-/

namespace Wiretap.Config

open Toml (Node Entries)

deriving instance DecidableEq for Scalar

/-- The value that a node is read as. -/
def Scalar.ofNode? : Node → Option Scalar
  | .string s => some (.text s)
  | .integer n => if 0 ≤ n then some (.number n.toNat) else none
  | .boolean b => some (.truth b)
  | _ => none

/-- The keys of a section that have a value, with their values. -/
def entries (c : Config) (section_ : String) : List (String × Scalar) :=
  (c.sections.lookup section_).getD []

/-- The value under a key of a section. -/
def value? (c : Config) (section_ key : String) : Option Scalar := (c.entries section_).lookup key

/-- Puts a value in the place of the one under a key. -/
def replace (key : String) (v : Scalar) (es : List (String × Scalar)) : List (String × Scalar) :=
  es.map fun e => if e.1 = key then (e.1, v) else e

theorem lookup_replace_self {key : String} {es : List (String × Scalar)}
    (h : key ∈ es.map Prod.fst) (v : Scalar) : (replace key v es).lookup key = some v := by
  induction es with
  | nil => cases h
  | cons e es ih =>
    obtain ⟨k, w⟩ := e
    rw [replace, List.map_cons]
    by_cases hk : k = key
    · rw [if_pos hk, hk, List.lookup_cons_self]
    · have hb : (key == k) = false := by simp [Ne.symm hk]
      have hmem : key ∈ es.map Prod.fst := by
        rw [List.map_cons, List.mem_cons] at h
        exact h.resolve_left fun e => hk e.symm
      rw [if_neg hk, List.lookup_cons, hb]
      exact ih hmem

theorem lookup_replace_of_ne {key key' : String} (h : key' ≠ key) (v : Scalar)
    (es : List (String × Scalar)) : (replace key v es).lookup key' = es.lookup key' := by
  induction es with
  | nil => rfl
  | cons e es ih =>
    obtain ⟨k, w⟩ := e
    rw [replace, List.map_cons]
    by_cases hk : k = key
    · have hb : (key' == k) = false := by simp [hk, h]
      rw [if_pos hk, List.lookup_cons, List.lookup_cons, hb]
      exact ih
    · rw [if_neg hk, List.lookup_cons, List.lookup_cons]
      cases key' == k with
      | true => rfl
      | false => exact ih

theorem lookup_replace {key : String} {es : List (String × Scalar)} (h : key ∈ es.map Prod.fst)
    (v : Scalar) (key' : String) :
    (replace key v es).lookup key' = if key' = key then some v else es.lookup key' := by
  split
  next hkey => rw [hkey, lookup_replace_self h]
  next hkey => exact lookup_replace_of_ne hkey v es

/-! ## Fields -/

section

variable {σ : Type} {view : σ → List (String × Scalar)}

/-- A field puts the value of its node under its key and changes nothing else. Whether it accepts a
node does not depend on the other values. -/
structure Field.Writes (view : σ → List (String × Scalar)) (f : Field σ) : Prop where
  value : ∀ {s node s'}, f.2 s node = some s' → ∃ v, Scalar.ofNode? node = some v ∧
    ∀ key, (view s').lookup key = if key = f.1 then some v else (view s).lookup key
  accepts : ∀ {s node} s', (f.2 s node).isSome → (f.2 s' node).isSome

/-- The fields of a section have different keys, and each of them writes its own. -/
structure Lawful (fields : List (Field σ)) (view : σ → List (String × Scalar)) : Prop where
  keys : (fields.map Prod.fst).Nodup
  writes : ∀ f ∈ fields, f.Writes view

theorem writes_of_put {α : Type} {read : Node → Option α} {scalar : α → Scalar} {key : String}
    {put : σ → α → σ} (hread : ∀ {node a}, read node = some a → Scalar.ofNode? node = some (scalar a))
    (hput : ∀ s a key', (view (put s a)).lookup key' =
      if key' = key then some (scalar a) else (view s).lookup key') :
    Field.Writes view (key, fun s node => (read node).map (put s)) where
  value := by
    intro s node s' h
    obtain ⟨a, ha, rfl⟩ := Option.map_eq_some_iff.mp h
    exact ⟨scalar a, hread ha, hput s a⟩
  accepts := by simp

theorem writes_of_replace {α : Type} {read : Node → Option α} {scalar : α → Scalar} {key : String}
    {put : σ → α → σ} (hkey : ∀ s, key ∈ (view s).map Prod.fst)
    (hread : ∀ {node a}, read node = some a → Scalar.ofNode? node = some (scalar a))
    (hput : ∀ s a, view (put s a) = replace key (scalar a) (view s)) :
    Field.Writes view (key, fun s node => (read node).map (put s)) :=
  writes_of_put hread fun s a key' => by rw [hput, lookup_replace (hkey s)]

end

theorem ofNode?_of_text {node : Node} {s : String} (h : text? node = some s) :
    Scalar.ofNode? node = some (.text s) := by
  cases node <;> cases h
  rfl

theorem ofNode?_of_bool {node : Node} {b : Bool} (h : bool? node = some b) :
    Scalar.ofNode? node = some (.truth b) := by
  cases node <;> cases h
  rfl

theorem ofNode?_of_word {bits n : Nat} {node : Node} (h : word? bits node = some n) :
    Scalar.ofNode? node = some (.number n) ∧ n < Nat.pow 2 bits := by
  unfold word? at h
  split at h
  next i =>
    split at h
    next hrange =>
      cases h
      refine ⟨if_pos hrange.1, ?_⟩
      have := hrange.2
      omega
    next => cases h
  next => cases h

theorem ofNode?_of_word64 {node : Node} {a : UInt64} (h : word64? node = some a) :
    Scalar.ofNode? node = some (.number a.toNat) := by
  obtain ⟨n, hn, rfl⟩ := Option.map_eq_some_iff.mp h
  obtain ⟨hnode, hlt⟩ := ofNode?_of_word hn
  rw [hnode, UInt64.toNat_ofNat_of_lt' hlt]

theorem ofNode?_of_word32 {node : Node} {a : UInt32} (h : word32? node = some a) :
    Scalar.ofNode? node = some (.number a.toNat) := by
  obtain ⟨n, hn, rfl⟩ := Option.map_eq_some_iff.mp h
  obtain ⟨hnode, hlt⟩ := ofNode?_of_word hn
  rw [hnode, UInt32.toNat_ofNat_of_lt' hlt]

theorem ofNode?_of_word16 {node : Node} {a : UInt16} (h : word16? node = some a) :
    Scalar.ofNode? node = some (.number a.toNat) := by
  obtain ⟨n, hn, rfl⟩ := Option.map_eq_some_iff.mp h
  obtain ⟨hnode, hlt⟩ := ofNode?_of_word hn
  rw [hnode, UInt16.toNat_ofNat_of_lt' hlt]

/-! ## The four sections -/

theorem hookFields_lawful : Lawful hookFields fun hook => entries { hook } "hook" where
  keys := by decide
  writes := by
    intro f hf
    have hkey : ∀ hook : HookConfig, f.1 ∈ (entries { hook } "hook").map Prod.fst :=
      fun _ => (List.mem_map_of_mem hf : f.1 ∈ hookFields.map Prod.fst)
    simp only [hookFields, List.mem_cons, List.not_mem_nil, or_false] at hf
    rcases hf with rfl | rfl | rfl | rfl | rfl | rfl | rfl | rfl | rfl | rfl | rfl | rfl
    · exact writes_of_replace hkey ofNode?_of_bool fun _ _ => rfl
    · exact writes_of_replace hkey ofNode?_of_text fun _ _ => rfl
    · exact writes_of_replace hkey ofNode?_of_text fun _ _ => rfl
    · exact writes_of_replace hkey ofNode?_of_text fun _ _ => rfl
    · exact writes_of_replace hkey ofNode?_of_word64 fun _ _ => rfl
    · exact writes_of_replace hkey ofNode?_of_word32 fun _ _ => rfl
    all_goals exact writes_of_replace hkey ofNode?_of_word64 fun _ _ => rfl

/-- The program that loads agents may be absent. -/
theorem platformFields_lawful :
    Lawful platformFields fun platform => entries { platform } "platform" where
  keys := by decide
  writes := by
    intro f hf
    simp only [platformFields, List.mem_cons, List.not_mem_nil, or_false] at hf
    rcases hf with rfl | rfl
    · refine writes_of_replace ?_ ofNode?_of_text ?_
      · rintro ⟨dir, command⟩
        exact List.mem_cons_self
      · rintro ⟨dir, command⟩ a
        cases command <;> rfl
    · refine writes_of_put ofNode?_of_text ?_
      rintro ⟨dir, command⟩ a key
      cases command with
      | none =>
        have hset : entries { platform := ⟨dir, some a⟩ } "platform" =
            entries { platform := ⟨dir, none⟩ } "platform" ++ [("injector_command", .text a)] := rfl
        rw [hset, List.lookup_append]
        by_cases h : key = "injector_command"
        · rw [h]
          rfl
        · have hb : (key == "injector_command") = false := by simp [h]
          rw [if_neg h, List.lookup_cons, hb, List.lookup_nil, Option.or_none]
      | some b =>
        have hkey : "injector_command" ∈
            (entries { platform := ⟨dir, some b⟩ } "platform").map Prod.fst :=
          List.mem_cons_of_mem _ List.mem_cons_self
        exact lookup_replace hkey (.text a) key

theorem supervisorFields_lawful :
    Lawful supervisorFields fun supervisor => entries { supervisor } "supervisor" where
  keys := by decide
  writes := by
    intro f hf
    have hkey : ∀ supervisor : RestartPolicy,
        f.1 ∈ (entries { supervisor } "supervisor").map Prod.fst :=
      fun _ => (List.mem_map_of_mem hf : f.1 ∈ supervisorFields.map Prod.fst)
    simp only [supervisorFields, List.mem_cons, List.not_mem_nil, or_false] at hf
    rcases hf with rfl | rfl
    · exact writes_of_replace hkey ofNode?_of_word32 fun _ _ => rfl
    · exact writes_of_replace hkey ofNode?_of_word64 fun _ _ => rfl

theorem opcodeFields_lawful : Lawful opcodeFields fun opcodes => entries { opcodes } "opcodes" where
  keys := by decide
  writes := by
    intro f hf
    have hkey : ∀ opcodes : Block.Opcodes, f.1 ∈ (entries { opcodes } "opcodes").map Prod.fst :=
      fun _ => (List.mem_map_of_mem hf : f.1 ∈ opcodeFields.map Prod.fst)
    simp only [opcodeFields, List.mem_cons, List.not_mem_nil, or_false] at hf
    rcases hf with rfl | rfl | rfl | rfl | rfl | rfl | rfl | rfl
    all_goals exact writes_of_replace hkey ofNode?_of_word16 fun _ _ => rfl

/-! ## Sections -/

/-- The node that a section gives to a key. A section that is an array gives the keys in order. -/
def nodeAt? (keys : List String) (key : String) : Node → Option Node
  | .table _ es => es.lookup key
  | .array _ items => (keys.zip items).lookup key
  | _ => none

section

variable {σ : Type} {view : σ → List (String × Scalar)} {fields : List (Field σ)}

/-- Reads the fields for which there is a node. -/
def readFields (fields : List (Field σ)) (look : String → Option Node) (start : σ) : Option σ :=
  fields.foldlM (fun s f =>
    match look f.1 with
    | some node => f.2 s node
    | none => some s) start

theorem readFields_nil (look : String → Option Node) (start : σ) :
    readFields [] look start = some start := rfl

theorem readFields_cons_some {f : Field σ} {look : String → Option Node} {node : Node}
    (h : look f.1 = some node) (start : σ) :
    readFields (f :: fields) look start = (f.2 start node).bind (readFields fields look) := by
  simp only [readFields, List.foldlM_cons, h]
  rfl

theorem readFields_cons_none {f : Field σ} {look : String → Option Node} (h : look f.1 = none)
    (start : σ) : readFields (f :: fields) look start = readFields fields look start := by
  simp only [readFields, List.foldlM_cons, h]
  rfl

theorem readFields_congr {look look' : String → Option Node}
    (h : ∀ key ∈ fields.map Prod.fst, look key = look' key) (start : σ) :
    readFields fields look start = readFields fields look' start := by
  induction fields generalizing start with
  | nil => rfl
  | cons f fields ih =>
    have hf : look f.1 = look' f.1 := h f.1 List.mem_cons_self
    have ih := ih fun key hkey => h key (List.mem_cons_of_mem _ hkey)
    cases hlook : look f.1 with
    | none =>
      rw [readFields_cons_none hlook, readFields_cons_none (hf ▸ hlook), ih]
    | some node =>
      rw [readFields_cons_some hlook, readFields_cons_some (hf ▸ hlook)]
      cases f.2 start node with
      | none => rfl
      | some s => exact ih s

theorem readFields_of_none {look : String → Option Node}
    (h : ∀ key ∈ fields.map Prod.fst, look key = none) (start : σ) :
    readFields fields look start = some start := by
  induction fields with
  | nil => rfl
  | cons f fields ih =>
    rw [readFields_cons_none (h f.1 List.mem_cons_self)]
    exact ih fun key hkey => h key (List.mem_cons_of_mem _ hkey)

/-- Reading an array field by field is reading each field at its place. -/
theorem readFields_zip (hkeys : (fields.map Prod.fst).Nodup) (items : List Node) (start : σ) :
    readFields fields (fun key => ((fields.map Prod.fst).zip items).lookup key) start =
      (fields.zip items).foldlM (fun s (f, node) => f.2 s node) start := by
  induction fields generalizing items start with
  | nil => rfl
  | cons f fields ih =>
    rw [List.map_cons, List.nodup_cons] at hkeys
    cases items with
    | nil => exact readFields_of_none (fun _ _ => by simp) start
    | cons node items =>
      have hrest : ∀ key ∈ fields.map Prod.fst,
          (((f :: fields).map Prod.fst).zip (node :: items)).lookup key =
            ((fields.map Prod.fst).zip items).lookup key := by
        intro key hkey
        have hb : (key == f.1) = false := by
          simp only [beq_eq_false_iff_ne, ne_eq]
          rintro rfl
          exact hkeys.1 hkey
        rw [List.map_cons, List.zip_cons_cons, List.lookup_cons, hb]
      have hfirst : (((f :: fields).map Prod.fst).zip (node :: items)).lookup f.1 = some node := by
        simp
      rw [readFields_cons_some hfirst, List.zip_cons_cons, List.foldlM_cons]
      refine congrArg _ (funext fun s => ?_)
      rw [readFields_congr hrest, ih hkeys.2]

/-- A node that a section may be: a table, an array, or a time, which gives no key a node. -/
def isSection : Node → Bool
  | .table _ _ | .array _ _ | .datetime _ => true
  | _ => false

/-- A section is read by finding a node for each of its fields. -/
theorem section?_eq_readFields (hkeys : (fields.map Prod.fst).Nodup) (start : σ)
    (node : Node) : section? fields start node =
      if isSection node then readFields fields (nodeAt? (fields.map Prod.fst) · node) start
      else none := by
  cases node with
  | table style es => rfl
  | array style items => exact (readFields_zip hkeys items start).symm
  | datetime text => exact (readFields_of_none (fun _ _ => rfl) start).symm
  | _ => rfl

/-- The fields are read exactly when each of them accepts its node. -/
theorem isSome_readFields_iff (hwrites : ∀ f ∈ fields, Field.Writes view f)
    (look : String → Option Node) (start : σ) :
    (readFields fields look start).isSome ↔
      ∀ f ∈ fields, ∀ node, look f.1 = some node → (f.2 start node).isSome := by
  induction fields generalizing start with
  | nil => simp [readFields_nil]
  | cons f fields ih =>
    have ih := ih fun f hf => hwrites f (List.mem_cons_of_mem _ hf)
    rw [List.forall_mem_cons]
    cases hlook : look f.1 with
    | none =>
      rw [readFields_cons_none hlook, ih]
      simp
    | some node =>
      rw [readFields_cons_some hlook]
      cases hset : f.2 start node with
      | none => simp [hset]
      | some s =>
        rw [Option.bind_some, ih]
        simp only [Option.some.injEq, forall_eq', hset, Option.isSome_some, true_and]
        constructor
        · intro h g hg node' hnode'
          exact (hwrites g (List.mem_cons_of_mem _ hg)).accepts start (h g hg node' hnode')
        · intro h g hg node' hnode'
          exact (hwrites g (List.mem_cons_of_mem _ hg)).accepts s (h g hg node' hnode')

/-- Fields leave the values of other keys alone. -/
theorem lookup_of_readFields_of_notMem (hwrites : ∀ f ∈ fields, Field.Writes view f)
    {look : String → Option Node} {start s : σ} (h : readFields fields look start = some s)
    {key : String} (hkey : key ∉ fields.map Prod.fst) :
    (view s).lookup key = (view start).lookup key := by
  induction fields generalizing start with
  | nil =>
    cases h
    rfl
  | cons f fields ih =>
    rw [List.map_cons, List.mem_cons, not_or] at hkey
    have ih := fun {start} =>
      @ih (fun f hf => hwrites f (List.mem_cons_of_mem _ hf)) start
    cases hlook : look f.1 with
    | none =>
      rw [readFields_cons_none hlook] at h
      exact ih h hkey.2
    | some node =>
      rw [readFields_cons_some hlook, Option.bind_eq_some_iff] at h
      obtain ⟨s₁, hset, h⟩ := h
      obtain ⟨v, -, hview⟩ := (hwrites f List.mem_cons_self).value hset
      rw [ih h hkey.2, hview, if_neg hkey.1]

/-- What a section holds after its fields have been read. -/
theorem lookup_of_readFields (hkeys : (fields.map Prod.fst).Nodup)
    (hwrites : ∀ f ∈ fields, Field.Writes view f) {look : String → Option Node} {start s : σ}
    (h : readFields fields look start = some s) {key : String} (hkey : key ∈ fields.map Prod.fst) :
    (view s).lookup key =
      match look key with
      | some node => Scalar.ofNode? node
      | none => (view start).lookup key := by
  induction fields generalizing start with
  | nil => cases hkey
  | cons f fields ih =>
    rw [List.map_cons, List.nodup_cons] at hkeys
    rw [List.map_cons, List.mem_cons] at hkey
    have hrest : ∀ f ∈ fields, Field.Writes view f := fun f hf =>
      hwrites f (List.mem_cons_of_mem _ hf)
    cases hlook : look f.1 with
    | none =>
      rw [readFields_cons_none hlook] at h
      rcases hkey with rfl | hkey
      · rw [lookup_of_readFields_of_notMem hrest h hkeys.1, hlook]
      · exact ih hkeys.2 hrest h hkey
    | some node =>
      rw [readFields_cons_some hlook, Option.bind_eq_some_iff] at h
      obtain ⟨s₁, hset, h⟩ := h
      obtain ⟨v, hv, hview⟩ := (hwrites f List.mem_cons_self).value hset
      rcases hkey with rfl | hkey
      · rw [lookup_of_readFields_of_notMem hrest h hkeys.1, hview, if_pos rfl, hlook]
        exact hv.symm
      · have hne : key ≠ f.1 := by
          rintro rfl
          exact hkeys.1 hkey
        rw [ih hkeys.2 hrest h hkey, hview, if_neg hne]

end

end Wiretap.Config
