import Wiretap.Toml.Parser

/-!
# Keys are given once

The reader refuses a key that is given twice. So the tables of a document, and all tables in them,
hold each of their keys once; and an array of tables holds tables, at least one of them.

Results:

* `regular_put`: writing a key keeps the keys apart.
* `regular_alter`: so does a change anywhere in a document that keeps the keys apart where it is
  made.
* `regular_of_parse?`: the keys of a document are apart.
-/

namespace Wiretap.Toml

/-- Every table in the node holds each of its keys once, and the arrays of tables are not empty. -/
inductive Node.Regular : Node → Prop
  | string (s : String) : Regular (.string s)
  | integer (n : Int) : Regular (.integer n)
  | float (text : String) : Regular (.float text)
  | boolean (b : Bool) : Regular (.boolean b)
  | datetime (text : String) : Regular (.datetime text)
  | array {items : List Node} (regular : ∀ n ∈ items, Regular n) : Regular (.array .inline items)
  | tables {items : List Node} (nonempty : items ≠ [])
      (areTables : ∀ n ∈ items, ∃ style es, n = .table style es)
      (regular : ∀ n ∈ items, Regular n) : Regular (.array .tables items)
  | table {style : TableStyle} {es : Entries} (keys : (es.map Prod.fst).Nodup)
      (regular : ∀ e ∈ es, Regular e.2) : Regular (.table style es)

namespace Entries

/-- The keys are apart, here and in the nodes. -/
def Regular (es : Entries) : Prop := (es.map Prod.fst).Nodup ∧ ∀ e ∈ es, e.2.Regular

theorem regular_nil : Regular [] := ⟨List.nodup_nil, by simp⟩

theorem regular_iff {style : TableStyle} {es : Entries} :
    (Node.table style es).Regular ↔ es.Regular := by
  constructor
  · intro h
    cases h with
    | table keys regular => exact ⟨keys, regular⟩
  · rintro ⟨keys, regular⟩
    exact .table keys regular

theorem regular_of_lookup {es : Entries} {key : String} {node : Node} (h : es.Regular)
    (hnode : es.lookup key = some node) : node.Regular := by
  obtain ⟨before, after, rfl, -⟩ := List.lookup_eq_some_iff.mp hnode
  exact h.2 (key, node) (by simp)

theorem lookup_eq_none_iff_notMem {es : Entries} {key : String} :
    es.lookup key = none ↔ key ∉ es.map Prod.fst := by
  rw [List.lookup_eq_none_iff, List.mem_map]
  constructor
  · rintro h ⟨e, he, rfl⟩
    simpa using h e he
  · intro h e he
    exact bne_iff_ne.mpr fun heq => h ⟨e, he, heq.symm⟩

/-- Writing a key adds it at the end, unless it is there. -/
theorem keys_put (es : Entries) (key : String) (node : Node) :
    (es.put key node).map Prod.fst =
      if key ∈ es.map Prod.fst then es.map Prod.fst else es.map Prod.fst ++ [key] := by
  induction es with
  | nil => simp [put]
  | cons e rest ih =>
    obtain ⟨k, n⟩ := e
    by_cases hk : key = k
    · simp [put, hk]
    · have hmem : key ∈ k :: rest.map Prod.fst ↔ key ∈ rest.map Prod.fst := by simp [hk]
      rw [put, if_neg hk, List.map_cons, ih, List.map_cons]
      simp only [hmem]
      split <;> rfl

/-- A key that the front of a table does not have is written behind it. -/
theorem put_append {es : Entries} {key : String} (h : es.lookup key = none) (es' : Entries)
    (node : Node) : put (es ++ es') key node = es ++ es'.put key node := by
  induction es with
  | nil => rfl
  | cons e es ih =>
    obtain ⟨k, n⟩ := e
    rw [List.lookup_cons] at h
    cases hk : key == k with
    | true =>
      rw [hk] at h
      cases h
    | false =>
      rw [hk] at h
      rw [List.cons_append, put, if_neg (beq_eq_false_iff_ne.mp hk), ih h]
      rfl

theorem mem_put {es : Entries} {key : String} {node : Node} {e : String × Node}
    (h : e ∈ es.put key node) : e.2 = node ∨ e ∈ es := by
  induction es with
  | nil =>
    simp only [put, List.mem_singleton] at h
    exact .inl (by rw [h])
  | cons e' rest ih =>
    obtain ⟨k, n⟩ := e'
    unfold put at h
    split at h
    next =>
      rcases List.mem_cons.mp h with rfl | h
      · exact .inl rfl
      · exact .inr (List.mem_cons_of_mem _ h)
    next =>
      rcases List.mem_cons.mp h with rfl | h
      · exact .inr List.mem_cons_self
      · exact (ih h).imp_right (List.mem_cons_of_mem _)

theorem nodup_keys_concat {es : Entries} {key : String} (h : (es.map Prod.fst).Nodup)
    (hkey : key ∉ es.map Prod.fst) : (es.map Prod.fst ++ [key]).Nodup := by
  rw [List.nodup_append]
  refine ⟨h, by simp, ?_⟩
  rintro k hk k' hk' rfl
  obtain rfl : k = key := List.mem_singleton.mp hk'
  exact hkey hk

theorem regular_put {es : Entries} {key : String} {node : Node} (h : es.Regular)
    (hnode : node.Regular) : (es.put key node).Regular := by
  refine ⟨?_, ?_⟩
  · rw [keys_put]
    split
    next => exact h.1
    next hkey => exact nodup_keys_concat h.1 hkey
  · intro e he
    rcases mem_put he with hval | he
    · rw [hval]
      exact hnode
    · exact h.2 e he

theorem regular_concat {es : Entries} {key : String} {node : Node} (h : es.Regular)
    (hnode : node.Regular) (hkey : es.lookup key = none) : Regular (es ++ [(key, node)]) := by
  refine ⟨?_, ?_⟩
  · rw [List.map_append]
    exact nodup_keys_concat h.1 (lookup_eq_none_iff_notMem.mp hkey)
  · intro e he
    rcases List.mem_append.mp he with he | he
    · exact h.2 e he
    · rw [List.mem_singleton.mp he]
      exact hnode

/-! ## Changes in a document -/

/-- A change keeps the keys apart. -/
def KeepsRegular (f : TableStyle → Entries → Option (TableStyle × Entries)) : Prop :=
  ∀ ⦃style es style' es'⦄, Regular es → f style es = some (style', es') → Regular es'

/-- One more table in an array of tables. -/
theorem regular_tables_concat {items : List Node} {style : TableStyle} {es : Entries}
    (areTables : ∀ n ∈ items, ∃ style es, n = .table style es) (regular : ∀ n ∈ items, n.Regular)
    (hes : es.Regular) : (Node.array .tables (items ++ [.table style es])).Regular := by
  refine .tables (by simp) ?_ ?_
  · intro n hn
    rcases List.mem_append.mp hn with hn | hn
    · exact areTables n hn
    · exact ⟨style, es, List.mem_singleton.mp hn⟩
  · intro n hn
    rcases List.mem_append.mp hn with hn | hn
    · exact regular n hn
    · rw [List.mem_singleton.mp hn]
      exact regular_iff.mpr hes

theorem regular_alter {dotted : Bool} {f : TableStyle → Entries → Option (TableStyle × Entries)}
    (hf : KeepsRegular f) (path : List String) : KeepsRegular (alter dotted f path) := by
  induction path with
  | nil =>
    intro style es style' es' hes h
    exact hf hes h
  | cons key path ih =>
    intro style es style' es' hes h
    unfold alter at h
    split at h
    next =>
      obtain ⟨⟨s, inner⟩, hinner, heq⟩ := Option.map_eq_some_iff.mp h
      cases heq
      exact regular_put hes (regular_iff.mpr (ih regular_nil hinner))
    next s inner hlookup =>
      split at h
      next => cases h
      next =>
        obtain ⟨⟨s', inner'⟩, hinner, heq⟩ := Option.map_eq_some_iff.mp h
        cases heq
        have hold := regular_iff.mp (regular_of_lookup hes hlookup)
        exact regular_put hes (regular_iff.mpr (ih hold hinner))
    next items hlookup =>
      have hitems := regular_of_lookup hes hlookup
      split at h
      next s inner hlast =>
        obtain ⟨⟨s', inner'⟩, hinner, heq⟩ := Option.map_eq_some_iff.mp h
        cases heq
        cases hitems with | tables _ areTables regular => ?_
        have hold : Regular inner := regular_iff.mp (regular _ (List.mem_of_getLast? hlast))
        -- the last element is changed, the others stay
        have hrest : items.dropLast ⊆ items := (List.dropLast_sublist items).subset
        exact regular_put hes (regular_tables_concat (fun n hn => areTables n (hrest hn))
          (fun n hn => regular n (hrest hn)) (ih hold hinner))
      next => cases h
    next => cases h

theorem regular_addKey {path : List String} {key : String} {node : Node} (hnode : node.Regular) :
    KeepsRegular (addKey path key node) := by
  refine regular_alter ?_ path
  intro style es style' es' hes h
  dsimp only at h
  split at h
  next => cases h
  next =>
    split at h
    next => cases h
    next hkey =>
      cases h
      exact regular_concat hes hnode (Option.not_isSome_iff_eq_none.mp hkey)

theorem regular_openTable {path : List String} {key : String} :
    KeepsRegular (openTable path key) := by
  refine regular_alter ?_ path
  intro style es style' es' hes h
  dsimp only at h
  split at h
  next =>
    cases h
    exact regular_put hes (regular_iff.mpr regular_nil)
  next inner hlookup =>
    cases h
    exact regular_put hes (regular_iff.mpr (regular_iff.mp (regular_of_lookup hes hlookup)))
  next => cases h

theorem regular_openElement {path : List String} {key : String} :
    KeepsRegular (openElement path key) := by
  refine regular_alter ?_ path
  intro style es style' es' hes h
  dsimp only at h
  split at h
  next =>
    cases h
    have hnone : ∀ {p : Node → Prop}, ∀ n ∈ [], p n := List.forall_mem_nil _
    exact regular_put hes (regular_tables_concat hnone hnone regular_nil)
  next items hlookup =>
    cases h
    cases regular_of_lookup hes hlookup with | tables _ areTables regular => ?_
    exact regular_put hes (regular_tables_concat areTables regular regular_nil)
  next => cases h

end Entries

/-! ## Values -/

theorem regular_of_scalar {cs rest : List Char} {node : Node}
    (h : Scalar.take? cs = some (node, rest)) : node.Regular := by
  have hnode : ∀ token, Scalar.node? token = some node → node.Regular := by
    intro token htoken
    unfold Scalar.node? at htoken
    repeat' split at htoken
    all_goals cases htoken
    all_goals constructor
  unfold Scalar.take? at h
  obtain ⟨node', hnode', heq⟩ := Option.map_eq_some_iff.mp h
  cases heq
  exact hnode _ hnode'

/-- What the readers of values, of the items of an array and of the entries in braces answer with,
given so much fuel. -/
structure Reading (fuel : Nat) : Prop where
  value : ∀ {depth cs node rest}, value? fuel depth cs = some (node, rest) → node.Regular
  items : ∀ {depth acc cs node rest}, (∀ n ∈ acc, n.Regular) →
    items? fuel depth acc cs = some (node, rest) → node.Regular
  braces : ∀ {depth acc cs node rest}, Entries.Regular acc →
    braces? fuel depth acc cs = some (node, rest) → node.Regular

namespace Reading

variable {fuel depth : Nat} {cs rest : List Char} {node : Node}

theorem next_value (h : Reading fuel) (hread : value? (fuel + 1) depth cs = some (node, rest)) :
    node.Regular := by
  unfold value? at hread
  split at hread
  next =>
    split at hread
    · exact h.items (by simp) hread
    · cases hread
  next =>
    split at hread
    · exact h.braces Entries.regular_nil hread
    · cases hread
  next =>
    obtain ⟨⟨s, rest'⟩, -, heq⟩ := Option.map_eq_some_iff.mp hread
    cases heq
    exact .string _
  next =>
    obtain ⟨⟨s, rest'⟩, -, heq⟩ := Option.map_eq_some_iff.mp hread
    cases heq
    exact .string _
  next => exact regular_of_scalar hread

theorem next_items (h : Reading fuel) {acc : List Node} (hacc : ∀ n ∈ acc, n.Regular)
    (hread : items? (fuel + 1) depth acc cs = some (node, rest)) : node.Regular := by
  rw [items?] at hread
  obtain ⟨cs', -, hread⟩ := Option.bind_eq_some_iff.mp hread
  split at hread
  next =>
    cases hread
    exact .array fun n hn => hacc n (List.mem_reverse.mp hn)
  next =>
    obtain ⟨⟨item, rest'⟩, hitem, hread⟩ := Option.bind_eq_some_iff.mp hread
    have hacc' : ∀ n ∈ item :: acc, n.Regular := List.forall_mem_cons.mpr ⟨h.value hitem, hacc⟩
    obtain ⟨cs'', -, hread⟩ := Option.bind_eq_some_iff.mp hread
    split at hread
    next => exact h.items hacc' hread
    next =>
      cases hread
      exact .array fun n hn => hacc' n (List.mem_reverse.mp hn)
    next => cases hread

theorem next_braces (h : Reading fuel) {acc : Entries} (hacc : acc.Regular)
    (hread : braces? (fuel + 1) depth acc cs = some (node, rest)) : node.Regular := by
  rw [braces?] at hread
  obtain ⟨cs', -, hread⟩ := Option.bind_eq_some_iff.mp hread
  split at hread
  next =>
    cases hread
    exact Entries.regular_iff.mpr hacc
  next =>
    obtain ⟨⟨⟨path, last⟩, rest'⟩, -, hread⟩ := Option.bind_eq_some_iff.mp hread
    dsimp only at hread
    split at hread
    next afterSign =>
      obtain ⟨⟨item, afterItem⟩, hitem, hread⟩ := Option.bind_eq_some_iff.mp hread
      obtain ⟨⟨style, acc'⟩, hadd, hread⟩ := Option.bind_eq_some_iff.mp hread
      have hacc' : acc'.Regular := Entries.regular_addKey (h.value hitem) hacc hadd
      obtain ⟨cs'', -, hread⟩ := Option.bind_eq_some_iff.mp hread
      split at hread
      next => exact h.braces hacc' hread
      next =>
        cases hread
        exact Entries.regular_iff.mpr hacc'
      next => cases hread
    next => cases hread

end Reading

theorem reading (fuel : Nat) : Reading fuel := by
  induction fuel with
  | zero =>
    constructor
    · intro depth cs node rest hread
      cases hread
    · intro depth acc cs node rest _ hread
      cases hread
    · intro depth acc cs node rest _ hread
      cases hread
  | succ fuel ih => exact ⟨ih.next_value, ih.next_items, ih.next_braces⟩

/-! ## Documents -/

namespace Draft

theorem regular_of_line? {d d' : Draft} {cs rest : List Char} (hd : d.entries.Regular)
    (h : d.line? cs = some (d', rest)) : d'.entries.Regular := by
  unfold line? at h
  split at h
  next =>
    obtain ⟨⟨⟨path, last⟩, rest'⟩, -, h⟩ := Option.bind_eq_some_iff.mp h
    dsimp only at h
    split at h
    next =>
      obtain ⟨d'', hopen, heq⟩ := Option.bind_eq_some_iff.mp h
      cases heq
      obtain ⟨⟨style, es⟩, hes, rfl⟩ := Option.map_eq_some_iff.mp hopen
      exact Entries.regular_openElement hd hes
    next => cases h
  next =>
    obtain ⟨⟨⟨path, last⟩, rest'⟩, -, h⟩ := Option.bind_eq_some_iff.mp h
    dsimp only at h
    split at h
    next =>
      obtain ⟨d'', hopen, heq⟩ := Option.bind_eq_some_iff.mp h
      cases heq
      obtain ⟨⟨style, es⟩, hes, rfl⟩ := Option.map_eq_some_iff.mp hopen
      exact Entries.regular_openTable hd hes
    next => cases h
  next =>
    obtain ⟨⟨⟨path, last⟩, rest'⟩, -, h⟩ := Option.bind_eq_some_iff.mp h
    dsimp only at h
    split at h
    next =>
      obtain ⟨⟨node, rest''⟩, hnode, h⟩ := Option.bind_eq_some_iff.mp h
      obtain ⟨d'', hadd, heq⟩ := Option.bind_eq_some_iff.mp h
      cases heq
      obtain ⟨⟨style, es⟩, hes, rfl⟩ := Option.map_eq_some_iff.mp hadd
      have hkey : node.Regular := (reading _).value hnode
      exact Entries.regular_alter (Entries.regular_addKey hkey) d.section_ hd hes
    next => cases h

theorem regular_of_lines? {fuel : Nat} {d d' : Draft} {cs : List Char} (hd : d.entries.Regular)
    (h : lines? fuel d cs = some d') : d'.entries.Regular := by
  induction fuel generalizing d cs with
  | zero => cases h
  | succ fuel ih =>
    rw [lines?] at h
    obtain ⟨cs', -, h⟩ := Option.bind_eq_some_iff.mp h
    dsimp only at h
    split at h
    next =>
      cases h
      exact hd
    next =>
      obtain ⟨⟨d'', rest⟩, hline, h⟩ := Option.bind_eq_some_iff.mp h
      have hd'' := regular_of_line? hd hline
      obtain ⟨rest', -, h⟩ := Option.bind_eq_some_iff.mp h
      split at h
      next =>
        cases h
        exact hd''
      next => exact ih hd'' h

end Draft

/-- **The keys of a document are apart**, and so are those of all its tables. -/
theorem regular_of_parse? {cs : List Char} {es : Entries} (h : parse? cs = some es) :
    es.Regular := by
  obtain ⟨d, hd, rfl⟩ := Option.map_eq_some_iff.mp h
  exact Draft.regular_of_lines? Entries.regular_nil hd

end Wiretap.Toml
