import Wiretap.Proofs.Config.Values
import Wiretap.Proofs.Toml.Merge

/-!
# Configurations in layers

Several files make one configuration. What counts for a section are the nodes that the files give it
and that are not hidden: a section in braces hides those of the files before, and is hidden by that
of a later file even where the later one is not in braces. Of the nodes that count, the last one
with a key gives the key its value.

Results:

* `composite_of_open`: a section over others, where neither it nor the next one is in braces.
* `composite_of_not_open`: a section that hides those below it.
* `composite_of_stack`: what the nodes of a section come to, laid over one another.
-/

namespace Wiretap.Config

open Toml (Node Entries stack visible)

/-! ## One section -/

theorem merge_of_ofNode? {under node : Node} {v : Scalar} (h : Scalar.ofNode? node = some v) :
    under.merge node = node := by
  refine Node.merge_of_not_open ?_ ?_
  · cases node <;> first | exact Bool.and_false _ | cases h
  · cases node <;> first | rfl | cases h

section

variable {σ : Type} {view : σ → List (String × Scalar)} {fields : List (Field σ)} {start : σ}

/-- The nodes that an accepted section gives to its keys are plain values, which any field of that
key accepts. -/
theorem accepted_of_section? (law : Lawful fields view) {node : Node}
    (h : (section? fields start node).isSome) :
    isSection node ∧ ∀ f ∈ fields, ∀ n, nodeAt? (fields.map Prod.fst) f.1 node = some n →
      (f.2 start n).isSome ∧ ∃ v, Scalar.ofNode? n = some v := by
  rw [section?_eq_readFields law.keys] at h
  split at h
  next hsection =>
    refine ⟨hsection, ?_⟩
    intro f hf n hn
    have hread := (isSome_readFields_iff law.writes _ start).mp h f hf n hn
    obtain ⟨s, hs⟩ := Option.isSome_iff_exists.mp hread
    obtain ⟨v, hv, -⟩ := (law.writes f hf).value hs
    exact ⟨hread, v, hv⟩
  next => cases h

/-- An accepted section is no array of tables: its first field would be a table. -/
theorem isTables_of_section? (law : Lawful fields view) (hne : fields ≠ []) {node : Node}
    (hregular : node.Regular) (h : (section? fields start node).isSome) : node.isTables = false := by
  cases hregular with
  | tables nonempty areTables regular =>
    rename_i items
    obtain ⟨f, fields', rfl⟩ := List.exists_cons_of_ne_nil hne
    obtain ⟨item, items', rfl⟩ := List.exists_cons_of_ne_nil nonempty
    obtain ⟨style, es, rfl⟩ := areTables item List.mem_cons_self
    have hfirst := (accepted_of_section? law h).2 f List.mem_cons_self (.table style es)
      (by simp [nodeAt?])
    obtain ⟨-, v, hv⟩ := hfirst
    cases hv
  | _ => rfl

/-- What accepted sections come to that are laid over one another, the first of the list on top. -/
structure Composite (fields : List (Field σ)) (start : σ) (nodes : List Node) (node : Node) :
    Prop where
  accepted : (section? fields start node).isSome
  isOpen : nodes.head?.map Node.isOpen = some node.isOpen
  nodeAt : ∀ key ∈ fields.map Prod.fst, nodeAt? (fields.map Prod.fst) key node =
    (visible nodes).findSome? (nodeAt? (fields.map Prod.fst) key)

/-- A section over others, where neither it nor the next one is in braces. -/
theorem composite_of_open (law : Lawful fields view) {nodes : List Node} {top under : Node}
    (htop : top.isOpen = true) (hunder : under.isOpen = true) (hregular : top.Regular)
    (hread : (section? fields start top).isSome) (h : Composite fields start nodes under) :
    Composite fields start (top :: nodes) (under.merge top) := by
  obtain ⟨style, es, rfl, hstyle⟩ := Node.exists_of_isOpen hunder
  obtain ⟨style', es', rfl, hstyle'⟩ := Node.exists_of_isOpen htop
  have hkeys := (Toml.Entries.regular_iff.mp hregular).1
  have hupper := (accepted_of_section? law hread).2
  have hlower := (accepted_of_section? law h.accepted).2
  -- values are laid over what was there by taking its place
  have hlookup : ∀ key ∈ fields.map Prod.fst, (Toml.mergeEntries es es').lookup key =
      (es'.lookup key).or (es.lookup key) := by
    intro key hkey
    obtain ⟨f, hf, rfl⟩ := List.mem_map.mp hkey
    rw [Toml.lookup_mergeEntries es hkeys]
    cases hn : es'.lookup f.1 with
    | none => rfl
    | some n =>
      obtain ⟨-, v, hv⟩ := hupper f hf n hn
      cases hold : es.lookup f.1 with
      | none => rfl
      | some old => exact congrArg some (merge_of_ofNode? hv)
  rw [Node.merge_of_open hstyle hstyle']
  constructor
  · rw [section?_eq_readFields law.keys, if_pos (show isSection (.table style _) = true from rfl),
      isSome_readFields_iff law.writes]
    intro f hf n hn
    have hn : (es'.lookup f.1).or (es.lookup f.1) = some n :=
      (hlookup f.1 (List.mem_map_of_mem hf)).symm.trans hn
    rcases Option.or_eq_some_iff.mp hn with hn | ⟨-, hn⟩
    · exact (hupper f hf n hn).1
    · exact (hlower f hf n hn).1
  · rw [List.head?_cons, Option.map_some, htop]
    exact congrArg some hunder.symm
  · intro key hkey
    have hvisible : visible (.table style' es' :: nodes) = .table style' es' :: visible nodes := by
      obtain ⟨next, hnext, hopen⟩ := Option.map_eq_some_iff.mp h.isOpen
      obtain ⟨below, rfl⟩ := List.head?_eq_some_iff.mp hnext
      exact Toml.visible_cons_of_open below htop (hopen.trans hunder)
    rw [hvisible, List.findSome?_cons, ← h.nodeAt key hkey]
    exact (hlookup key hkey).trans (by cases hn : es'.lookup key <;> simp [nodeAt?, hn])

/-- A section over others, where it or the next one is in braces, or no table. -/
theorem composite_of_not_open (law : Lawful fields view) (hne : fields ≠ []) {nodes : List Node}
    {top under : Node} (hopen : (under.isOpen && top.isOpen) = false) (hregular : top.Regular)
    (hread : (section? fields start top).isSome) (h : Composite fields start nodes under) :
    Composite fields start (top :: nodes) (under.merge top) := by
  rw [Node.merge_of_not_open hopen (isTables_of_section? law hne hregular hread)]
  refine ⟨hread, rfl, fun key _ => ?_⟩
  obtain ⟨next, hnext, hsame⟩ := Option.map_eq_some_iff.mp h.isOpen
  obtain ⟨below, rfl⟩ := List.head?_eq_some_iff.mp hnext
  rw [Toml.visible_cons_of_not_open below (hsame ▸ hopen), List.findSome?_cons, List.findSome?_nil]
  cases nodeAt? (fields.map Prod.fst) key top <;> rfl

/-- **What the accepted sections of several files come to**: a section that is accepted again, and
gives each key the topmost node for it that is not hidden. -/
theorem composite_of_stack (law : Lawful fields view) (hne : fields ≠ []) {nodes : List Node}
    {node : Node} (hnodes : ∀ n ∈ nodes, n.Regular ∧ (section? fields start n).isSome)
    (h : stack nodes = some node) : Composite fields start nodes node := by
  induction nodes generalizing node with
  | nil => cases h
  | cons top below ih =>
    obtain ⟨⟨hregular, hread⟩, hbelow⟩ := List.forall_mem_cons.mp hnodes
    rw [stack, Option.some.injEq] at h
    cases hunder : stack below with
    | none =>
      -- only the top of a stack of one node is over nothing
      obtain rfl : below = [] := by
        cases below with
        | nil => rfl
        | cons next below => cases hunder
      rw [hunder] at h
      obtain rfl : top = node := h
      refine ⟨hread, rfl, fun key _ => ?_⟩
      rw [visible, List.takeWhile_nil, ite_self, List.findSome?_cons, List.findSome?_nil]
      cases nodeAt? (fields.map Prod.fst) key top <;> rfl
    | some under =>
      rw [hunder] at h
      obtain rfl : under.merge top = node := h
      cases hopen : under.isOpen && top.isOpen with
      | false => exact composite_of_not_open law hne hopen hregular hread (ih hbelow hunder)
      | true =>
        rw [Bool.and_eq_true] at hopen
        exact composite_of_open law hopen.2 hopen.1 hregular hread (ih hbelow hunder)

end

end Wiretap.Config
