import Mathlib.Data.List.TakeWhile
import Wiretap.Proofs.Toml.Keys

/-!
# Documents over one another

Where several documents are laid over one another, the nodes under one key make a stack. A table
that is not in braces lets the table right below it show through, if that one is not in braces
either; every other node hides what is below it.

Results:

* `lookup_mergeEntries`: merging two tables lays the nodes over one another key by key.
* `lookup_foldl_mergeEntries`: so a key of many documents is a stack of nodes.
* `visible_cons_of_open`, `visible_cons_of_not_open`: what a node does to a stack below it.
-/

namespace Wiretap.Toml

namespace Node

/-- The node, laid over what was there. -/
def atop (node : Node) : Option Node → Node
  | none => node
  | some under => under.merge node

/-- A table that is not in braces. -/
def isOpen : Node → Bool
  | .table style _ => style != .inline
  | _ => false

/-- The table of an array of tables, or another array or value. -/
def isTables : Node → Bool
  | .array .tables _ => true
  | _ => false

theorem exists_of_isOpen {node : Node} (h : node.isOpen = true) :
    ∃ style es, node = .table style es ∧ style ≠ .inline := by
  cases node with
  | table style es => exact ⟨style, es, rfl, by simpa [isOpen] using h⟩
  | _ => cases h

theorem merge_of_open {style style' : TableStyle} {es es' : Entries} (h : style ≠ .inline)
    (h' : style' ≠ .inline) :
    (Node.table style es).merge (.table style' es') = .table style (mergeEntries es es') := by
  cases style <;> cases style' <;> first | contradiction | rfl

/-- Everything but a table over a table, neither in braces, hides what is below it. -/
theorem merge_of_not_open {under node : Node} (h : (under.isOpen && node.isOpen) = false)
    (htables : node.isTables = false) : under.merge node = node := by
  unfold merge
  split
  next => rfl
  next => rfl
  next style es style' es' hupper hunder =>
    -- two tables that are not in braces
    simp [isOpen] at h
    exact absurd (h hunder) hupper
  next => cases htables
  next => rfl

end Node

/-! ## Keys -/

theorem lookup_mergeEntries (under : Entries) {upper : Entries}
    (h : (upper.map Prod.fst).Nodup) (key : String) :
    (mergeEntries under upper).lookup key =
      match upper.lookup key with
      | none => under.lookup key
      | some node => some (node.atop (under.lookup key)) := by
  induction upper generalizing under with
  | nil => simp [mergeEntries]
  | cons e rest ih =>
    obtain ⟨k, n⟩ := e
    rw [List.map_cons, List.nodup_cons] at h
    have hput : mergeEntries under ((k, n) :: rest) =
        mergeEntries (under.put k (n.atop (under.lookup k))) rest := by
      rw [mergeEntries]
      cases under.lookup k <;> rfl
    rw [hput, ih _ h.2, Entries.lookup_put]
    by_cases hk : key = k
    · -- the key is not among the rest
      subst hk
      have hrest := Entries.lookup_eq_none_iff_notMem.mpr h.1
      rw [hrest, List.lookup_cons_self]
      simp
    · have hb : (key == k) = false := by simp [hk]
      rw [List.lookup_cons, hb, if_neg hk]

/-- What a stack of nodes comes to. The list begins at the top. -/
def stack : List Node → Option Node
  | [] => none
  | top :: below => some (top.atop (stack below))

theorem lookup_foldl_mergeEntries {docs : List Entries}
    (h : ∀ doc ∈ docs, (doc.map Prod.fst).Nodup) (key : String) :
    (docs.foldl mergeEntries []).lookup key = stack (docs.reverse.filterMap (·.lookup key)) := by
  rw [← List.foldr_reverse]
  have hkeys : ∀ doc ∈ docs.reverse, (doc.map Prod.fst).Nodup := fun doc hdoc =>
    h doc (List.mem_reverse.mp hdoc)
  generalize docs.reverse = later at hkeys ⊢
  induction later with
  | nil => rfl
  | cons doc later ih =>
    have ih := ih fun d hd => hkeys d (List.mem_cons_of_mem doc hd)
    rw [List.foldr_cons, lookup_mergeEntries _ (hkeys doc List.mem_cons_self), ih]
    cases hdoc : doc.lookup key with
    | none => rw [List.filterMap_cons_none hdoc]
    | some node => rw [List.filterMap_cons_some hdoc, stack]

/-! ## Hiding -/

/-- The nodes of a stack that are not hidden. -/
def visible : List Node → List Node
  | [] => []
  | top :: below => top :: if top.isOpen then below.takeWhile Node.isOpen else []

theorem visible_cons_of_open {top next : Node} (below : List Node) (htop : top.isOpen = true)
    (hnext : next.isOpen = true) :
    visible (top :: next :: below) = top :: visible (next :: below) := by
  simp [visible, htop, hnext]

theorem visible_cons_of_not_open {top next : Node} (below : List Node)
    (h : (next.isOpen && top.isOpen) = false) : visible (top :: next :: below) = [top] := by
  cases htop : top.isOpen <;> cases hnext : next.isOpen <;> simp_all [visible]

/-- Nothing is hidden where no node is in braces. -/
theorem visible_of_open {nodes : List Node} (h : ∀ node ∈ nodes, node.isOpen = true) :
    visible nodes = nodes := by
  cases nodes with
  | nil => rfl
  | cons top below =>
    rw [List.forall_mem_cons] at h
    rw [visible, if_pos h.1, List.takeWhile_eq_self_iff.mpr (by simpa using h.2)]

end Wiretap.Toml
