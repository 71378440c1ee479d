import Wiretap.Config.Save
import Wiretap.Proofs.Toml.Lines

/-!
# Written sections

The text of a configuration is made of sections with different names, each with different keys.

Results:

* `readAs_write`: a value is read back as the node that it is written as.
* `completes_section`: a section is read key by key.
* `parse?_textOf`: the text of sections is their document.
-/

namespace Wiretap.Config

open Toml (Node Entries ReadAs Completes isBare)

/-- The node that a value is written as. -/
def Scalar.node : Scalar → Node
  | text s => .string s
  | number n => .integer n
  | truth b => .boolean b

/-- The entries of a section in its document. -/
def nodes (entries : List (String × Scalar)) : Entries := entries.map fun e => (e.1, e.2.node)

/-- The document that sections are written as. -/
def documentOf (sections : List (String × List (String × Scalar))) : Entries :=
  sections.map fun s => (s.1, .table .header (nodes s.2))

/-- The text of sections, with an empty line between each two. -/
def textOf (sections : List (String × List (String × Scalar))) : List Char :=
  ((sections.map fun (name, entries) => writeSection name entries).intersperse ['\n']).flatten

/-- The keys of a section differ, need no quotes, and have values that can be written. -/
structure Writable (entries : List (String × Scalar)) : Prop where
  keys : (entries.map Prod.fst).Nodup
  bare : ∀ e ∈ entries, isBare e.1 = true
  fits : ∀ e ∈ entries, e.2.fits = true

theorem lt_of_fits {n : Nat} (h : (Scalar.number n).fits = true) : n < Nat.pow 2 63 := by
  have hle : n ≤ maxInteger := of_decide_eq_true h
  exact Nat.lt_of_le_of_lt hle (by decide)

/-- A value is read back from its text. -/
theorem readAs_write {v : Scalar} (h : v.fits = true) : ReadAs v.write v.node := by
  cases v with
  | text s => exact Toml.readAs_string s
  | number n =>
    show ReadAs (toString n).toList (.integer n)
    rw [Text.toList_toString]
    exact Toml.readAs_integer (lt_of_fits h)
  | truth b => exact Toml.readAs_boolean b

/-! ## Sections -/

variable {es : Entries} {name : String} {entries : List (String × Scalar)} {rest : List Char}
  {d' : Toml.Draft}

/-- The first of the names to come is not among those already there. -/
theorem lookup_of_nodup {key : String} {keys : List String}
    (h : (es.map Prod.fst ++ key :: keys).Nodup) : es.lookup key = none := by
  rw [Entries.lookup_eq_none_iff_notMem]
  intro hmem
  exact (List.nodup_append.mp h).2.2 key hmem key List.mem_cons_self rfl

/-- The lines of a section are read one after the other, `inner` holding those already read. -/
theorem completes_entries (inner : Entries) (hname : es.lookup name = none)
    (hkeys : (inner.map Prod.fst ++ entries.map Prod.fst).Nodup)
    (hbare : ∀ e ∈ entries, isBare e.1 = true) (hfits : ∀ e ∈ entries, e.2.fits = true)
    (h : Completes ⟨es ++ [(name, .table .header (inner ++ nodes entries))], [name]⟩ rest d') :
    Completes ⟨es ++ [(name, .table .header inner)], [name]⟩
      (entries.flatMap (fun e => writeEntry e.1 e.2) ++ rest) d' := by
  induction entries generalizing inner with
  | nil =>
    rw [nodes, List.map_nil, List.append_nil] at h
    exact h
  | cons e entries ih =>
    obtain ⟨key, v⟩ := e
    rw [List.forall_mem_cons] at hbare hfits
    have hkey : inner.lookup key = none := lookup_of_nodup hkeys
    have hrest := ih (inner ++ [(key, v.node)]) (by simpa using hkeys) hbare.2 hfits.2
      (by simpa [nodes] using h)
    have hentry := Completes.entry hbare.1 (readAs_write hfits.1)
      (Toml.Draft.addKey_section hname hkey v.node) hrest
    rw [List.flatMap_cons, List.append_assoc]
    exact hentry

theorem completes_section (hname : es.lookup name = none) (hbare : isBare name = true)
    (hentries : Writable entries) (path : List String)
    (h : Completes ⟨es ++ [(name, .table .header (nodes entries))], [name]⟩ rest d') :
    Completes ⟨es, path⟩ (writeSection name entries ++ rest) d' := by
  have hlines := completes_entries [] hname hentries.keys hentries.bare hentries.fits h
  have hsection := Completes.header hbare (Toml.Draft.openTable_new hname path) hlines
  rw [writeSection, List.append_assoc]
  exact hsection

/-- Sections are read one after the other, `es` holding those already read. -/
theorem completes_textOf (es : Entries) {sections : List (String × List (String × Scalar))}
    (hnames : (es.map Prod.fst ++ sections.map Prod.fst).Nodup)
    (hbare : ∀ s ∈ sections, isBare s.1 = true) (hentries : ∀ s ∈ sections, Writable s.2)
    (path : List String) :
    ∃ path', Completes ⟨es, path⟩ (textOf sections) ⟨es ++ documentOf sections, path'⟩ := by
  induction sections generalizing es path with
  | nil =>
    refine ⟨path, ?_⟩
    rw [documentOf, List.map_nil, List.append_nil]
    exact .nil _
  | cons s sections ih =>
    obtain ⟨name, entries⟩ := s
    rw [List.forall_mem_cons] at hbare hentries
    have hname : es.lookup name = none := lookup_of_nodup hnames
    obtain ⟨path', hrest⟩ := ih (es ++ [(name, .table .header (nodes entries))])
      (by simpa using hnames) hbare.2 hentries.2 [name]
    rw [List.append_assoc] at hrest
    refine ⟨path', ?_⟩
    cases sections with
    | nil =>
      have hsection := completes_section hname hbare.1 hentries.1 path hrest
      exact hsection
    | cons s sections => exact completes_section hname hbare.1 hentries.1 path hrest.blankLine

/-- **The text of sections** is their document. -/
theorem parse?_textOf {sections : List (String × List (String × Scalar))}
    (hnames : (sections.map Prod.fst).Nodup) (hbare : ∀ s ∈ sections, isBare s.1 = true)
    (hentries : ∀ s ∈ sections, Writable s.2) :
    Toml.parse? (textOf sections) = some (documentOf sections) := by
  obtain ⟨path, hread⟩ := completes_textOf [] hnames hbare hentries []
  have hlines := hread ((textOf sections).length + 1) (Nat.lt_succ_self _)
  have hmark : ∀ more, textOf sections ≠ '\ufeff' :: more := by
    intro more
    cases sections with
    | nil => nofun
    | cons s sections =>
      cases sections with
      | nil => simp [textOf, writeSection]
      | cons s' sections => simp [textOf, writeSection]
  unfold Toml.parse?
  split
  next heq => exact absurd heq (hmark _)
  next =>
    show (Toml.Draft.lines? _ ⟨[], []⟩ _).map _ = _
    rw [hlines]
    rfl

end Wiretap.Config
