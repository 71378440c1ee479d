import Wiretap.Proofs.Config.Loaded

/-!
# One file, and files that set nothing

A single file makes the same configuration alone as it does in a list of one. To a list of files,
those that are missing and those that hold nothing but blanks and comments add nothing, wherever
they stand in it.

Results:

* `parse?_of_void`, `parse?_of_marked_void`: a text of blanks and comments is the empty document.
* `mergeEntries_nil`: a document laid over nothing is that document.
* `foldlM_padded`: files that set nothing leave what the others come to as it is.
* `loadMerged_single_and_padded`: one file alone, and any files with others that set nothing.
-/

namespace Wiretap.Toml

/-! ## Texts that hold nothing -/

/-- A text that holds nothing but blanks, line breaks and comments. -/
inductive Void : List Char → Prop where
  | nil : Void []
  | blank {c : Char} {cs : List Char} (hc : isBlank c = true) (h : Void cs) : Void (c :: cs)
  | lineBreak {cs : List Char} (h : Void cs) : Void ('\n' :: cs)
  | carriageReturn {cs : List Char} (h : Void cs) : Void ('\r' :: '\n' :: cs)
  | comment {text cs : List Char} (htext : ∀ c ∈ text, Quoted.isPlain c = true) (h : Void cs) :
      Void ('#' :: (text ++ cs))

theorem isPlain_of_isBlank {c : Char} (h : isBlank c = true) : Quoted.isPlain c = true := by
  simp only [isBlank, Bool.or_eq_true, decide_eq_true_eq] at h
  rcases h with rfl | rfl <;> decide

/-- In a comment a character that may stand in one is dropped. -/
theorem dropSpace_true_cons {c : Char} (h : Quoted.isPlain c = true) (cs : List Char) :
    dropSpace true (c :: cs) = dropSpace true cs := by
  have hlf : c ≠ '\n' := by rintro rfl; exact absurd h (by decide)
  have hcr : c ≠ '\r' := by rintro rfl; exact absurd h (by decide)
  rw [dropSpace.eq_4 _ _ _ (fun e => hlf e) (fun _ e => absurd e hcr)]
  simp [h]

theorem dropSpace_true_append {text : List Char} (h : ∀ c ∈ text, Quoted.isPlain c = true)
    (cs : List Char) : dropSpace true (text ++ cs) = dropSpace true cs := by
  induction text with
  | nil => rfl
  | cons c text ih =>
    rw [List.forall_mem_cons] at h
    rw [List.cons_append, dropSpace_true_cons h.1, ih h.2]

theorem dropSpace_blank {c : Char} (h : isBlank c = true) (inComment : Bool) (cs : List Char) :
    dropSpace inComment (c :: cs) = dropSpace inComment cs := by
  cases inComment with
  | true => exact dropSpace_true_cons (isPlain_of_isBlank h) cs
  | false =>
    simp only [isBlank, Bool.or_eq_true, decide_eq_true_eq] at h
    rcases h with rfl | rfl <;> rfl

theorem dropSpace_hash (inComment : Bool) (cs : List Char) :
    dropSpace inComment ('#' :: cs) = dropSpace true cs := by
  cases inComment <;> rfl

/-- Whether a comment has begun does not matter: a text that holds nothing may follow in one. -/
theorem dropSpace_of_void {cs : List Char} (h : Void cs) (inComment : Bool) :
    dropSpace inComment cs = some [] := by
  induction h generalizing inComment with
  | nil => rfl
  | blank hc _ ih => rw [dropSpace_blank hc, ih]
  | lineBreak _ ih => exact ih false
  | carriageReturn _ ih => exact ih false
  | comment htext _ ih => rw [dropSpace_hash, dropSpace_true_append htext, ih]

theorem lines?_of_void {cs : List Char} (h : Void cs) (fuel : Nat) (d : Draft) :
    Draft.lines? (fuel + 1) d cs = some d := by
  rw [Draft.lines?, dropSpace_of_void h]
  rfl

theorem parse?_of_void {cs : List Char} (h : Void cs) : parse? cs = some [] := by
  have hmark : ∀ rest, cs ≠ '\ufeff' :: rest := by
    rintro rest rfl
    cases h with
    | blank hc => exact absurd hc (by decide)
  unfold parse?
  split
  next rest => exact absurd rfl (hmark rest)
  next =>
    show (Draft.lines? (cs.length + 1) {} cs).map (·.entries) = some []
    rw [lines?_of_void h]
    rfl

/-- The same behind a byte order mark. -/
theorem parse?_of_marked_void {cs : List Char} (h : Void cs) :
    parse? ('\ufeff' :: cs) = some [] := by
  show (Draft.lines? (cs.length + 1) {} cs).map (·.entries) = some []
  rw [lines?_of_void h]
  rfl

/-! ## Documents over nothing -/

theorem mergeEntries_of_new {under upper : Entries}
    (h : ((under ++ upper).map Prod.fst).Nodup) : mergeEntries under upper = under ++ upper := by
  induction upper generalizing under with
  | nil => rw [mergeEntries, List.append_nil]
  | cons e upper ih =>
    obtain ⟨key, node⟩ := e
    have hnew : key ∉ under.map Prod.fst := by
      rw [List.map_append, List.nodup_append] at h
      exact fun hkey => h.2.2 key hkey key (by simp) rfl
    have hlookup := Entries.lookup_eq_none_iff_notMem.mpr hnew
    have hput := Entries.put_append hlookup [] node
    rw [List.append_nil] at hput
    rw [mergeEntries, hlookup]
    show mergeEntries (under.put key node) upper = _
    rw [hput, ih (by simpa [Entries.put] using h)]
    simp [Entries.put]

theorem mergeEntries_nil {doc : Entries} (h : doc.Regular) : mergeEntries [] doc = doc :=
  mergeEntries_of_new h.1

end Wiretap.Toml

namespace Wiretap.Config

open Toml (Entries Void)

/-! ## One file -/

theorem loadMerged_singleton_of_document? {file : Bytes} {doc : Entries}
    (h : document? file = some doc) (tempDir : String) :
    loadMerged [some file] tempDir = load (some file) tempDir := by
  have hparsed : ∀ f ∈ [file], (document? f).isSome := by
    intro f hf
    rw [List.mem_singleton.mp hf, h]
    rfl
  have hdocs : [file].filterMap document? = [doc] := List.filterMap_cons_some h
  rw [load_of_document? h]
  refine (loadMerged_eq hparsed).trans ?_
  rw [hdocs, List.foldl_cons, List.foldl_nil, Toml.mergeEntries_nil (regular_of_document? h)]

/-- Neither accepts a file that holds no document. -/
theorem loadMerged_singleton_of_none {file : Bytes} (h : document? file = none)
    (tempDir : String) : (∃ e, loadMerged [some file] tempDir = .error e) ∧
      ∃ e, load (some file) tempDir = .error e := by
  have hfold : [some file].filterMap id = [file] := rfl
  cases htext : Text.Utf8.decode? file with
  | none =>
    refine ⟨⟨.unreadable .notText, ?_⟩, .unreadable .notText, ?_⟩
    · simp only [loadMerged, hfold, List.foldlM_cons, mergeFile, readText, htext, bind, Except.bind]
    · simp only [load, readText, htext, bind, Except.bind]
  | some text =>
    have hparse : Toml.parse? text = none := by
      rw [document?, htext] at h
      exact h
    refine ⟨⟨.malformedPart, ?_⟩, .malformed, ?_⟩
    · simp only [loadMerged, hfold, List.foldlM_cons, mergeFile, readText, htext, hparse, bind,
        Except.bind]
    · simp only [load, readText, htext, hparse, bind, Except.bind, Option.bind_none]

/-! ## Files that set nothing -/

/-- A file that is missing, or that holds nothing but blanks and comments. A byte order mark may
stand in front of them. -/
inductive Idle : Option Bytes → Prop where
  | missing : Idle none
  | void {file : Bytes} {text : List Char} (htext : Text.Utf8.decode? file = some text)
      (hvoid : Void text) : Idle (some file)
  | marked {file : Bytes} {text : List Char}
      (htext : Text.Utf8.decode? file = some ('\ufeff' :: text)) (hvoid : Void text) :
      Idle (some file)

/-- The second list is the first one with files put in that set nothing. -/
inductive Padded : List (Option Bytes) → List (Option Bytes) → Prop where
  | nil : Padded [] []
  | keep {files files' : List (Option Bytes)} (file : Option Bytes) (h : Padded files files') :
      Padded (file :: files) (file :: files')
  | insert {files files' : List (Option Bytes)} {file : Option Bytes} (hidle : Idle file)
      (h : Padded files files') : Padded files (file :: files')

theorem mergeFile_of_idle {file : Bytes} (h : Idle (some file)) (under : Entries) :
    mergeFile under file = .ok under := by
  have hdoc : document? file = some [] := by
    cases h with
    | void htext hvoid => rw [document?, htext]; exact Toml.parse?_of_void hvoid
    | marked htext hvoid => rw [document?, htext]; exact Toml.parse?_of_marked_void hvoid
  rw [mergeFile_of_document? hdoc, Toml.mergeEntries]

theorem foldlM_padded {files files' : List (Option Bytes)} (h : Padded files files')
    (under : Entries) :
    (files'.filterMap id).foldlM mergeFile under = (files.filterMap id).foldlM mergeFile under := by
  induction h generalizing under with
  | nil => rfl
  | keep file _ ih =>
    cases file with
    | none => exact ih under
    | some file =>
      simp only [List.filterMap_cons, id, List.foldlM_cons]
      exact congrArg _ (funext ih)
  | @insert _ _ file hidle _ ih =>
    cases file with
    | none => exact ih under
    | some file =>
      simp only [List.filterMap_cons, id, List.foldlM_cons, mergeFile_of_idle hidle]
      exact ih under

/-- **One file alone, and files that set nothing**, in any environment. A file makes the same
configuration in a list of one as it does alone, and is accepted there exactly when it is alone.
Files that are missing or hold nothing but blanks and comments can be put into a list of files, as
many as one likes and wherever one likes, and what the list comes to does not change. -/
theorem loadMerged_single_and_padded (tempDir : String) :
    (∀ file c, loadMerged [some file] tempDir = .ok c ↔ load (some file) tempDir = .ok c) ∧
      ∀ files files', Padded files files' →
        loadMerged files' tempDir = loadMerged files tempDir := by
  constructor
  · intro file c
    cases hdoc : document? file with
    | none =>
      obtain ⟨⟨e, he⟩, e', he'⟩ := loadMerged_singleton_of_none hdoc tempDir
      simp only [he, he', reduceCtorEq]
    | some doc => rw [loadMerged_singleton_of_document? hdoc]
  · intro files files' h
    rw [loadMerged, loadMerged, foldlM_padded h]

/-- A file that is missing, one with a comment and a blank line, and one with nothing but a byte
order mark, around a file that sets two keys. -/
theorem loadMerged_single_and_padded_around :
    let file := "hook = \x7b event_buffer = 0, scan_interval = 7 \x7d\n".toUTF8.toList
    let files := [none, some "# no key\t\n \t\r\n".toUTF8.toList, some file,
      some "\ufeff".toUTF8.toList]
    Padded [some file] files ∧
      load (some file) = .ok { hook := { eventBuffer := 1, scanInterval := 7 } } ∧
      loadMerged files = .ok { hook := { eventBuffer := 1, scanInterval := 7 } } := by
  intro file files
  have htext : ∀ c ∈ " no key\t".toList, Toml.Quoted.isPlain c = true :=
    List.all_eq_true.mp (by decide)
  have hcomment : Void "# no key\t\n \t\r\n".toList :=
    .comment htext (.lineBreak (.blank rfl (.blank rfl (.carriageReturn .nil))))
  have hpadded : Padded [some file] files :=
    .insert .missing (.insert (.void (by decide +kernel) hcomment)
      (.keep (some file) (.insert (.marked (by decide +kernel) .nil) .nil)))
  have hload : load (some file) = .ok { hook := { eventBuffer := 1, scanInterval := 7 } } := by
    decide +kernel
  obtain ⟨hsingle, hmany⟩ := loadMerged_single_and_padded temporaryDirectory
  exact ⟨hpadded, hload, (hmany _ _ hpadded).trans ((hsingle file _).mpr hload)⟩

end Wiretap.Config
