import Wiretap.Proofs.Config.Layers

/-!
# What several files set

The configuration of several files has, under each key, the value of one of the settings that the
files hold for it, or its default. Which setting that is depends on how the section is written: as
long as no file writes it in braces, or as an array, it is that of the last file.

Results:

* `ofDocument?_foldl`: documents that are accepted one by one are accepted together.
* `loadMerged_value`: files that are accepted one by one are accepted together, and the value of
  each key.
* `not_last_of_braces`: a section in braces makes the settings of earlier files void.
-/

namespace Wiretap.Config

open Toml (Node Entries stack visible)

variable {tempDir : String}

/-! ## Settings -/

/-- The document of a file. -/
def document? (file : Bytes) : Option Entries := (Text.Utf8.decode? file).bind Toml.parse?

/-- The sections of a configuration, each with its keys. -/
def knownKeys : List (String × List String) :=
  [("hook", hookFields.map Prod.fst), ("platform", platformFields.map Prod.fst),
    ("supervisor", supervisorFields.map Prod.fst), ("opcodes", opcodeFields.map Prod.fst)]

/-- The nodes that documents hold for a section. That of the last document comes first. -/
def sectionNodes (docs : List Entries) (section_ : String) : List Node :=
  docs.reverse.filterMap (·.lookup section_)

/-- The setting for a key that the last of the nodes holds. -/
def lastSetting? (keys : List String) (key : String) (nodes : List Node) : Option Node :=
  nodes.findSome? (nodeAt? keys key)

/-- The keys of `hook` whose values are never zero. -/
def raisedKeys : List String := ["dial_attempts", "event_buffer", "block_buffer"]

/-- A value as it is taken: where zero is not a value, it is one. -/
def Scalar.raise (section_ key : String) : Scalar → Scalar
  | .number n => .number (if section_ = "hook" ∧ key ∈ raisedKeys then max n 1 else n)
  | v => v

/-- The value that a key has, given its setting. -/
def valueFrom (tempDir section_ key : String) : Option Node → Option Scalar
  | none => (defaults tempDir).value? section_ key
  | some node => (Scalar.ofNode? node).map (Scalar.raise section_ key)

/-! ## Raising -/

theorem toNat_attempts (a : UInt32) : (attempts a).toNat = max a.toNat 1 := by
  unfold attempts
  split
  next h => simp [h]
  next h =>
    have : a.toNat ≠ 0 := fun h0 => h (UInt32.toNat_inj.mp h0)
    omega

theorem toNat_capacity (a : UInt64) : (capacity a).toNat = max a.toNat 1 := by
  unfold capacity
  split
  next h => simp [h]
  next h =>
    have : a.toNat ≠ 0 := fun h0 => h (UInt64.toNat_inj.mp h0)
    omega

theorem lookup_map_value {α β : Type} (g : String → α → β) (es : List (String × α)) (key : String) :
    (es.map fun e => (e.1, g e.1 e.2)).lookup key = (es.lookup key).map (g key) := by
  induction es with
  | nil => rfl
  | cons e es ih =>
    obtain ⟨k, v⟩ := e
    rw [List.map_cons, List.lookup_cons, List.lookup_cons]
    cases hk : key == k with
    | true => simp [eq_of_beq hk]
    | false => exact ih

theorem sections_raised (c : Config) :
    c.raised.sections = c.sections.map fun s =>
      (s.1, s.2.map fun e => (e.1, e.2.raise s.1 e.1)) := by
  have hother : ∀ {name}, name ≠ "hook" → ∀ key v, Scalar.raise name key v = v := by
    rintro name hname key (s | n | b)
    · rfl
    · exact congrArg Scalar.number (if_neg fun h => hname h.1)
    · rfl
  simp only [sections, raised, List.map_cons, List.map_nil, hother (by decide : "platform" ≠ "hook"),
    hother (by decide : "supervisor" ≠ "hook"), hother (by decide : "opcodes" ≠ "hook"), List.map_id']
  simp [Scalar.raise, raisedKeys, toNat_attempts, toNat_capacity]

theorem value?_raised (c : Config) (section_ key : String) :
    c.raised.value? section_ key = (c.value? section_ key).map (Scalar.raise section_ key) := by
  have hsection := lookup_map_value
    (fun name (es : List (String × Scalar)) => es.map fun e => (e.1, e.2.raise name e.1))
    c.sections section_
  unfold value? entries
  rw [sections_raised, hsection]
  cases c.sections.lookup section_ with
  | none => rfl
  | some es => exact lookup_map_value (Scalar.raise section_) es key

/-- The defaults are raised already. -/
theorem value?_raised_of_setting {c : Config} {section_ key : String} {setting : Option Node}
    (h : c.value? section_ key =
      match setting with
      | some node => Scalar.ofNode? node
      | none => (defaults tempDir).value? section_ key) :
    c.raised.value? section_ key = valueFrom tempDir section_ key setting := by
  rw [value?_raised, h]
  cases setting with
  | none =>
    have hdefault : (defaults tempDir).raised = defaults tempDir := rfl
    rw [← value?_raised, hdefault]
    rfl
  | some node => rfl

/-! ## Documents -/

/-- Reads a section that may be missing. -/
def sectionOr? {σ : Type} (fields : List (Field σ)) (start : σ) : Option Node → Option σ
  | none => some start
  | some node => section? fields start node

/-- A field of a section that is itself a section. -/
theorem readFields_cons_section {σ τ : Type} {inner : List (Field σ)} {start : σ} {put : τ → σ → τ}
    {c : τ} (h : put c start = c) (key : String) (outer : List (Field τ))
    (look : String → Option Node) :
    readFields ((key, fun c node => (section? inner start node).map (put c)) :: outer) look c =
      (sectionOr? inner start (look key)).bind fun s => readFields outer look (put c s) := by
  cases hlook : look key with
  | none =>
    rw [readFields_cons_none hlook]
    exact congrArg (readFields outer look) h.symm
  | some node =>
    rw [readFields_cons_some hlook]
    exact Option.bind_map

theorem ofDocument?_eq (doc : Entries) :
    ofDocument? tempDir doc =
      (sectionOr? hookFields {} (doc.lookup "hook")).bind fun hook =>
        (sectionOr? platformFields (defaults tempDir).platform (doc.lookup "platform")).bind
            fun platform =>
          (sectionOr? supervisorFields {} (doc.lookup "supervisor")).bind fun supervisor =>
            (sectionOr? opcodeFields {} (doc.lookup "opcodes")).map fun opcodes =>
              raised { hook, platform, supervisor, opcodes } := by
  have hread : ofDocument? tempDir doc =
      (readFields (fields tempDir) (doc.lookup ·) (defaults tempDir)).map raised := rfl
  rw [hread, fields, readFields_cons_section rfl, Option.map_bind]
  congr 1; funext hook
  rw [Function.comp, readFields_cons_section rfl, Option.map_bind]
  congr 1; funext platform
  rw [Function.comp, readFields_cons_section rfl, Option.map_bind]
  congr 1; funext supervisor
  rw [Function.comp, readFields_cons_section rfl, Option.map_bind]
  cases sectionOr? opcodeFields {} (doc.lookup "opcodes") <;> rfl

section

variable {σ : Type} {view : σ → List (String × Scalar)} {fields : List (Field σ)} {start : σ}

/-- One section of documents that are laid over one another. -/
theorem section_of_docs (law : Lawful fields view) (hne : fields ≠ []) {docs : List Entries}
    {section_ : String} (hregular : ∀ doc ∈ docs, doc.Regular)
    (hread : ∀ doc ∈ docs, (sectionOr? fields start (doc.lookup section_)).isSome) :
    ∃ s, sectionOr? fields start ((docs.foldl Toml.mergeEntries []).lookup section_) = some s ∧
      ∀ key ∈ fields.map Prod.fst, (view s).lookup key =
        match lastSetting? (fields.map Prod.fst) key (visible (sectionNodes docs section_)) with
        | some node => Scalar.ofNode? node
        | none => (view start).lookup key := by
  rw [Toml.lookup_foldl_mergeEntries fun doc hdoc => (hregular doc hdoc).1]
  have hnodes : ∀ n ∈ sectionNodes docs section_,
      n.Regular ∧ (section? fields start n).isSome := by
    intro n hn
    obtain ⟨doc, hdoc, hlookup⟩ := List.mem_filterMap.mp hn
    have hdoc := List.mem_reverse.mp hdoc
    have hread := hread doc hdoc
    rw [hlookup] at hread
    exact ⟨Toml.Entries.regular_of_lookup (hregular doc hdoc) hlookup, hread⟩
  change ∃ s, sectionOr? fields start (stack (sectionNodes docs section_)) = some s ∧ _
  cases hstack : stack (sectionNodes docs section_) with
  | none =>
    -- no document has the section
    have hnil : sectionNodes docs section_ = [] := by
      cases hcases : sectionNodes docs section_ with
      | nil => rfl
      | cons top below => rw [hcases, stack] at hstack; cases hstack
    exact ⟨start, rfl, fun key _ => by rw [hnil]; rfl⟩
  | some node =>
    have hcomposite := composite_of_stack law hne hnodes hstack
    obtain ⟨s, hs⟩ := Option.isSome_iff_exists.mp hcomposite.accepted
    refine ⟨s, hs, fun key hkey => ?_⟩
    rw [section?_eq_readFields law.keys] at hs
    split at hs
    next =>
      rw [lookup_of_readFields law.keys law.writes hs hkey, hcomposite.nodeAt key hkey]
      rfl
    next => cases hs

end

/-! ## Files -/

/-- A file that is accepted holds a document whose sections are all accepted. -/
theorem exists_of_load {file : Option Bytes} {c : Config} (h : load file tempDir = .ok c) :
    ∃ bytes doc, file = some bytes ∧ document? bytes = some doc ∧
      ofDocument? tempDir doc = some c := by
  cases file with
  | none => cases h
  | some bytes =>
    cases htext : Text.Utf8.decode? bytes with
    | none => simp only [load, readText, htext, bind, Except.bind, reduceCtorEq] at h
    | some text =>
      simp only [load, readText, htext, bind, Except.bind] at h
      split at h
      next hc =>
        cases h
        obtain ⟨doc, hdoc, hc⟩ := Option.bind_eq_some_iff.mp hc
        exact ⟨bytes, doc, rfl, by rw [document?, htext]; exact hdoc, hc⟩
      next => cases h

theorem regular_of_document? {file : Bytes} {doc : Entries} (h : document? file = some doc) :
    doc.Regular := by
  obtain ⟨text, -, hdoc⟩ := Option.bind_eq_some_iff.mp h
  exact Toml.regular_of_parse? hdoc

theorem load_of_document? {file : Bytes} {doc : Entries} (h : document? file = some doc) :
    load (some file) tempDir =
      match ofDocument? tempDir doc with
      | some config => .ok config
      | none => .error .malformed := by
  obtain ⟨text, htext, hdoc⟩ := Option.bind_eq_some_iff.mp h
  cases hconfig : ofDocument? tempDir doc with
  | none => simp only [load, readText, htext, bind, Except.bind, hdoc, Option.bind_some, hconfig]
  | some config =>
    simp only [load, readText, htext, bind, Except.bind, hdoc, Option.bind_some, hconfig]

theorem mergeFile_of_document? {file : Bytes} {doc : Entries} (h : document? file = some doc)
    (under : Entries) : mergeFile under file = .ok (Toml.mergeEntries under doc) := by
  obtain ⟨text, htext, hdoc⟩ := Option.bind_eq_some_iff.mp h
  simp only [mergeFile, readText, htext, hdoc, bind, Except.bind]

theorem foldlM_mergeFile {files : List Bytes} (h : ∀ f ∈ files, (document? f).isSome)
    (under : Entries) :
    files.foldlM mergeFile under =
      .ok ((files.filterMap document?).foldl Toml.mergeEntries under) := by
  induction files generalizing under with
  | nil => rfl
  | cons f files ih =>
    rw [List.forall_mem_cons] at h
    obtain ⟨doc, hdoc⟩ := Option.isSome_iff_exists.mp h.1
    rw [List.foldlM_cons, mergeFile_of_document? hdoc, List.filterMap_cons_some hdoc,
      List.foldl_cons, ← ih h.2]
    rfl

theorem loadMerged_eq {files : List Bytes} (h : ∀ f ∈ files, (document? f).isSome) :
    loadMerged (files.map some) tempDir =
      match ofDocument? tempDir ((files.filterMap document?).foldl Toml.mergeEntries []) with
      | some config => .ok config
      | none => .error .malformed := by
  have hfiles : (files.map some).filterMap id = files := by simp
  rw [loadMerged, hfiles, foldlM_mergeFile h]
  rfl

/-- The sections of a document that is accepted are accepted. -/
theorem sections_of_ofDocument? {doc : Entries} (h : (ofDocument? tempDir doc).isSome) :
    (sectionOr? hookFields {} (doc.lookup "hook")).isSome ∧
      (sectionOr? platformFields (defaults tempDir).platform (doc.lookup "platform")).isSome ∧
      (sectionOr? supervisorFields {} (doc.lookup "supervisor")).isSome ∧
      (sectionOr? opcodeFields {} (doc.lookup "opcodes")).isSome := by
  rw [ofDocument?_eq] at h
  simp only [Option.isSome_bind, Option.isSome_map, Option.any_eq_true] at h
  obtain ⟨hook, hhook, platform, hplatform, supervisor, hsupervisor, hopcodes⟩ := h
  simp [hhook, hplatform, hsupervisor, hopcodes]

theorem document?_of_isOk {file : Bytes} (h : (load (some file) tempDir).isOk) :
    ∃ doc, document? file = some doc ∧ (ofDocument? tempDir doc).isSome := by
  cases hload : load (some file) tempDir with
  | error e =>
    rw [hload] at h
    cases h
  | ok c =>
    obtain ⟨bytes, doc, hbytes, hdoc, hc⟩ := exists_of_load hload
    cases hbytes
    exact ⟨doc, hdoc, Option.isSome_of_eq_some hc⟩

/-- The documents of files that are accepted one by one. -/
theorem documents_of_isOk {files : List Bytes} (h : ∀ f ∈ files, (load (some f) tempDir).isOk) :
    ∀ doc ∈ files.filterMap document?, doc.Regular ∧ (ofDocument? tempDir doc).isSome := by
  intro doc hmem
  obtain ⟨f, hf, hdoc⟩ := List.mem_filterMap.mp hmem
  obtain ⟨doc', hdoc', hread⟩ := document?_of_isOk (h f hf)
  cases hdoc.symm.trans hdoc'
  exact ⟨regular_of_document? hdoc, hread⟩

/-- **What documents come to that are laid over one another.** -/
theorem ofDocument?_foldl {docs : List Entries}
    (h : ∀ doc ∈ docs, doc.Regular ∧ (ofDocument? tempDir doc).isSome) :
    ∃ c, ofDocument? tempDir (docs.foldl Toml.mergeEntries []) = some c ∧
      ∀ section_ keys, (section_, keys) ∈ knownKeys → ∀ key ∈ keys,
        c.value? section_ key = valueFrom tempDir section_ key
          (lastSetting? keys key (visible (sectionNodes docs section_))) := by
  have hregular := fun doc hdoc => (h doc hdoc).1
  have hread := fun doc hdoc => sections_of_ofDocument? (h doc hdoc).2
  obtain ⟨hook, hhook, hookValue⟩ := section_of_docs hookFields_lawful (by decide) hregular
    fun doc hdoc => (hread doc hdoc).1
  obtain ⟨platform, hplatform, platformValue⟩ := section_of_docs platformFields_lawful (by decide)
    hregular fun doc hdoc => (hread doc hdoc).2.1
  obtain ⟨supervisor, hsupervisor, supervisorValue⟩ := section_of_docs supervisorFields_lawful
    (by decide) hregular fun doc hdoc => (hread doc hdoc).2.2.1
  obtain ⟨opcodes, hopcodes, opcodesValue⟩ := section_of_docs opcodeFields_lawful (by decide)
    hregular fun doc hdoc => (hread doc hdoc).2.2.2
  refine ⟨raised { hook, platform, supervisor, opcodes }, ?_, ?_⟩
  · rw [ofDocument?_eq, hhook, hplatform, hsupervisor, hopcodes]
    rfl
  · intro section_ keys hsection key hkey
    refine value?_raised_of_setting ?_
    simp only [knownKeys, List.mem_cons, List.not_mem_nil, or_false, Prod.mk.injEq] at hsection
    rcases hsection with ⟨rfl, rfl⟩ | ⟨rfl, rfl⟩ | ⟨rfl, rfl⟩ | ⟨rfl, rfl⟩
    · exact hookValue key hkey
    · exact platformValue key hkey
    · exact supervisorValue key hkey
    · exact opcodesValue key hkey

/-- **What several files set**, in any environment. Files that are accepted one by one are accepted
together. Each key has the value of the last of its settings that are not hidden, or else its
default; and where no file writes the section in braces or as an array, that is the last of all its
settings. -/
theorem loadMerged_value (tempDir : String) (files : List Bytes)
    (h : ∀ f ∈ files, (load (some f) tempDir).isOk) :
    ∃ c, loadMerged (files.map some) tempDir = .ok c ∧
      ∀ section_ keys, (section_, keys) ∈ knownKeys → ∀ key ∈ keys,
        let nodes := sectionNodes (files.filterMap document?) section_
        c.value? section_ key =
            valueFrom tempDir section_ key (lastSetting? keys key (visible nodes)) ∧
          ((∀ node ∈ nodes, node.isOpen) →
            c.value? section_ key =
              valueFrom tempDir section_ key (lastSetting? keys key nodes)) := by
  have hparsed : ∀ f ∈ files, (document? f).isSome := by
    intro f hf
    obtain ⟨doc, hdoc, -⟩ := document?_of_isOk (h f hf)
    exact Option.isSome_of_eq_some hdoc
  obtain ⟨c, hc, hvalue⟩ := ofDocument?_foldl (documents_of_isOk h)
  refine ⟨c, by rw [loadMerged_eq hparsed, hc], ?_⟩
  intro section_ keys hsection key hkey nodes
  have hkeyValue := hvalue section_ keys hsection key hkey
  refine ⟨hkeyValue, fun hopen => ?_⟩
  rw [hkeyValue, Toml.visible_of_open hopen]

/-- A header table, and dotted keys over it. The environment says where the sockets are. -/
theorem loadMerged_value_dotted :
    let files := ["[hook]\nprocess_name = \"game\"\ndial_attempts = 3\n".toUTF8.toList,
      "hook.dial_attempts = 0\n".toUTF8.toList]
    (∀ f ∈ files, (load (some f) "/run/t").isOk) ∧
      ∃ c, loadMerged (files.map some) "/run/t" = .ok c ∧
        c.value? "hook" "process_name" = some (.text "game") ∧
        c.value? "hook" "dial_attempts" = some (.number 1) ∧
        c.value? "platform" "socket_dir" = some (.text "/run/t") := by
  intro files
  have hfiles : ∀ f ∈ files, (load (some f) "/run/t").isOk := by decide +kernel
  obtain ⟨c, hc, hvalue⟩ := loadMerged_value "/run/t" files hfiles
  have hhook := hvalue "hook" _ List.mem_cons_self
  have hplatform := hvalue "platform" _ (List.mem_cons_of_mem _ List.mem_cons_self)
  refine ⟨hfiles, c, hc, ?_, ?_, ?_⟩
  · rw [(hhook "process_name" (by decide)).1]
    decide +kernel
  · rw [(hhook "dial_attempts" (by decide)).1]
    decide +kernel
  · rw [(hplatform "socket_dir" (by decide)).1]
    decide +kernel

/-- **The last file that sets a key need not win**: a section in braces takes the place of that of
the files before it, with all the keys that it does not have. -/
theorem not_last_of_braces :
    let files := ["[hook]\nprocess_name = \"game\"\n".toUTF8.toList,
      "hook = \x7b dial_attempts = 7 \x7d\n".toUTF8.toList]
    (∀ f ∈ files, (load (some f)).isOk) ∧
      ∃ c, loadMerged (files.map some) = .ok c ∧
        valueFrom temporaryDirectory "hook" "process_name"
          (lastSetting? (hookFields.map Prod.fst) "process_name"
            (sectionNodes (files.filterMap document?) "hook")) = some (.text "game") ∧
        c.value? "hook" "process_name" = some (.text "ffxiv_dx11.exe") := by
  intro files
  refine ⟨by decide +kernel, { hook := { dialAttempts := 7 } }, ?_, ?_, ?_⟩
  · decide +kernel
  · decide +kernel
  · decide +kernel

end Wiretap.Config
