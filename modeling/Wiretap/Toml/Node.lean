/-!
# TOML documents

A document is a table of nodes. Tables and arrays remember how they were written, because that
decides what may still be added to them: a table of a header, one that a longer header or key path
implies, one that dotted keys build, and one in braces, which is complete where it stands.

Results:

* `lookup_put`: writing a key changes that key and no other.
-/

namespace Wiretap.Toml

/-- How a table was written. -/
inductive TableStyle where
  | header
  | implicit
  | dotted
  | inline
  deriving DecidableEq, Repr

/-- How an array was written: as a value in brackets, or as a run of headers in double brackets. -/
inductive ArrayStyle where
  | inline
  | tables
  deriving DecidableEq, Repr

/-- A value with all that it holds. Numbers with a point and times keep their text. -/
inductive Node where
  | string (s : String)
  | integer (n : Int)
  | float (text : String)
  | boolean (b : Bool)
  | datetime (text : String)
  | array (style : ArrayStyle) (items : List Node)
  | table (style : TableStyle) (entries : List (String × Node))
  deriving Repr

/-- The keys of a table with their values, each key once. -/
abbrev Entries := List (String × Node)

namespace Entries

/-- Gives a key a value: in its place if the table has it, else at the end. -/
def put : Entries → String → Node → Entries
  | [], key, node => [(key, node)]
  | (k, n) :: rest, key, node => if key = k then (k, node) :: rest else (k, n) :: put rest key node

theorem lookup_put (es : Entries) (key key' : String) (node : Node) :
    (es.put key node).lookup key' = if key' = key then some node else es.lookup key' := by
  induction es with
  | nil =>
    by_cases h : key' = key
    · simp [put, h]
    · have hb : (key' == key) = false := by simp [h]
      simp [put, List.lookup_cons, h, hb]
  | cons e rest ih =>
    obtain ⟨k, n⟩ := e
    by_cases hk : key = k
    · subst hk
      by_cases h : key' = key
      · simp [put, h]
      · have hb : (key' == key) = false := by simp [h]
        simp [put, List.lookup_cons, h, hb]
    · by_cases h : key' = k
      · subst h
        have : ¬ key' = key := fun e => hk e.symm
        simp [put, hk, this]
      · have hb : (key' == k) = false := by simp [h]
        simp [put, hk, List.lookup_cons, hb, ih]

/-- Applies `f` to the table that a path leads to, and puts the result in its place. A path leads
through tables that are not in braces, and through the last table of an array of tables; what is
missing on it is made. A path of dotted keys stops at a table that has its own header. -/
def alter (dotted : Bool) (f : TableStyle → Entries → Option (TableStyle × Entries)) :
    List String → TableStyle → Entries → Option (TableStyle × Entries)
  | [], style, es => f style es
  | key :: path, style, es =>
    match es.lookup key with
    | none =>
      (alter dotted f path (if dotted then .dotted else .implicit) []).map fun (s, inner) =>
        (style, es.put key (.table s inner))
    | some (.table s inner) =>
      if s = .inline ∨ (dotted ∧ s = .header) then none
      else (alter dotted f path s inner).map fun (s, inner) => (style, es.put key (.table s inner))
    | some (.array .tables items) =>
      match items.getLast? with
      | some (.table s inner) =>
        (alter dotted f path s inner).map fun (s, inner) =>
          (style, es.put key (.array .tables (items.dropLast ++ [.table s inner])))
      | _ => none
    | some _ => none

/-- Adds a key with its value to a table. The path of a dotted key must end in a table that dotted
keys build, and no key is given twice. -/
def addKey (path : List String) (key : String) (node : Node) :
    TableStyle → Entries → Option (TableStyle × Entries) :=
  alter true (fun style es =>
    if (style == .dotted) == path.isEmpty then none
    else if (es.lookup key).isSome then none
    else some (style, es ++ [(key, node)])) path

/-- Begins the table of a header. Only a table that is merely implied may be there already. -/
def openTable (path : List String) (key : String) :
    TableStyle → Entries → Option (TableStyle × Entries) :=
  alter false (fun style es =>
    match es.lookup key with
    | none => some (style, es.put key (.table .header []))
    | some (.table .implicit inner) => some (style, es.put key (.table .header inner))
    | some _ => none) path

/-- Begins the next table of an array of tables. -/
def openElement (path : List String) (key : String) :
    TableStyle → Entries → Option (TableStyle × Entries) :=
  alter false (fun style es =>
    match es.lookup key with
    | none => some (style, es.put key (.array .tables [.table .header []]))
    | some (.array .tables items) =>
      some (style, es.put key (.array .tables (items ++ [.table .header []])))
    | some _ => none) path

end Entries

/-! ## Merging -/

mutual

/-- Model of `merge_item`: lays a node over another. Tables that are not in braces merge key by
key, arrays of tables follow one another, and anything else is replaced. -/
def Node.merge : (under upper : Node) → Node
  | .table _ _, .table .inline es' => .table .inline es'
  | .table .inline _, .table s es' => .table s es'
  | .table s es, .table _ es' => .table s (mergeEntries es es')
  | .array .tables items, .array .tables items' => .array .tables (items ++ items')
  | _, upper => upper

/-- Model of `merge_document`: lays the entries of a table over those of another. -/
def mergeEntries (under : Entries) : (upper : Entries) → Entries
  | [] => under
  | (key, node) :: rest =>
    mergeEntries (under.put key (match under.lookup key with
      | none => node
      | some old => old.merge node)) rest

end

end Wiretap.Toml
