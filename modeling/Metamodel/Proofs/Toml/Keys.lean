import Metamodel.Toml.Document
import Mathlib.Data.List.Nodup

/-!
# Keys of documents

A document defines no key twice: in every table that a reader gives, be it the document itself, one
with a header, one of several that share a header, one made by dotted keys or an inline table, the
keys are distinct (`Document.wellKeyed_of_read?`). This is settled where keys are added to the tree,
for the changes of a tree put nodes under keys and in no other way (`Entries.WellKeyed.put`).
-/

namespace Metamodel.Toml

/-- Whether a value is neither an array nor a table. -/
def Value.isScalar : Value → Bool
  | .array _ | .table _ => false
  | _ => true

/-- All tables in a value have distinct keys. -/
inductive Value.WellKeyed : Value → Prop where
  | scalar {value : Value} : value.isScalar = true → WellKeyed value
  | array {items : List Value} : (∀ item ∈ items, WellKeyed item) → WellKeyed (.array items)
  | table {entries : List (String × Value)} :
    (entries.map (·.1)).Nodup → (∀ entry ∈ entries, WellKeyed entry.2) →
    WellKeyed (.table entries)

/-- All tables under a node have distinct keys. -/
inductive Node.WellKeyed : Node → Prop where
  | leaf {value : Value} : value.WellKeyed → WellKeyed (.leaf value)
  | table {origin : Origin} {entries : Entries} :
    (entries.map (·.1)).Nodup → (∀ entry ∈ entries, WellKeyed entry.2) →
    WellKeyed (.table origin entries)
  | tables {earlier : List Entries} {last : Entries} :
    (∀ entries ∈ last :: earlier, (entries.map (·.1)).Nodup) →
    (∀ entries ∈ last :: earlier, ∀ entry ∈ entries, WellKeyed entry.2) →
    WellKeyed (.tables earlier last)

/-- The keys are distinct, and so are those of all tables below. -/
structure Entries.WellKeyed (entries : Entries) : Prop where
  nodup : (entries.map (·.1)).Nodup
  nodes : ∀ entry ∈ entries, entry.2.WellKeyed

/-- The keys of a document are distinct, and so are those of all tables below. -/
structure Document.WellKeyed (entries : List (String × Value)) : Prop where
  nodup : (entries.map (·.1)).Nodup
  values : ∀ entry ∈ entries, entry.2.WellKeyed

/-! ### Nodes and their values -/

namespace Node

theorem wellKeyed_table_iff {origin : Origin} {entries : Entries} :
    (Node.table origin entries).WellKeyed ↔ entries.WellKeyed := by
  constructor
  · rintro (_ | ⟨hnodup, hnodes⟩)
    exact ⟨hnodup, hnodes⟩
  · rintro ⟨hnodup, hnodes⟩
    exact .table hnodup hnodes

theorem wellKeyed_tables_iff {earlier : List Entries} {last : Entries} :
    (Node.tables earlier last).WellKeyed ↔
      last.WellKeyed ∧ ∀ entries ∈ earlier, entries.WellKeyed := by
  rw [← List.forall_mem_cons (p := Entries.WellKeyed)]
  constructor
  · rintro (_ | _ | ⟨hnodup, hnodes⟩) entries hentries
    exact ⟨hnodup entries hentries, hnodes entries hentries⟩
  · intro h
    exact .tables (fun entries hentries => (h entries hentries).nodup)
      fun entries hentries => (h entries hentries).nodes

theorem tableValues_eq_map (entries : Entries) :
    tableValues entries = entries.map fun entry => (entry.1, entry.2.value) := by
  induction entries with
  | nil => rfl
  | cons entry rest ih => rw [tableValues, ih, List.map_cons]

theorem arrayValues_eq_map (earlier : List Entries) :
    arrayValues earlier = earlier.map fun entries => .table (tableValues entries) := by
  induction earlier with
  | nil => rfl
  | cons entries rest ih => rw [arrayValues, ih, List.map_cons]

/-- Tables keep their keys when their nodes become values. -/
theorem map_fst_tableValues (entries : Entries) :
    (tableValues entries).map (·.1) = entries.map (·.1) := by
  rw [tableValues_eq_map, List.map_map]
  rfl

/-- A node with distinct keys has a value with distinct keys. -/
theorem WellKeyed.value {node : Node} (h : node.WellKeyed) : node.value.WellKeyed := by
  have htable {entries : Entries} (hnodup : (entries.map (·.1)).Nodup)
      (hvalues : ∀ entry ∈ entries, entry.2.value.WellKeyed) :
      (Value.table (tableValues entries)).WellKeyed := by
    refine .table (map_fst_tableValues entries ▸ hnodup) ?_
    rw [tableValues_eq_map, List.forall_mem_map]
    exact hvalues
  induction h with
  | leaf hvalue => exact hvalue
  | table hnodup _ ih => exact htable hnodup ih
  | tables hnodup _ ih =>
    refine .array fun item hitem => ?_
    rw [arrayValues_eq_map, List.mem_append, List.mem_map, List.mem_singleton] at hitem
    rcases hitem with ⟨entries, hentries, rfl⟩ | rfl
    · exact htable (hnodup _ (List.mem_cons_of_mem _ hentries))
        (ih _ (List.mem_cons_of_mem _ hentries))
    · exact htable (hnodup _ List.mem_cons_self) (ih _ List.mem_cons_self)

end Node

/-! ### The tree -/

namespace Entries

variable {entries entries' : Entries} {key : String} {node : Node} {value : Value}

theorem wellKeyed_nil : WellKeyed [] := ⟨.nil, by simp⟩

/-- What stands under a key has distinct keys. -/
theorem WellKeyed.of_get? (h : entries.WellKeyed) (hget : entries.get? key = some node) :
    node.WellKeyed := by
  obtain ⟨entry, hfound, rfl⟩ := Option.map_eq_some_iff.1 hget
  exact h.nodes entry (List.mem_of_find?_eq_some hfound)

/-- A node that is put under a key takes the place of what was there. -/
theorem WellKeyed.put (h : entries.WellKeyed) (hnode : node.WellKeyed) :
    (entries.put key node).WellKeyed := by
  by_cases htaken : entries.any (·.1 = key) = true
  · rw [Entries.put, if_pos htaken]
    constructor
    · have hkeys : (entries.map fun entry => if entry.1 = key then (key, node) else entry).map
          (·.1) = entries.map (·.1) := by
        rw [List.map_map]
        refine List.map_congr_left fun entry _ => ?_
        by_cases hkey : entry.1 = key <;> simp [hkey]
      rw [hkeys]
      exact h.nodup
    · rw [List.forall_mem_map]
      intro entry hentry
      split
      · exact hnode
      · exact h.nodes entry hentry
  · rw [Entries.put, if_neg htaken]
    constructor
    · rw [List.map_append, List.map_singleton, ← List.concat_eq_append]
      refine h.nodup.concat fun hkey => htaken ?_
      obtain ⟨entry, hentry, rfl⟩ := List.mem_map.1 hkey
      exact List.any_eq_true.2 ⟨entry, hentry, by simp⟩
    · rw [List.forall_mem_append, List.forall_mem_singleton]
      exact ⟨h.nodes, hnode⟩

/-- A change of one table, wherever it stands, leaves all keys distinct if it does in the table. -/
theorem WellKeyed.descend {change : Entries → Option Entries}
    (hchange : ∀ inner inner', inner.WellKeyed → change inner = some inner' → inner'.WellKeyed)
    {path : List String} (h : entries.WellKeyed)
    (hdescend : descend change path entries = some entries') : entries'.WellKeyed := by
  induction path generalizing entries entries' with
  | nil => exact hchange _ _ h hdescend
  | cons key rest ih =>
    rw [Entries.descend] at hdescend
    split at hdescend
    · obtain ⟨inner, hinner, rfl⟩ := Option.map_eq_some_iff.1 hdescend
      exact h.put (Node.wellKeyed_table_iff.2 (ih wellKeyed_nil hinner))
    · next origin inner hget =>
      obtain ⟨inner', hinner, rfl⟩ := Option.map_eq_some_iff.1 hdescend
      exact h.put (Node.wellKeyed_table_iff.2
        (ih (Node.wellKeyed_table_iff.1 (h.of_get? hget)) hinner))
    · next earlier last hget =>
      obtain ⟨last', hlast, rfl⟩ := Option.map_eq_some_iff.1 hdescend
      obtain ⟨hlast', hearlier⟩ := Node.wellKeyed_tables_iff.1 (h.of_get? hget)
      exact h.put (Node.wellKeyed_tables_iff.2 ⟨ih hlast' hlast, hearlier⟩)
    · cases hdescend

/-- So does a value under a dotted key. -/
theorem WellKeyed.insert (hvalue : value.WellKeyed) {path : List String} (h : entries.WellKeyed)
    (hinsert : insert value path entries = some entries') : entries'.WellKeyed := by
  -- the cases are those of the definition, by what stands under the first key
  fun_induction Entries.insert value path entries generalizing entries' with
  | case1 | case2 | case7 | case9 | case10 => cases hinsert
  | case3 =>
    cases hinsert
    exact h.put (.leaf hvalue)
  | case4 entries key next rest hget ih =>
    obtain ⟨inner, hinner, rfl⟩ := Option.map_eq_some_iff.1 hinsert
    exact h.put (Node.wellKeyed_table_iff.2 (ih wellKeyed_nil hinner))
  | case5 entries key next rest inner hget ih | case6 entries key next rest inner hget ih =>
    obtain ⟨inner', hinner, rfl⟩ := Option.map_eq_some_iff.1 hinsert
    exact h.put (Node.wellKeyed_table_iff.2
      (ih (Node.wellKeyed_table_iff.1 (h.of_get? hget)) hinner))
  | case8 entries key next rest earlier last hget _ ih =>
    obtain ⟨last', hlast, rfl⟩ := Option.map_eq_some_iff.1 hinsert
    obtain ⟨hlast', hearlier⟩ := Node.wellKeyed_tables_iff.1 (h.of_get? hget)
    exact h.put (Node.wellKeyed_tables_iff.2 ⟨ih hlast' hlast, hearlier⟩)

/-- A header opens an empty table, or one that has keys already. -/
theorem WellKeyed.openTable (h : entries.WellKeyed)
    (hopen : openTable key entries = some entries') : entries'.WellKeyed := by
  rw [Entries.openTable] at hopen
  split at hopen
  · cases hopen
    exact h.put (Node.wellKeyed_table_iff.2 wellKeyed_nil)
  · next inner hget =>
    cases hopen
    exact h.put (Node.wellKeyed_table_iff.2 (Node.wellKeyed_table_iff.1 (h.of_get? hget)))
  · cases hopen

theorem WellKeyed.openNextTable (h : entries.WellKeyed)
    (hopen : openNextTable key entries = some entries') : entries'.WellKeyed := by
  rw [Entries.openNextTable] at hopen
  split at hopen
  · cases hopen
    exact h.put (Node.wellKeyed_tables_iff.2 ⟨wellKeyed_nil, by simp⟩)
  · next earlier last hget =>
    cases hopen
    obtain ⟨hlast, hearlier⟩ := Node.wellKeyed_tables_iff.1 (h.of_get? hget)
    refine h.put (Node.wellKeyed_tables_iff.2 ⟨wellKeyed_nil, ?_⟩)
    rw [List.forall_mem_append, List.forall_mem_singleton]
    exact ⟨hearlier, hlast⟩
  · cases hopen

end Entries

/-! ### Values in a text -/

/-- All that a reader gives has a property. -/
def Gives {α : Type} (reader : Reader α) (P : α → Prop) : Prop :=
  ∀ text a rest, reader text = some (a, rest) → P a

/-- A scalar is neither an array nor a table. -/
theorem gives_scalar : Gives scalar (Value.isScalar · = true) := by
  have hinteger (text : List Char) (value : Value) (h : integer? text = some value) :
      value.isScalar = true := by
    rw [integer?] at h
    split at h
    · cases h
    · cases h
      cases (Numeral.ofText text).value? <;> rfl
  have hfloat (text : List Char) (value : Value) (h : float? text = some value) :
      value.isScalar = true := by
    obtain ⟨magnitude, -, rfl⟩ := Option.map_eq_some_iff.1 h
    cases magnitude <;> rfl
  intro text value rest h
  simp only [scalar, Option.map_eq_some_iff, Prod.mk.injEq] at h
  obtain ⟨_, h, rfl, -⟩ := h
  rw [scalarValue?] at h
  split at h
  · cases h
    rfl
  · split at h
    · cases h
      rfl
    · split at h
      · cases h
        rfl
      · rcases Option.or_eq_some_iff.1 h with h | ⟨-, h⟩
        · exact hinteger _ _ h
        · exact hfloat _ _ h

theorem gives_plain : Gives value.plain Value.WellKeyed := by
  intro text v rest h
  rw [value.plain.eq_def] at h
  split at h
  · obtain ⟨_, -, heq⟩ := Option.map_eq_some_iff.1 h
    cases heq
    exact .scalar rfl
  · obtain ⟨_, -, heq⟩ := Option.map_eq_some_iff.1 h
    cases heq
    exact .scalar rfl
  · exact .scalar (gives_scalar _ _ _ h)

/-- After a key comes what the reader of values gives. -/
theorem gives_keyValue {skip : List Char → List Char} {reader : Reader Value}
    (hreader : Gives reader Value.WellKeyed) :
    Gives (keyValue skip reader) (·.2.WellKeyed) := by
  intro text entry rest h
  rw [keyValue] at h
  split at h
  · cases h
  · split at h
    · obtain ⟨⟨v, _⟩, hvalue, heq⟩ := Option.map_eq_some_iff.1 h
      cases heq
      exact hreader _ _ _ hvalue
    · cases h

theorem gives_arrayItems {reader : Reader Value} (hreader : Gives reader Value.WellKeyed)
    (limit : Nat) : Gives (arrayItems reader limit) (∀ item ∈ ·, item.WellKeyed) := by
  induction limit with
  | zero =>
    intro text items rest h
    cases h
  | succ limit ih =>
    intro text items rest h
    rw [arrayItems] at h
    split at h
    · cases h
      simp
    · split at h
      · cases h
      · next item _ hitem =>
        have hkeyed := hreader _ _ _ hitem
        split at h
        · cases h
          simpa using hkeyed
        · obtain ⟨⟨items, _⟩, hitems, heq⟩ := Option.map_eq_some_iff.1 h
          cases heq
          exact List.forall_mem_cons.2 ⟨hkeyed, ih _ _ _ hitems⟩
        · cases h

theorem gives_inlineEntries {reader : Reader Value} (hreader : Gives reader Value.WellKeyed)
    (limit : Nat) {entries : Entries} (hentries : entries.WellKeyed) :
    Gives (inlineEntries reader limit entries) Entries.WellKeyed := by
  induction limit generalizing entries with
  | zero =>
    intro text result rest h
    cases h
  | succ limit ih =>
    intro text result rest h
    rw [inlineEntries] at h
    split at h
    · cases h
      exact hentries
    · split at h
      · cases h
      · next path item _ hitem =>
        have hkeyed := gives_keyValue hreader _ _ _ hitem
        split at h
        · cases h
        · next more hinsert =>
          have hmore := hentries.insert hkeyed hinsert
          split at h
          · cases h
            exact hmore
          · exact ih hmore _ _ _ h
          · cases h

/-- All tables in a value that is read have distinct keys. -/
theorem gives_value (limit depth : Nat) : Gives (value limit depth) Value.WellKeyed := by
  induction depth with
  | zero => exact gives_plain
  | succ depth ih =>
    intro text v rest h
    simp only [value] at h
    split at h
    · obtain ⟨⟨items, _⟩, hitems, heq⟩ := Option.map_eq_some_iff.1 h
      cases heq
      exact .array (gives_arrayItems ih limit _ _ _ hitems)
    · obtain ⟨⟨entries, _⟩, hentries, heq⟩ := Option.map_eq_some_iff.1 h
      cases heq
      have hkeyed : (Node.table .header entries).WellKeyed :=
        Node.wellKeyed_table_iff.2
          (gives_inlineEntries ih limit Entries.wellKeyed_nil _ _ _ hentries)
      exact hkeyed.value
    · exact gives_plain _ _ _ h

/-! ### Lines and documents -/

/-- All tables in the value of a line have distinct keys. -/
def Line.WellKeyed : Line → Prop
  | .entry _ value => value.WellKeyed
  | .void | .table _ | .nextTable _ => True

theorem gives_lineContent (limit : Nat) : Gives (lineContent limit) Line.WellKeyed := by
  intro text line rest h
  rw [lineContent.eq_def] at h
  split at h
  · split at h
    · cases h
    · split at h
      · cases h
        trivial
      · cases h
  · split at h
    · cases h
    · split at h
      · cases h
        trivial
      · cases h
  · split at h
    any_goals
      cases h
      trivial
    obtain ⟨⟨⟨path, v⟩, _⟩, hentry, heq⟩ := Option.map_eq_some_iff.1 h
    cases heq
    exact gives_keyValue (gives_value limit depthLimit) _ _ _ hentry

theorem wellKeyed_of_linesUpTo {limit count : Nat} {text : List Char} {lines : List Line}
    (h : linesUpTo limit count text = some lines) : ∀ line ∈ lines, line.WellKeyed := by
  induction count generalizing text lines with
  | zero =>
    cases text with
    | nil =>
      cases h
      simp
    | cons c text => cases h
  | succ count ih =>
    cases text with
    | nil =>
      cases h
      simp
    | cons c text =>
      simp only [linesUpTo] at h
      split at h
      · cases h
      · next line rest hline =>
        split at h
        · cases h
        · obtain ⟨lines, hlines, rfl⟩ := Option.map_eq_some_iff.1 h
          exact List.forall_mem_cons.2 ⟨gives_lineContent limit _ _ _ hline, ih hlines⟩

/-- A line leaves all keys of a draft distinct. -/
theorem Draft.wellKeyed_of_addLine {draft next : Draft} {line : Line}
    (hdraft : draft.entries.WellKeyed) (hline : line.WellKeyed)
    (h : draft.addLine line = some next) : next.entries.WellKeyed := by
  have hheader {opening : String → Entries → Option Entries} {path : List String}
      (hopening : ∀ key inner inner', inner.WellKeyed → opening key inner = some inner' →
        inner'.WellKeyed) (h : draft.withHeader opening path = some next) :
      next.entries.WellKeyed := by
    obtain ⟨key, -, h⟩ := Option.bind_eq_some_iff.1 h
    obtain ⟨entries, hentries, rfl⟩ := Option.map_eq_some_iff.1 h
    exact hdraft.descend (hopening key) hentries
  cases line with
  | void =>
    cases h
    exact hdraft
  | entry path v =>
    obtain ⟨entries, hentries, rfl⟩ := Option.map_eq_some_iff.1 h
    exact hdraft.descend (fun inner inner' hinner => hinner.insert hline) hentries
  | table path => exact hheader (fun key inner inner' hinner => hinner.openTable) h
  | nextTable path => exact hheader (fun key inner inner' hinner => hinner.openNextTable) h

theorem Draft.wellKeyed_of_foldlM {lines : List Line} {draft last : Draft}
    (hdraft : draft.entries.WellKeyed) (hlines : ∀ line ∈ lines, line.WellKeyed)
    (h : lines.foldlM Draft.addLine draft = some last) : last.entries.WellKeyed := by
  induction lines generalizing draft with
  | nil =>
    cases h
    exact hdraft
  | cons line rest ih =>
    obtain ⟨hline, hrest⟩ := List.forall_mem_cons.1 hlines
    rw [List.foldlM_cons] at h
    obtain ⟨next, hnext, h⟩ := Option.bind_eq_some_iff.1 h
    exact ih (wellKeyed_of_addLine hdraft hline hnext) hrest h

/-- In a document that is read no table has a key twice. -/
theorem Document.wellKeyed_of_read? {text : String} {entries : List (String × Value)}
    (h : Document.read? text = some entries) : Document.WellKeyed entries := by
  obtain ⟨lines, hlines, h⟩ := Option.bind_eq_some_iff.1 h
  obtain ⟨draft, hdraft, h⟩ := Option.bind_eq_some_iff.1 h
  cases h
  have hkeyed := Draft.wellKeyed_of_foldlM Entries.wellKeyed_nil (wellKeyed_of_linesUpTo hlines)
    hdraft
  refine ⟨Node.map_fst_tableValues draft.entries ▸ hkeyed.nodup, ?_⟩
  rw [Node.tableValues_eq_map, List.forall_mem_map]
  exact fun entry hentry => (hkeyed.nodes entry hentry).value

end Metamodel.Toml
