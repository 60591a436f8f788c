import Metamodel.Toml.Value

/-!
# The tree of a document under construction

Tables come into being in several ways, and which of them may be extended later depends on the
way. A `Node` remembers it. `descend` follows the path of a header and `insert` that of a dotted
key; both refuse what would define a value twice.
-/

namespace Metamodel.Toml

/-- How a table came into being. -/
inductive Origin where
  /-- On the way to a table with a header. -/
  | passing
  /-- On the way to a value with a dotted key. -/
  | dotted
  /-- By a header of its own. -/
  | header
  deriving DecidableEq, Repr

/-- A value in place, or a table that may still grow. -/
inductive Node where
  /-- A value that is complete. -/
  | leaf (value : Value)
  /-- A table. -/
  | table (origin : Origin) (entries : List (String × Node))
  /-- Tables that share a header; the last of them may still grow. -/
  | tables (earlier : List (List (String × Node))) (last : List (String × Node))

/-- The keys of a table and what stands under them. -/
abbrev Entries := List (String × Node)

namespace Entries

/-- What stands under a key. -/
def get? (entries : Entries) (key : String) : Option Node :=
  (entries.find? (·.1 = key)).map (·.2)

/-- The entries with another node under a key. -/
def put (entries : Entries) (key : String) (node : Node) : Entries :=
  if entries.any (·.1 = key) then
    entries.map fun entry => if entry.1 = key then (key, node) else entry
  else entries ++ [(key, node)]

/-- Changes the table that the path of a header leads to. Tables on the way are made where they
are missing, and of tables that share a header the last is meant. -/
def descend (change : Entries → Option Entries) : List String → Entries → Option Entries
  | [], entries => change entries
  | key :: rest, entries =>
    match entries.get? key with
    | none => (descend change rest []).map fun inner => entries.put key (.table .passing inner)
    | some (.table origin inner) =>
      (descend change rest inner).map fun inner => entries.put key (.table origin inner)
    | some (.tables earlier last) =>
      (descend change rest last).map fun last => entries.put key (.tables earlier last)
    | some (.leaf _) => none

/-- Puts a value under a dotted key. The way may not lead into a table with a header, and a table
that was only passed on the way to one counts from now on as made by a dotted key. Of tables that
share a header the last may be passed, but its own keys are closed. -/
def insert (value : Value) : List String → Entries → Option Entries
  | [], _ => none
  | [key], entries =>
    if (entries.get? key).isSome then none else some (entries.put key (.leaf value))
  | key :: next :: rest, entries =>
    match entries.get? key with
    | none =>
      (insert value (next :: rest) []).map fun inner => entries.put key (.table .dotted inner)
    | some (.table .dotted inner) | some (.table .passing inner) =>
      (insert value (next :: rest) inner).map fun inner => entries.put key (.table .dotted inner)
    | some (.tables earlier last) =>
      if rest = [] then none
      else
        (insert value (next :: rest) last).map fun last => entries.put key (.tables earlier last)
    | some (.table .header _) | some (.leaf _) => none

/-- Opens the table of a header. It may exist already if it was only passed on the way. -/
def openTable (key : String) (entries : Entries) : Option Entries :=
  match entries.get? key with
  | none => some (entries.put key (.table .header []))
  | some (.table .passing inner) => some (entries.put key (.table .header inner))
  | _ => none

/-- Opens one more of the tables that share a header. -/
def openNextTable (key : String) (entries : Entries) : Option Entries :=
  match entries.get? key with
  | none => some (entries.put key (.tables [] []))
  | some (.tables earlier last) => some (entries.put key (.tables (earlier ++ [last]) []))
  | _ => none

end Entries

mutual

/-- The value of a node. -/
def Node.value : Node → Value
  | .leaf value => value
  | .table _ entries => .table (Node.tableValues entries)
  | .tables earlier last => .array (Node.arrayValues earlier ++ [.table (Node.tableValues last)])

/-- The values of the entries of a table. -/
def Node.tableValues : List (String × Node) → List (String × Value)
  | [] => []
  | (key, node) :: rest => (key, node.value) :: Node.tableValues rest

/-- The values of tables that share a header. -/
def Node.arrayValues : List (List (String × Node)) → List Value
  | [] => []
  | entries :: rest => .table (Node.tableValues entries) :: Node.arrayValues rest

end

end Metamodel.Toml
