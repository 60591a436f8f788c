import Metamodel.Toml.Literal
import Metamodel.Toml.Scalar
import Metamodel.Toml.Tree

/-!
# Documents

A document is a run of lines: keys with their values, and headers that say to which table the keys
after them belong. `Document.read?` gives the entries of the whole document, or nothing where the
text is not TOML or defines something twice. A reader that repeats itself counts down from a limit
that no document exceeds, since each line, each item of an array and each entry of an inline table
takes a character at least. Only the depth of values and the parts of a key have a limit that a
document may fail.
-/

namespace Metamodel.Toml

/-- How deep arrays and inline tables may be nested, and how many parts a key may have. -/
def depthLimit : Nat := 80

/-- The characters of keys without quotes. -/
def isKeyChar (c : Char) : Bool :=
  c.isAlphanum || c = '_' || c = '-'

/-- A key without dots. -/
def simpleKey : Reader String
  | '"' :: rest => (basicString rest).map fun (key, rest) => (String.ofList key, rest)
  | '\'' :: rest => (literalString rest).map fun (key, rest) => (String.ofList key, rest)
  | text =>
    let key := text.takeWhile isKeyChar
    if key.isEmpty then none else some (String.ofList key, text.drop key.length)

/-- Keys with dots between them, as many as `limit` at most. -/
def keys : (limit : Nat) → Reader (List String)
  | 0, _ => none
  | limit + 1, text =>
    match simpleKey text with
    | none => none
    | some (key, rest) =>
      match skipBlanks rest with
      | '.' :: more => (keys limit (skipBlanks more)).map fun (keys, rest) => (key :: keys, rest)
      | _ => some ([key], rest)

/-- A dotted key. -/
def dottedKey : Reader (List String) := keys depthLimit

/-- A key, an equals sign and a value; `skip` gives what follows the gaps around the sign. -/
def keyValue (skip : List Char → List Char) (value : Reader Value) :
    Reader (List String × Value) := fun text =>
  match dottedKey text with
  | none => none
  | some (path, rest) =>
    match skip rest with
    | '=' :: rest => (value (skip rest)).map fun (value, rest) => ((path, value), rest)
    | _ => none

/-- The items of an array after its opening bracket, as many as `limit` at most. -/
def arrayItems (value : Reader Value) : (limit : Nat) → Reader (List Value)
  | 0, _ => none
  | limit + 1, text =>
    match skipVoid text with
    | ']' :: rest => some ([], rest)
    | start =>
      match value start with
      | none => none
      | some (item, rest) =>
        match skipVoid rest with
        | ']' :: rest => some ([item], rest)
        | ',' :: rest =>
          (arrayItems value limit rest).map fun (items, rest) => (item :: items, rest)
        | _ => none

/-- The entries of an inline table after its opening brace, as many as `limit` at most, added to
those read before. Line ends and comments may stand wherever blanks may, dotted keys excepted. -/
def inlineEntries (value : Reader Value) : (limit : Nat) → Entries → Reader Entries
  | 0, _, _ => none
  | limit + 1, entries, text =>
    match skipVoid text with
    | '\x7d' :: rest => some (entries, rest)
    | start =>
      match keyValue skipVoid value start with
      | none => none
      | some ((path, item), rest) =>
        match entries.insert item path with
        | none => none
        | some entries =>
          match skipVoid rest with
          | '\x7d' :: rest => some (entries, rest)
          | ',' :: rest => inlineEntries value limit entries rest
          | _ => none

/-- A value in which arrays and inline tables have at most `limit` items each and are nested at
most `depth` deep. -/
def value (limit : Nat) : (depth : Nat) → Reader Value
  | 0 => plain
  | depth + 1 => fun text =>
    match text with
    | '[' :: rest =>
      (arrayItems (value limit depth) limit rest).map fun (items, rest) => (.array items, rest)
    | '\x7b' :: rest =>
      (inlineEntries (value limit depth) limit [] rest).map fun (entries, rest) =>
        (.table (Node.tableValues entries), rest)
    | text => plain text
where
  /-- A string or a scalar. -/
  plain : Reader Value := fun text =>
    match text with
    | '"' :: _ | '\'' :: _ =>
      (anyString text).map fun (content, rest) => (.string (String.ofList content), rest)
    | text => scalar text

/-- What a line of a document says. -/
inductive Line where
  /-- Nothing. -/
  | void
  /-- A key of the current table has a value. -/
  | entry (path : List String) (value : Value)
  /-- The keys that follow belong to a table. -/
  | table (path : List String)
  /-- The keys that follow belong to a new table among those that share the header. -/
  | nextTable (path : List String)

/-- What a line says, before the blanks and the comment at its end. Its arrays and inline tables
have at most `limit` items each. -/
def lineContent (limit : Nat) : Reader Line
  | '[' :: '[' :: rest =>
    match dottedKey (skipBlanks rest) with
    | none => none
    | some (path, rest) =>
      match skipBlanks rest with
      | ']' :: ']' :: rest => some (.nextTable path, rest)
      | _ => none
  | '[' :: rest =>
    match dottedKey (skipBlanks rest) with
    | none => none
    | some (path, rest) =>
      match skipBlanks rest with
      | ']' :: rest => some (.table path, rest)
      | _ => none
  | text =>
    match text with
    | [] | '\n' :: _ | '\r' :: _ | '#' :: _ => some (.void, text)
    | _ => (keyValue skipBlanks (value limit depthLimit) text).map fun ((path, value), rest) =>
      (.entry path value, rest)

/-- The lines of a text, as many as `count` at most; their arrays and inline tables have at most
`limit` items each. -/
def linesUpTo (limit : Nat) : (count : Nat) → List Char → Option (List Line)
  | _, [] => some []
  | 0, _ => none
  | count + 1, text =>
    match lineContent limit (skipBlanks text) with
    | none => none
    | some (line, rest) =>
      match endLine? rest with
      | none => none
      | some rest => (linesUpTo limit count rest).map (line :: ·)

/-- The lines of a text. It has no more lines than characters, and no array or inline table in it
has more items. -/
def lines? (text : List Char) : Option (List Line) :=
  linesUpTo text.length text.length text

/-- A document being read: its entries, and the path of the current table. -/
structure Draft where
  entries : Entries := []
  current : List String := []

namespace Draft

/-- The draft after a header whose table is opened by `opening`. -/
def withHeader (draft : Draft) (opening : String → Entries → Option Entries)
    (path : List String) : Option Draft :=
  path.getLast?.bind fun key =>
    (Entries.descend (opening key) path.dropLast draft.entries).map fun entries =>
      { entries, current := path }

/-- The draft after one more line. -/
def addLine (draft : Draft) : Line → Option Draft
  | .void => some draft
  | .entry path value =>
    (Entries.descend (Entries.insert value path) draft.current draft.entries).map fun entries =>
      { draft with entries }
  | .table path => draft.withHeader Entries.openTable path
  | .nextTable path => draft.withHeader Entries.openNextTable path

end Draft

namespace Document

/-- The text without the mark that may stand at its very start. -/
def dropMark : List Char → List Char
  | '\ufeff' :: rest => rest
  | text => text

/-- The entries of a document. -/
def read? (text : String) : Option (List (String × Value)) := do
  let lines ← lines? (dropMark text.toList)
  let draft ← lines.foldlM Draft.addLine {}
  return Node.tableValues draft.entries

end Document

end Metamodel.Toml
