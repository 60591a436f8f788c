import Metamodel.Config.Document
import Metamodel.Decimal.Shortest
import Metamodel.Toml.Document
import Metamodel.Toml.Readable

/-!
# Configuration texts

The reader that configurations are read with. It hands over the entries of a table in the order of
the bytes of their keys, so which of several mistakes is reported does not depend on the order of
the lines, and it hands over dates as tables with a single key. A number that cannot be read makes a
document with a mistake malformed, but a configuration may be complete without it.
-/

namespace Metamodel

/-- The entries of a table in the byte order of their keys. -/
def inKeyOrder (entries : DocumentEntries) : DocumentEntries :=
  entries.mergeSort fun a b => a.1 ≤ b.1

mutual

/-- A value as it is handed over. -/
def Toml.Value.handedOver : Toml.Value → DocumentValue
  | .string text => .string text
  | .integer n => .other s!"integer `{n}`"
  | .float x => .other s!"floating point `{Decimal.text x}`"
  | .boolean b => .boolean b
  | .datetime text => .table [(Toml.datetimeKey, .string text)]
  | .unreadable text => .other s!"number `{text}`"
  | .array items => .array (Toml.Value.itemsHandedOver items)
  | .table entries => .table (inKeyOrder (Toml.Value.entriesHandedOver entries))

/-- The items of an array as they are handed over. -/
def Toml.Value.itemsHandedOver : List Toml.Value → List DocumentValue
  | [] => []
  | item :: rest => item.handedOver :: Toml.Value.itemsHandedOver rest

/-- The entries of a table as they are handed over, before they are put in order. -/
def Toml.Value.entriesHandedOver : List (String × Toml.Value) → DocumentEntries
  | [] => []
  | (key, value) :: rest => (key, value.handedOver) :: Toml.Value.entriesHandedOver rest

end

/-- Reads texts as TOML documents. -/
def tomlReader : DocumentReader where
  read? text :=
    (Toml.Document.read? text).map fun entries =>
      inKeyOrder (Toml.Value.entriesHandedOver entries)
  isWhole text := (Toml.Document.read? text).any Toml.Document.isReadable

/-- The configuration that a text describes. -/
def Config.parse (text : String) : Except ConfigError Config :=
  parseWith tomlReader text

end Metamodel
