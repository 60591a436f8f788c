import Metamodel.Toml.Scalar

/-!
# Readable values

A document may hold numbers that nobody can read, and it does no harm as long as nobody looks at
them. `Value.isReadable` holds of the values that can be read to the end, and `Document.isReadable`
of the documents in which all values can. A table under whose first key stands a date is read as
that date, so its other keys are not looked at.
-/

namespace Metamodel.Toml

/-- The key that makes a table stand for a date. -/
def datetimeKey : String := "$__toml_private_datetime"

/-- Whether a table stands for a date: the key for dates is there, and no other comes before it in
the order of bytes. -/
def isDatetimeTable (entries : List (String × Value)) : Bool :=
  entries.any (·.1 = datetimeKey) && entries.all (datetimeKey ≤ ·.1)

/-- Whether a table gives the text of a date, a time or both under the key for dates. -/
def givesDatetime (entries : List (String × Value)) : Bool :=
  entries.any fun
    | (key, .string text) => key = datetimeKey && isDatetime text.toList
    | _ => false

mutual

/-- Whether a value can be read to the end. -/
def Value.isReadable : Value → Bool
  | .string _ | .integer _ | .float _ | .boolean _ | .datetime _ => true
  | .unreadable _ => false
  | .array items => Value.areReadable items
  | .table entries =>
    if isDatetimeTable entries then givesDatetime entries else Document.isReadable entries

/-- Whether all items of an array can be read to the end. -/
def Value.areReadable : List Value → Bool
  | [] => true
  | item :: rest => item.isReadable && Value.areReadable rest

/-- Whether the values of all entries can be read to the end. -/
def Document.isReadable : List (String × Value) → Bool
  | [] => true
  | (_, value) :: rest => value.isReadable && Document.isReadable rest

end

end Metamodel.Toml
