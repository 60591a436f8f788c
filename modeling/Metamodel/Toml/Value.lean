/-!
# Values of a document

What a TOML document says: tables of keys and values. Once a document is read, how a value was
written no longer matters.
-/

namespace Metamodel.Toml

/-- A value. The keys of a table are distinct. -/
inductive Value where
  | string (text : String)
  | integer (value : Int)
  | float (value : Float)
  | boolean (value : Bool)
  /-- A date, a time or both, as written. -/
  | datetime (text : String)
  /-- A number that the format lets stand although nothing can hold its value, as written. -/
  | unreadable (text : String)
  | array (items : List Value)
  | table (entries : List (String × Value))

end Metamodel.Toml
